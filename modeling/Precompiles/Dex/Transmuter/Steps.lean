import Precompiles.Dex.Transmuter.Invariant

/-!
# Every call keeps the invariant

One lemma per call of the Transmuter (`Inv.stake`, `Inv.unstake`, `Inv.claim`,
`Inv.deposit`, `Inv.initializeTransmuter`), each a case analysis on the call's error paths
followed by `Inv.update` or `Inv.saveState`. From them, `Inv.apply` for one call, `Inv.run`
for a run, and `Reachable.inv` for every reachable state. The frame lemma
`stakes_apply_of_ne` says that a call writes no stake but the one of its own owner and token.
-/

namespace Precompiles.Dex

open Transmuter

variable {t : Transmuter} {db : StateDB}

/-- The stake a call starts from: the cached one, or a fresh one at the current rate. -/
theorem wf_getD {x : Option TransmuterStake} {r : ℤ} (h : ∀ s, x = some s → s.Wf r) :
    (x.getD ⟨0, 0, r⟩).Wf r := by
  cases x with
  | none => exact ⟨le_rfl, le_rfl, le_rfl⟩
  | some s => exact h s rfl

theorem weightOf_eq_getD (r : ℤ) (x : Option TransmuterStake) :
    weightOf r x = (x.getD ⟨0, 0, r⟩).weight r := by
  cases x <;> simp [TransmuterStake.weight]

theorem stakedOf_eq_getD (r : ℤ) (x : Option TransmuterStake) :
    stakedOf x = (x.getD ⟨0, 0, r⟩).stakedAmount := by
  cases x <;> rfl

theorem TokenInv.empty {stakes : Address → Option TransmuterStake} (r : ℤ)
    (hs : ∀ o, stakes o = none) : TokenInv ⟨0, 0, r⟩ stakes where
  buffer_nonneg := le_rfl
  wf o s h := by simp [hs o] at h
  staked_le O := by simp [hs]
  weight_le O := by simp [hs]

theorem Transmuter.saveState_of_eq {x : Address} {st : TransmuterState}
    (h : t.states x = some st) : t.saveState x st = t := by
  cases t
  simp only [Transmuter.saveState, Transmuter.mk.injEq, and_true]
  exact Function.update_eq_self_iff.2 h.symm

@[simp] theorem Transmuter.setStake_setStake (k : StakeKey) (s s' : TransmuterStake) :
    (t.setStake k s).setStake k s' = t.setStake k s' := by
  simp [Transmuter.setStake]

theorem Inv.initializeTransmuter (h : Inv t db) (x : Address) :
    Inv (t.initializeTransmuter db x).transmuter (t.initializeTransmuter db x).db := by
  unfold Transmuter.initializeTransmuter
  cases hx : t.states x with
  | some _ => exact h
  | none => exact h.saveState (TokenInv.empty Q96 fun o => h.registered x o hx)

theorem Inv.stake (h : Inv t db) (owner x : Address) (amount : ℤ) :
    Inv (t.stake db owner x amount).transmuter (t.stake db owner x amount).db := by
  unfold Transmuter.stake
  cases hx : t.states x with
  | none => exact h
  | some st =>
    by_cases ha : amount ≤ 0
    · simpa [ha] using h
    simp only [ha, if_false, h.getStake, stakeKey, Transmuter.saveStake]
    have htok := h.token x st hx
    have hwf := wf_getD (htok.wf owner)
    have hs := stakedAmount_updateStakeUnclaimed_le hwf
    have hw := weight_updateStakeUnclaimed_le hwf
    have hw' := weight_updateStakeUnclaimed hwf
    have hu := (wf_updateStakeUnclaimed hwf).unclaimed_nonneg
    have hs' := (wf_updateStakeUnclaimed hwf).staked_nonneg
    refine h.update (by simp [hx]) (htok.update rfl htok.buffer_nonneg ⟨?_, hu, le_rfl⟩ ?_ ?_)
      fun k hk => Function.update_noteq hk _ _
    · dsimp only; omega
    · rw [stakedOf_eq_getD st.exchangeRate]; dsimp only; omega
    · rw [weightOf_eq_getD, TransmuterStake.weight, sub_self, mul_zero, add_zero]
      dsimp only
      linarith

theorem Inv.unstake (h : Inv t db) (owner x : Address) (amount : ℤ) :
    Inv (t.unstake db owner x amount).transmuter (t.unstake db owner x amount).db := by
  unfold Transmuter.unstake
  cases hx : t.states x with
  | none => exact h
  | some st =>
    simp only [h.getStake, stakeKey]
    cases hk : t.stakes (x, owner) with
    | none => exact h
    | some s =>
      by_cases h0 : s.stakedAmount = 0
      · simpa [h0] using h
      simp only [h0, if_false, Transmuter.saveStake]
      have htok := h.token x st hx
      have hwf := htok.wf owner s hk
      have hs := stakedAmount_updateStakeUnclaimed_le hwf
      have hw := weight_updateStakeUnclaimed_le hwf
      have hw' := weight_updateStakeUnclaimed hwf
      have hL := lastUpdateIndex_updateStakeUnclaimed hwf h0
      have hwf' := wf_updateStakeUnclaimed hwf
      refine h.update (by simp [hx]) (htok.update rfl htok.buffer_nonneg
        ⟨?_, hwf'.unclaimed_nonneg, hwf'.index_le⟩ ?_ ?_) fun k hk => Function.update_noteq hk _ _
      · dsimp only; split_ifs <;> omega
      · simp only [hk, stakedOf_some]; split_ifs <;> omega
      · rw [hk, weightOf_some, TransmuterStake.weight_withStaked hL]
        linarith

theorem Inv.claim (h : Inv t db) (owner x : Address) :
    Inv (t.claim db owner x).transmuter (t.claim db owner x).db := by
  unfold Transmuter.claim
  cases hx : t.states x with
  | none => exact h
  | some st =>
    simp only [h.getStake, stakeKey]
    cases hk : t.stakes (x, owner) with
    | none => exact h
    | some s =>
      have htok := h.token x st hx
      have hwf := htok.wf owner s hk
      have hs := stakedAmount_updateStakeUnclaimed_le hwf
      have hw := weight_updateStakeUnclaimed_le hwf
      have hw' := weight_updateStakeUnclaimed hwf
      have hwf' := wf_updateStakeUnclaimed hwf
      have hB := htok.buffer_nonneg
      by_cases hu : (updateStakeUnclaimed s st).unclaimedAmount = 0
      · simp only [hu, if_true]
        rw [← Transmuter.saveState_of_eq (t := t.setStake _ _) (by simpa using hx)]
        refine h.update (by simp [hx]) (htok.update rfl hB hwf' ?_ ?_) fun _ _ => rfl
        · simp only [hk, stakedOf_some]; omega
        · simp only [hk, weightOf_some]; omega
      simp only [hu, if_false, Transmuter.saveStake, Transmuter.setStake_setStake]
      have hu0 := hwf'.unclaimed_nonneg
      refine h.update (by simp [hx]) (htok.update rfl ?_ ⟨hwf'.staked_nonneg, ?_, hwf'.index_le⟩
        ?_ ?_) fun k hk => Function.update_noteq hk _ _
      · dsimp only; split_ifs <;> omega
      · dsimp only; split_ifs <;> omega
      · simp only [hk, stakedOf_some]; omega
      · rw [hk, weightOf_some, TransmuterStake.weight_withUnclaimed]
        dsimp only
        split_ifs <;> linarith

theorem Inv.deposit (h : Inv t db) (x : Address) (amount : ℤ) :
    Inv (t.deposit db x amount).transmuter (t.deposit db x amount).db := by
  unfold Transmuter.deposit
  cases hx : t.states x with
  | none => exact h
  | some st =>
    by_cases ha : amount ≤ 0
    · simpa [ha] using h
    simp only [ha, if_false]
    have htok := h.token x st hx
    split_ifs with hT
    · refine h.saveState (htok.raise (Int.ediv_nonneg ?_ hT.le) (by omega) (Int.ediv_mul_le _ hT.ne'))
      exact mul_nonneg (by omega) Q96_pos.le
    · simpa using h.saveState (htok.raise le_rfl (by omega) (by simp; nlinarith [Q96_pos]))

/-- **Step lemma**: every call keeps the invariant. -/
theorem Inv.apply (h : Inv t db) (c : Call) : Inv (c.apply (t, db)).1 (c.apply (t, db)).2 := by
  cases c with
  | initializeTransmuter x => exact h.initializeTransmuter x
  | stake owner x a => exact h.stake owner x a
  | unstake owner x a => exact h.unstake owner x a
  | claim owner x => exact h.claim owner x
  | deposit x a => exact h.deposit x a

/-- **Run lemma**: every run keeps the invariant. -/
theorem Inv.run (calls : List Call) :
    ∀ {t db}, Inv t db → Inv (run calls (t, db)).1 (run calls (t, db)).2 := by
  induction calls with
  | nil => exact id
  | cons c calls ih => exact fun h => ih (h.apply c)

theorem Reachable.inv {w : Transmuter × StateDB} (h : Reachable w) : Inv w.1 w.2 := by
  obtain ⟨db, calls, hdb, rfl⟩ := h
  exact (Inv.init db hdb).run calls

/-! ## Frame: a call writes only its own stake -/
/-- The stake a call may write. -/
def Call.key : Call → Option StakeKey
  | .stake owner x _ | .unstake owner x _ | .claim owner x => some (stakeKey x owner)
  | _ => none

theorem getStake_stakes_of_ne (t : Transmuter) (db : StateDB) {k k' : StakeKey} (h : k' ≠ k) :
    (t.getStake db k).2.stakes k' = t.stakes k' := by
  unfold Transmuter.getStake
  split
  · rfl
  · split_ifs
    · rfl
    · exact Function.update_noteq h _ _

theorem stakes_apply_of_ne (c : Call) (t : Transmuter) (db : StateDB) {k : StakeKey}
    (hk : c.key ≠ some k) : (c.apply (t, db)).1.stakes k = t.stakes k := by
  cases c with
  | initializeTransmuter x =>
    simp only [Call.apply, Transmuter.initializeTransmuter]; split <;> rfl
  | deposit x a =>
    simp only [Call.apply, Transmuter.deposit]; split
    · rfl
    · split_ifs <;> rfl
  | stake owner x a =>
    have hne : k ≠ stakeKey x owner := fun h => hk (by rw [h]; rfl)
    simp only [Call.apply, Transmuter.stake]
    split
    · rfl
    · split_ifs
      · rfl
      · simp only [Transmuter.saveStake, saveState_stakes, setStake_stakes, Function.update_noteq hne, getStake_stakes_of_ne _ _ hne]
  | unstake owner x _ | claim owner x =>
    have hne : k ≠ stakeKey x owner := fun h => hk (by rw [h]; rfl)
    have hg := getStake_stakes_of_ne t db hne
    simp only [Call.apply, Transmuter.unstake, Transmuter.claim]
    split
    · rfl
    · split <;> rename_i h <;> rw [h] at hg
      · exact hg
      · split_ifs <;> simpa only [Transmuter.saveStake, saveState_stakes, setStake_stakes,
          Function.update_noteq hne] using hg

theorem stakes_run_of_ne (calls : List Call) {k : StakeKey} (hk : ∀ c ∈ calls, c.key ≠ some k) :
    ∀ w, (run calls w).1.stakes k = w.1.stakes k := by
  induction calls with
  | nil => exact fun _ => rfl
  | cons c calls ih =>
    intro w
    rw [run, List.foldl_cons, ← run, ih (fun c' hc' => hk c' (.tail c hc')) _]
    exact stakes_apply_of_ne c w.1 w.2 (hk c (.head calls))

/-- A StateDB with no storage word set. -/
def emptyStateDB : StateDB := ⟨fun _ => FixedBytes.zero 32⟩

theorem reachable_run_empty (calls : List Call) :
    Reachable (run calls (newTransmuter, emptyStateDB)) :=
  ⟨emptyStateDB, calls, fun _ => rfl, rfl⟩

end Precompiles.Dex
