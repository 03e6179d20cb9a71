import Precompiles.Dex.Transmuter.Ledger

/-!
# The views

`GetExchangeRate` and `GetClaimable` read the Transmuter under `mu.RLock`, the read lock, which
several goroutines may hold at once. `GetStake` and `GetTransmuterState` return what `getStake`
and the `states` map hold.

* `getExchangeRate_run_le`: a token's exchange rate never decreases over a run, from any
  Transmuter and StateDB. `GetExchangeRate` gives `Q96` for a token without a state, where
  `InitializeTransmuter` starts it, so in every reachable state every rate is at least `Q96` and
  no stake can accrue a negative amount.
* `getClaimable_ne_iff`: `GetClaimable` changes the Transmuter exactly when it reads a stake from
  storage: the token has a state, the stake is not in the cache and its storage word is nonzero.
  `getStake` then writes the stake it decodes into the `stakes` map, under the read lock.
  `GetStake` calls `getStake` under the same lock, and writes in the same case
  (`getStake_ne_iff`). What two readers do at once is in `Precompiles.Dex.Transmuter.Locking`.
-/

namespace Precompiles.Dex

/-- `GetExchangeRate`: the token's exchange rate, `Q96` for a token without a state. -/
def Transmuter.getExchangeRate (t : Transmuter) (syntheticToken : Address) : ℤ :=
  match t.states syntheticToken with
  | none => Q96
  | some state => state.exchangeRate

/-! ## The exchange rate never decreases -/

theorem getExchangeRate_of_states_eq {t t' : Transmuter} {x : Address}
    (h : t'.states x = t.states x) : t'.getExchangeRate x = t.getExchangeRate x := by
  simp only [Transmuter.getExchangeRate, h]

@[simp] theorem getExchangeRate_saveState (t : Transmuter) (x : Address) (st : TransmuterState) :
    (t.saveState x st).getExchangeRate x = st.exchangeRate := by
  simp [Transmuter.getExchangeRate]

@[simp] theorem getExchangeRate_setStake (t : Transmuter) (x : Address) (k : StakeKey)
    (s : TransmuterStake) : (t.setStake k s).getExchangeRate x = t.getExchangeRate x := rfl

theorem getExchangeRate_of_some {t : Transmuter} {x : Address} {st : TransmuterState}
    (h : t.states x = some st) : t.getExchangeRate x = st.exchangeRate := by
  simp only [Transmuter.getExchangeRate, h]

/-- **Step lemma.** No call lowers an exchange rate: `Deposit` raises its token's by a quotient
of positive numbers, `InitializeTransmuter` sets `Q96` where `GetExchangeRate` already read
`Q96`, and the other calls save their token's state with the rate they read. -/
theorem getExchangeRate_apply_le (c : Call) (w : Transmuter × StateDB) (x : Address) :
    w.1.getExchangeRate x ≤ (c.apply w).1.getExchangeRate x := by
  by_cases hx : x = c.token
  swap
  · exact (getExchangeRate_of_states_eq (Call.states_apply_of_ne c w hx)).ge
  obtain ⟨t, db⟩ := w
  cases c with
  | initializeTransmuter y =>
    obtain rfl : x = y := hx
    simp only [Call.apply, Transmuter.initializeTransmuter]
    split
    · exact le_rfl
    · rename_i h
      simp [Transmuter.getExchangeRate, h]
  | deposit y a =>
    obtain rfl : x = y := hx
    simp only [Call.apply, Transmuter.deposit]
    split
    · exact le_rfl
    · rename_i st hst
      split_ifs with ha hT
      · exact le_rfl
      · rw [getExchangeRate_of_some hst, getExchangeRate_saveState]
        exact le_add_of_nonneg_right (Int.ediv_nonneg (mul_nonneg (by omega) Q96_pos.le) hT.le)
      · rw [getExchangeRate_of_some hst, getExchangeRate_saveState]
  | stake owner y a =>
    obtain rfl : x = y := hx
    simp only [Call.apply, Transmuter.stake]
    split
    · exact le_rfl
    · rename_i st hst
      split_ifs
      · exact le_rfl
      · obtain ⟨found, t', hg, -⟩ := getStake_eq_pair t db (stakeKey x owner)
        simp [hg, Transmuter.saveStake, getExchangeRate_of_some hst]
  | unstake owner y _ | claim owner y =>
    obtain rfl : x = y := hx
    obtain ⟨found, t', hg, hs⟩ := getStake_eq_pair t db (stakeKey x owner)
    have hkeep := getExchangeRate_of_states_eq (x := x) (congrFun hs x)
    simp only [Call.apply, Transmuter.unstake, Transmuter.claim, hg]
    split
    · exact le_rfl
    · rename_i st hst
      cases found with
      | none => exact hkeep.ge
      | some s =>
        dsimp only
        split_ifs <;> simp [Transmuter.saveStake, getExchangeRate_of_some hst, hkeep]

/-- **The exchange rate never decreases.** Over every run of calls, from any Transmuter and
StateDB, `GetExchangeRate` of every token ends at least where it started. -/
theorem getExchangeRate_run_le (calls : List Call) :
    ∀ (w : Transmuter × StateDB) (x : Address),
      w.1.getExchangeRate x ≤ (run calls w).1.getExchangeRate x := by
  induction calls with
  | nil => exact fun _ _ => le_rfl
  | cons c calls ih => exact fun w x => (getExchangeRate_apply_le c w x).trans (ih (c.apply w) x)

/-! ## `GetClaimable` writes under the read lock -/

/-- `getStake` changes the Transmuter exactly when it decodes a stake from storage. -/
theorem getStake_ne_iff (t : Transmuter) (db : StateDB) (k : StakeKey) :
    (t.getStake db k).2 ≠ t ↔ t.stakes k = none ∧ db.stakeWords k ≠ FixedBytes.zero 32 := by
  unfold Transmuter.getStake
  cases hk : t.stakes k with
  | some s => simp
  | none =>
    split_ifs with hw
    · simp [hw]
    · refine iff_of_true (fun h => ?_) ⟨rfl, hw⟩
      have := congrFun (congrArg Transmuter.stakes h) k
      simp [hk] at this

theorem getClaimable_snd (t : Transmuter) (db : StateDB) (owner x : Address) :
    (t.getClaimable db owner x).2 =
      if (t.states x).isSome then (t.getStake db (stakeKey x owner)).2 else t := by
  unfold Transmuter.getClaimable
  cases t.states x with
  | none => rfl
  | some st =>
    obtain ⟨found, t', hg, -⟩ := getStake_eq_pair t db (stakeKey x owner)
    cases found <;> simp [hg]

/-- `GetClaimable` writes under the read lock: it changes the Transmuter exactly when the
token has a state, the owner's stake is not cached and its storage word is nonzero: then it
writes the decoded stake into the `stakes` map while holding only `mu.RLock`. -/
theorem getClaimable_ne_iff (t : Transmuter) (db : StateDB) (owner x : Address) :
    (t.getClaimable db owner x).2 ≠ t ↔
      (t.states x).isSome ∧ t.stakes (x, owner) = none ∧
        db.stakeWords (x, owner) ≠ FixedBytes.zero 32 := by
  rw [getClaimable_snd]
  split_ifs with hx
  · simp [hx, getStake_ne_iff, stakeKey]
  · simp [hx]

end Precompiles.Dex
