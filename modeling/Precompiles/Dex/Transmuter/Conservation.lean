import Precompiles.Dex.Transmuter.Ledger

/-!
# The ledger of a stake

The ledger of one owner's stake of one synthetic token over a run: the synthetic the owner put
in with `Stake`, the underlying `Claim` paid out and the synthetic `Unstake` returned, each the
amount of the call's transfer. A reconciliation (`updateStakeUnclaimed`, run by `Stake` of a
positive amount, by `Unstake` and by `Claim`) credits the stake's whole accrual to its unclaimed
amount and converts as much of its staked amount, but never more than there is: what it credits
past the staked amount is its `excess`.

* `stakedIn_add_excess_eq`: over every run from `NewTransmuter`, for every owner and token, what
  the owner put in plus the excess of the reconciliations is the stake's staked and unclaimed
  amounts plus what `Claim` paid and `Unstake` returned, and the excess is never negative. So
  value is conserved exactly over the runs in which no accrual exceeds the stake it converts.
* `stakedIn_ne_of_deposit_past_stake`: stake 100 and deposit 300 with no other staker; the claim
  pays 300 and empties the stake, which was put in 100.

The step lemma is `Inv.ledger_apply`, from one lemma per call (`Inv.held_stake`,
`Inv.held_unstake`, `Inv.held_claim`); the run lemma is `ledger_run`.
-/

namespace Precompiles.Dex

open Transmuter

/-- The unclaimed amount of a cache entry. -/
def unclaimedOf : Option TransmuterStake → ℤ
  | none => 0
  | some s => s.unclaimedAmount

@[simp] theorem unclaimedOf_none : unclaimedOf none = 0 := rfl

@[simp] theorem unclaimedOf_some (s : TransmuterStake) : unclaimedOf (some s) = s.unclaimedAmount :=
  rfl

/-- What a reconciliation credits past the staked amount it converts. -/
def excess (s : TransmuterStake) (state : TransmuterState) : ℤ :=
  max 0 (accrual s state - s.stakedAmount)

/-- The amount a list of transfers moves. -/
def moved (trs : List Transfer) : ℤ := (trs.map (·.amount)).sum

/-! ## The entries of one call -/

/-- What `Stake` of the key's owner and token takes in. -/
def Call.stakedIn (k : StakeKey) : Call → Transmuter × StateDB → ℤ
  | c@(.stake owner x _), w => if stakeKey x owner = k then moved (c.transfers w) else 0
  | _, _ => 0

/-- What `Claim` of the key's owner and token pays out. -/
def Call.paid (k : StakeKey) : Call → Transmuter × StateDB → ℤ
  | c@(.claim owner x), w => if stakeKey x owner = k then moved (c.transfers w) else 0
  | _, _ => 0

/-- What `Unstake` of the key's owner and token returns. -/
def Call.unstaked (k : StakeKey) : Call → Transmuter × StateDB → ℤ
  | c@(.unstake owner x _), w => if stakeKey x owner = k then moved (c.transfers w) else 0
  | _, _ => 0

/-- The calls that reconcile the stake of `k`: `Stake` of a positive amount, `Unstake` and
`Claim`, of the key's owner and token. -/
def Call.reconciles (k : StakeKey) : Call → Bool
  | .stake owner x a => stakeKey x owner = k && 0 < a
  | .unstake owner x _ | .claim owner x => stakeKey x owner = k
  | _ => false

/-- The excess a call credits to the stake of `k`: that of the stake it reconciles, the cached
one or, as `Stake` has it, a fresh one at the rate. -/
def Call.excessOf (k : StakeKey) (c : Call) (w : Transmuter × StateDB) : ℤ :=
  match w.1.states k.1 with
  | none => 0
  | some st => if c.reconciles k then excess ((w.1.stakes k).getD ⟨0, 0, st.exchangeRate⟩) st else 0

/-- The sum of an entry over a run, each call taken in the state it runs in. -/
def runSum (f : Call → Transmuter × StateDB → ℤ) : List Call → Transmuter × StateDB → ℤ
  | [], _ => 0
  | c :: calls, w => f c w + runSum f calls (c.apply w)

/-! ## One call -/

variable {t : Transmuter} {db : StateDB} {st : TransmuterState} {x : Address}

theorem excess_nonneg (s : TransmuterStake) (st : TransmuterState) : 0 ≤ excess s st :=
  le_max_left _ _

theorem excess_of_staked_eq_zero {s : TransmuterStake} (h : s.stakedAmount = 0) :
    excess s st = 0 := by
  simp [excess, accrual, h]

theorem held_eq_getD (r : ℤ) (e : Option TransmuterStake) :
    stakedOf e + unclaimedOf e =
      (e.getD ⟨0, 0, r⟩).stakedAmount + (e.getD ⟨0, 0, r⟩).unclaimedAmount := by
  cases e <;> rfl

/-- A reconciliation adds its excess to the staked and unclaimed amounts. -/
theorem held_updateStakeUnclaimed {s : TransmuterStake} (h : s.Wf st.exchangeRate) :
    (updateStakeUnclaimed s st).stakedAmount + (updateStakeUnclaimed s st).unclaimedAmount =
      s.stakedAmount + s.unclaimedAmount + excess s st := by
  have := unclaimed_add_staked_updateStakeUnclaimed h
  rw [excess]
  linarith

theorem Inv.held_stake (h : Inv t db) (hx : t.states x = some st) (owner : Address) (a : ℤ) :
    stakedOf ((t.stake db owner x a).transmuter.stakes (x, owner)) +
        unclaimedOf ((t.stake db owner x a).transmuter.stakes (x, owner)) =
      stakedOf (t.stakes (x, owner)) + unclaimedOf (t.stakes (x, owner)) +
        moved (t.stake db owner x a).transfers +
        if 0 < a then excess ((t.stakes (x, owner)).getD ⟨0, 0, st.exchangeRate⟩) st else 0 := by
  unfold Transmuter.stake
  by_cases ha : a ≤ 0
  · simp [hx, ha, moved]
  have hc := held_updateStakeUnclaimed (wf_getD ((h.token x st hx).wf owner))
  simp only [hx, ha, if_false, h.getStake, stakeKey, Transmuter.saveStake, saveState_stakes,
    setStake_stakes, Function.update_same, stakedOf_some, unclaimedOf_some, lt_of_not_le ha,
    if_true, held_eq_getD st.exchangeRate]
  simp only [moved, List.map_cons, List.map_nil, List.sum_cons, List.sum_nil]
  linarith

theorem Inv.held_unstake (h : Inv t db) (hx : t.states x = some st) (owner : Address) (a : ℤ) :
    stakedOf ((t.unstake db owner x a).transmuter.stakes (x, owner)) +
        unclaimedOf ((t.unstake db owner x a).transmuter.stakes (x, owner)) +
        moved (t.unstake db owner x a).transfers =
      stakedOf (t.stakes (x, owner)) + unclaimedOf (t.stakes (x, owner)) +
        excess ((t.stakes (x, owner)).getD ⟨0, 0, st.exchangeRate⟩) st := by
  unfold Transmuter.unstake
  simp only [hx, h.getStake, stakeKey]
  cases hk : t.stakes (x, owner) with
  | none => simp [hk, moved, excess, accrual]
  | some s =>
    by_cases h0 : s.stakedAmount = 0
    · simp [hk, h0, moved, excess_of_staked_eq_zero h0]
    have hc := held_updateStakeUnclaimed ((h.token x st hx).wf owner s hk)
    simp only [h0, if_false, Transmuter.saveStake, saveState_stakes, setStake_stakes,
      Function.update_same, stakedOf_some, unclaimedOf_some, hk, Option.getD_some]
    simp only [moved, List.map_cons, List.map_nil, List.sum_cons, List.sum_nil]
    linarith

theorem Inv.held_claim (h : Inv t db) (hx : t.states x = some st) (owner : Address) :
    stakedOf ((t.claim db owner x).transmuter.stakes (x, owner)) +
        unclaimedOf ((t.claim db owner x).transmuter.stakes (x, owner)) +
        moved (t.claim db owner x).transfers =
      stakedOf (t.stakes (x, owner)) + unclaimedOf (t.stakes (x, owner)) +
        excess ((t.stakes (x, owner)).getD ⟨0, 0, st.exchangeRate⟩) st := by
  unfold Transmuter.claim
  simp only [hx, h.getStake, stakeKey]
  cases hk : t.stakes (x, owner) with
  | none => simp [hk, moved, excess, accrual]
  | some s =>
    have hc := held_updateStakeUnclaimed ((h.token x st hx).wf owner s hk)
    simp only [hk, Option.getD_some]
    split_ifs <;>
      simp only [Transmuter.saveStake, saveState_stakes, setStake_stakes, Function.update_same,
        stakedOf_some, unclaimedOf_some, moved, List.map_cons, List.map_nil, List.sum_cons,
        List.sum_nil] <;>
      linarith

theorem Call.excessOf_of_reconciles_eq_false {k : StakeKey} {c : Call} (h : c.reconciles k = false)
    (w : Transmuter × StateDB) : c.excessOf k w = 0 := by
  unfold Call.excessOf
  split <;> simp [h]

theorem Call.excessOf_of_states_eq_none {k : StakeKey} (c : Call) {w : Transmuter × StateDB}
    (h : w.1.states k.1 = none) : c.excessOf k w = 0 := by
  simp [Call.excessOf, h]

theorem Call.excessOf_of_states_eq_some {k : StakeKey} (c : Call) {w : Transmuter × StateDB}
    (h : w.1.states k.1 = some st) :
    c.excessOf k w =
      if c.reconciles k then excess ((w.1.stakes k).getD ⟨0, 0, st.exchangeRate⟩) st else 0 := by
  simp [Call.excessOf, h]

/-- **Step lemma.** What a call leaves in the stake of `k`, with what it pays out and returns,
is what the stake held, with what the call took in and the excess it credited. -/
theorem Inv.ledger_apply (h : Inv t db) (k : StakeKey) (c : Call) :
    stakedOf ((c.apply (t, db)).1.stakes k) + unclaimedOf ((c.apply (t, db)).1.stakes k) +
        c.paid k (t, db) + c.unstaked k (t, db) =
      stakedOf (t.stakes k) + unclaimedOf (t.stakes k) + c.stakedIn k (t, db) +
        c.excessOf k (t, db) := by
  by_cases hk : c.key = some k
  swap
  · have hr : c.reconciles k = false := by
      cases c <;> simp_all [Call.reconciles, Call.key]
    rw [stakes_apply_of_ne c t db hk, Call.excessOf_of_reconciles_eq_false hr]
    cases c <;> simp_all [Call.paid, Call.unstaked, Call.stakedIn, Call.key]
  obtain ⟨x, o⟩ := k
  cases hx : t.states x with
  | none =>
    have hn := h.registered x o hx
    rw [Call.excessOf_of_states_eq_none c hx]
    cases c <;> simp_all [Call.key, stakeKey, Call.apply, Call.paid, Call.unstaked,
      Call.stakedIn, Call.transfers, Transmuter.stake, Transmuter.unstake, Transmuter.claim,
      moved]
  | some st =>
    rw [Call.excessOf_of_states_eq_some c hx]
    cases c with
    | stake owner y a =>
      obtain ⟨rfl, rfl⟩ : y = x ∧ owner = o := by simpa [Call.key, stakeKey, eq_comm] using hk
      have := h.held_stake hx owner a
      simp only [Call.apply, Call.paid, Call.unstaked, Call.stakedIn, Call.transfers,
        Call.reconciles, stakeKey, if_true, decide_True, Bool.true_and, decide_eq_true_eq] at this ⊢
      split_ifs at this ⊢ <;> linarith
    | unstake owner y a =>
      obtain ⟨rfl, rfl⟩ : y = x ∧ owner = o := by simpa [Call.key, stakeKey, eq_comm] using hk
      have := h.held_unstake hx owner a
      simp only [Call.apply, Call.paid, Call.unstaked, Call.stakedIn, Call.transfers,
        Call.reconciles, stakeKey, if_true, decide_True]
      linarith
    | claim owner y =>
      obtain ⟨rfl, rfl⟩ : y = x ∧ owner = o := by simpa [Call.key, stakeKey, eq_comm] using hk
      have := h.held_claim hx owner
      simp only [Call.apply, Call.paid, Call.unstaked, Call.stakedIn, Call.transfers,
        Call.reconciles, stakeKey, if_true, decide_True]
      linarith
    | initializeTransmuter _ | deposit _ _ => simp [Call.key] at hk

/-- **Run lemma.** Over a run from a state with the invariant, what the stake of `k` ends with,
with what the run paid out and returned, is what it started with, with what the run took in and
the excess it credited. -/
theorem ledger_run (k : StakeKey) (calls : List Call) :
    ∀ {w : Transmuter × StateDB}, Inv w.1 w.2 →
      stakedOf ((run calls w).1.stakes k) + unclaimedOf ((run calls w).1.stakes k) +
          runSum (Call.paid k) calls w + runSum (Call.unstaked k) calls w =
        stakedOf (w.1.stakes k) + unclaimedOf (w.1.stakes k) + runSum (Call.stakedIn k) calls w +
          runSum (Call.excessOf k) calls w := by
  induction calls with
  | nil => intro w _; simp [runSum, run]
  | cons c calls ih =>
    rintro ⟨t, db⟩ h
    have hstep := h.ledger_apply k c
    have hrun := ih (h.apply c)
    simp only [runSum, run, List.foldl_cons] at hrun ⊢
    linarith

theorem Call.excessOf_nonneg (k : StakeKey) (c : Call) (w : Transmuter × StateDB) :
    0 ≤ c.excessOf k w := by
  unfold Call.excessOf
  split
  · exact le_rfl
  · split_ifs
    · exact excess_nonneg _ _
    · exact le_rfl

theorem runSum_excessOf_nonneg (k : StakeKey) (calls : List Call) :
    ∀ w, 0 ≤ runSum (Call.excessOf k) calls w := by
  induction calls with
  | nil => exact fun _ => le_rfl
  | cons c calls ih => exact fun w => add_nonneg (Call.excessOf_nonneg k c w) (ih _)

/-! ## Runs from `NewTransmuter` -/

/-- **The ledger of a stake.** Over every run from `NewTransmuter` over a StateDB without stake
words, for every owner and token: what the owner put in with `Stake`, with the excess the
reconciliations credited, is the stake's staked and unclaimed amounts with what `Claim` paid and
`Unstake` returned; the excess is never negative. -/
theorem stakedIn_add_excess_eq (db : StateDB) (hdb : db.NoStakeWords) (calls : List Call)
    (owner x : Address) :
    runSum (Call.stakedIn (x, owner)) calls (newTransmuter, db) +
        runSum (Call.excessOf (x, owner)) calls (newTransmuter, db) =
      stakedOf ((run calls (newTransmuter, db)).1.stakes (x, owner)) +
        unclaimedOf ((run calls (newTransmuter, db)).1.stakes (x, owner)) +
        runSum (Call.paid (x, owner)) calls (newTransmuter, db) +
        runSum (Call.unstaked (x, owner)) calls (newTransmuter, db) ∧
    0 ≤ runSum (Call.excessOf (x, owner)) calls (newTransmuter, db) := by
  have h := ledger_run (x, owner) calls (w := (newTransmuter, db)) (Inv.init db hdb)
  have h0 : (newTransmuter, db).1.stakes (x, owner) = none := rfl
  rw [h0, stakedOf_none, unclaimedOf_none] at h
  exact ⟨by linarith, runSum_excessOf_nonneg _ calls _⟩

theorem stakedIn_add_excess_eq_of_deposit_past_stake :
    let calls : List Call := [.initializeTransmuter (.ofNat 20 1),
      .stake (.ofNat 20 2) (.ofNat 20 1) 100, .deposit (.ofNat 20 1) 300,
      .claim (.ofNat 20 2) (.ofNat 20 1)]
    emptyStateDB.NoStakeWords ∧
      (runSum (Call.stakedIn (.ofNat 20 1, .ofNat 20 2)) calls (newTransmuter, emptyStateDB) +
          runSum (Call.excessOf (.ofNat 20 1, .ofNat 20 2)) calls (newTransmuter, emptyStateDB) =
        stakedOf ((run calls (newTransmuter, emptyStateDB)).1.stakes (.ofNat 20 1, .ofNat 20 2)) +
          unclaimedOf ((run calls (newTransmuter, emptyStateDB)).1.stakes
            (.ofNat 20 1, .ofNat 20 2)) +
          runSum (Call.paid (.ofNat 20 1, .ofNat 20 2)) calls (newTransmuter, emptyStateDB) +
          runSum (Call.unstaked (.ofNat 20 1, .ofNat 20 2)) calls (newTransmuter, emptyStateDB) ∧
      0 ≤ runSum (Call.excessOf (.ofNat 20 1, .ofNat 20 2)) calls (newTransmuter, emptyStateDB)) :=
  ⟨fun _ => rfl, stakedIn_add_excess_eq emptyStateDB (fun _ => rfl) _ _ _⟩

/-- **A stake is paid more than was put in.** Stake 100 and deposit 300 with no other staker:
the claim credits the whole accrual of 300, converts the 100 staked, pays 300 and leaves the
stake empty. -/
theorem stakedIn_ne_of_deposit_past_stake :
    let calls : List Call := [.initializeTransmuter (.ofNat 20 1),
      .stake (.ofNat 20 2) (.ofNat 20 1) 100, .deposit (.ofNat 20 1) 300,
      .claim (.ofNat 20 2) (.ofNat 20 1)]
    let w := run calls (newTransmuter, emptyStateDB)
    let k : StakeKey := (.ofNat 20 1, .ofNat 20 2)
    runSum (Call.stakedIn k) calls (newTransmuter, emptyStateDB) = 100 ∧
      stakedOf (w.1.stakes k) = 0 ∧ unclaimedOf (w.1.stakes k) = 0 ∧
      runSum (Call.paid k) calls (newTransmuter, emptyStateDB) = 300 ∧
      runSum (Call.unstaked k) calls (newTransmuter, emptyStateDB) = 0 ∧
      runSum (Call.stakedIn k) calls (newTransmuter, emptyStateDB) ≠
        stakedOf (w.1.stakes k) + unclaimedOf (w.1.stakes k) +
          runSum (Call.paid k) calls (newTransmuter, emptyStateDB) +
          runSum (Call.unstaked k) calls (newTransmuter, emptyStateDB) := by
  decide

end Precompiles.Dex
