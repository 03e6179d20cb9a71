import Precompiles.Dex.Transmuter.Steps

/-!
# The balances the Transmuter moves

`transferSynthetic` and `transferUnderlying` have one body: `uint256.FromBig` of the amount, whose
overflow flag is dropped, then the StateDB's `SubBalance` on the sender and `AddBalance` on the
receiver. Balances are `*uint256.Int`, which both calls wrap modulo `2 ^ 256` in `MockStateDB`,
the StateDB of the package's tests; here a balance is a `BitVec 256` and `FromBig` is
`BitVec.ofInt 256`. The Transmuter's own account, `transmuterAddr`, is declared outside src/ and
is a parameter.

A ledger run (`runLedger`) applies each call's transfers to the balances; on the Transmuter and
its StateDB it is the run of `Steps` (`runLedger_fst`), so every invariant proved there holds of
it.

* `sum_runLedger`: no run creates or destroys balance. Over any set of accounts holding the
  Transmuter's and every caller's, the sum of the balances is what it was.
* `transmuter_balance_runLedger`: the Transmuter's balance moves with what it holds for its
  tokens, their staked totals and exchange buffers, except by what `Deposit` credits to a buffer,
  which comes with no transfer (`credited`).
* `unstake_of_neg_moves_in`: `Unstake` clamps its amount from above only; a negative amount
  raises the staked total and moves the opposite amount from the owner into the Transmuter.
-/

namespace Precompiles.Dex

/-- The host's balances, a `*uint256.Int` per account; an account never written holds zero. -/
abbrev Balances := Address → BitVec 256

/-- What the Transmuter holds for a token: its staked total and its exchange buffer. -/
def holdings (t : Transmuter) (x : Address) : ℤ :=
  match t.states x with
  | none => 0
  | some st => st.totalStaked + st.exchangeBuffer

/-- What a list of transfers moves into an account: what it receives less what it sends. -/
def Account.inflow (a : Account) (trs : List Transfer) : ℤ :=
  (trs.map fun tr => (if tr.dst = a then tr.amount else 0) - if tr.src = a then tr.amount else 0).sum

/-- A transfer between the Transmuter and `owner`, either way. -/
def Transfer.Between (owner : Address) (tr : Transfer) : Prop :=
  tr.src = .user owner ∧ tr.dst = .transmuter ∨ tr.src = .transmuter ∧ tr.dst = .user owner

@[simp] theorem Account.inflow_nil (a : Account) : a.inflow [] = 0 := rfl

@[simp] theorem Account.inflow_cons (a : Account) (tr : Transfer) (trs : List Transfer) :
    a.inflow (tr :: trs) =
      (if tr.dst = a then tr.amount else 0) - (if tr.src = a then tr.amount else 0) + a.inflow trs := by
  simp [Account.inflow]

/-! ## Calls -/

/-- The synthetic token a call is about. -/
def Call.token : Call → Address
  | .initializeTransmuter x | .stake _ x _ | .unstake _ x _ | .claim _ x | .deposit x _ => x

/-- The account a call moves balance to or from, besides the Transmuter's. -/
def Call.owner : Call → Option Address
  | .stake owner _ _ | .unstake owner _ _ | .claim owner _ => some owner
  | _ => none

/-- The transfers a call makes. -/
def Call.transfers : Call → Transmuter × StateDB → List Transfer
  | .initializeTransmuter x, (t, db) => (t.initializeTransmuter db x).transfers
  | .stake owner x a, (t, db) => (t.stake db owner x a).transfers
  | .unstake owner x a, (t, db) => (t.unstake db owner x a).transfers
  | .claim owner x, (t, db) => (t.claim db owner x).transfers
  | .deposit x a, (t, db) => (t.deposit db x a).transfers

/-- What a call credits to an exchange buffer with no transfer in: `Deposit`'s amount, when its
token is registered and the amount positive. -/
def Call.credit : Call → Transmuter → ℤ
  | .deposit x a, t => if (t.states x).isSome ∧ 0 < a then a else 0
  | _, _ => 0

/-- What the deposits of a run credit to buffers with no transfer in. -/
def credited : List Call → Transmuter × StateDB → ℤ
  | [], _ => 0
  | c :: calls, w => c.credit w.1 + credited calls (c.apply w)

theorem getStake_states (t : Transmuter) (db : StateDB) (k : StakeKey) :
    (t.getStake db k).2.states = t.states := by
  unfold Transmuter.getStake
  split
  · rfl
  · split_ifs <;> rfl

theorem getStake_eq_pair (t : Transmuter) (db : StateDB) (k : StakeKey) :
    ∃ found t', t.getStake db k = (found, t') ∧ t'.states = t.states :=
  ⟨_, _, rfl, getStake_states t db k⟩

theorem holdings_of_states_eq {t t' : Transmuter} {x : Address} (h : t'.states x = t.states x) :
    holdings t' x = holdings t x := by
  simp only [holdings, h]

/-- A call changes only the state of its own token. -/
theorem Call.states_apply_of_ne (c : Call) (w : Transmuter × StateDB) {y : Address}
    (hy : y ≠ c.token) : (c.apply w).1.states y = w.1.states y := by
  obtain ⟨t, db⟩ := w
  cases c with
  | initializeTransmuter x =>
    replace hy : y ≠ x := hy
    simp only [Call.apply, Transmuter.initializeTransmuter]
    split <;> simp [Function.update_noteq hy]
  | deposit x a =>
    replace hy : y ≠ x := hy
    simp only [Call.apply, Transmuter.deposit]
    split
    · rfl
    · split_ifs <;> simp [Function.update_noteq hy]
  | stake owner x a =>
    replace hy : y ≠ x := hy
    simp only [Call.apply, Transmuter.stake]
    split
    · rfl
    · split_ifs
      · rfl
      · simp [Transmuter.saveStake, Function.update_noteq hy, getStake_states]
  | unstake owner x a | claim owner x =>
    replace hy : y ≠ x := hy
    have hs := congrFun (getStake_states t db (stakeKey x owner)) y
    simp only [Call.apply, Transmuter.unstake, Transmuter.claim]
    split
    · rfl
    · split <;> rename_i h <;> rw [h] at hs
      · exact hs
      · split_ifs <;> simpa [Transmuter.saveStake, Function.update_noteq hy] using hs

/-- Every transfer of a call is between the Transmuter and the call's owner. -/
theorem Call.between_of_mem_transfers (c : Call) (w : Transmuter × StateDB) {tr : Transfer}
    (h : tr ∈ c.transfers w) : ∃ owner ∈ c.owner, tr.Between owner := by
  obtain ⟨t, db⟩ := w
  cases c <;>
    simp only [Call.transfers, Transmuter.initializeTransmuter, Transmuter.deposit,
      Transmuter.stake, Transmuter.unstake, Transmuter.claim] at h <;>
    (repeat' split at h) <;>
    simp_all [Call.owner, Transfer.Between]

/-- **What one call moves into the Transmuter.** The amount a call's transfers move into the
Transmuter's account, with what it credits without a transfer, is what the Transmuter holds for
the call's token after it less what it held before. -/
theorem Call.inflow_transfers (c : Call) (w : Transmuter × StateDB) :
    Account.transmuter.inflow (c.transfers w) + c.credit w.1 =
      holdings (c.apply w).1 c.token - holdings w.1 c.token := by
  obtain ⟨t, db⟩ := w
  cases c with
  | initializeTransmuter x =>
    simp only [Call.transfers, Call.apply, Call.credit, Call.token, Transmuter.initializeTransmuter]
    cases hx : t.states x <;> simp [holdings, hx]
  | deposit x a =>
    simp only [Call.transfers, Call.apply, Call.credit, Call.token, Transmuter.deposit]
    cases hx : t.states x with
    | none => simp [hx]
    | some st =>
      by_cases ha : a ≤ 0
      · simp [ha, not_lt.2 ha]
      · simp only [ha, if_false, hx, Option.isSome_some, true_and, lt_of_not_le ha, if_true]
        split_ifs <;> simp [holdings, hx]
  | stake owner x a =>
    simp only [Call.transfers, Call.apply, Call.credit, Call.token, Transmuter.stake]
    cases hx : t.states x with
    | none => simp
    | some st =>
      split_ifs
      · simp
      · obtain ⟨found, t', hg, -⟩ := getStake_eq_pair t db (stakeKey x owner)
        simp [hg, holdings, hx]
  | unstake owner x _ | claim owner x =>
    simp only [Call.transfers, Call.apply, Call.credit, Call.token, Transmuter.unstake,
      Transmuter.claim]
    cases hx : t.states x with
    | none => simp
    | some st =>
      obtain ⟨found, t', hg, hs⟩ := getStake_eq_pair t db (stakeKey x owner)
      simp only [hg]
      cases found with
      | none => simp [holdings, hs]
      | some s =>
        dsimp only
        split_ifs <;> simp [holdings, hx, hs]

/-! ## Balances -/

section Ledger

variable (transmuterAddr : Address)

/-- The address of an account. -/
def Account.addr : Account → Address
  | .transmuter => transmuterAddr
  | .user a => a

/-- `transferSynthetic`, and `transferUnderlying`, which has the same body: `FromBig` of the
amount, `SubBalance` of the sender, then `AddBalance` of the receiver. -/
def Transfer.apply (bal : Balances) (tr : Transfer) : Balances :=
  let amountU256 := BitVec.ofInt 256 tr.amount
  let src := tr.src.addr transmuterAddr
  let dst := tr.dst.addr transmuterAddr
  let bal := Function.update bal src (bal src - amountU256)
  Function.update bal dst (bal dst + amountU256)

/-- A call on the Transmuter, its StateDB and the host's balances. -/
def Call.applyLedger (c : Call) (w : (Transmuter × StateDB) × Balances) :
    (Transmuter × StateDB) × Balances :=
  (c.apply w.1, (c.transfers w.1).foldl (Transfer.apply transmuterAddr) w.2)

/-- A run of calls on the Transmuter, its StateDB and the host's balances. -/
def runLedger (calls : List Call) (w : (Transmuter × StateDB) × Balances) :
    (Transmuter × StateDB) × Balances :=
  calls.foldl (fun w c => c.applyLedger transmuterAddr w) w

@[simp] theorem Call.applyLedger_fst (c : Call) (w : (Transmuter × StateDB) × Balances) :
    (c.applyLedger transmuterAddr w).1 = c.apply w.1 := rfl

/-- On the Transmuter and its StateDB, a ledger run is a run. -/
theorem runLedger_fst (calls : List Call) (w : (Transmuter × StateDB) × Balances) :
    (runLedger transmuterAddr calls w).1 = run calls w.1 := by
  induction calls generalizing w with
  | nil => rfl
  | cons c calls ih => exact ih _

/-- Taking `v` from `f` at `s` and then giving it at `d` subtracts and adds two point masses. -/
theorem update_sub_update_add {α : Type} [DecidableEq α] (f : α → BitVec 256) (s d : α)
    (v : BitVec 256) :
    Function.update (Function.update f s (f s - v)) d (Function.update f s (f s - v) d + v) =
      f - Pi.single s v + Pi.single d v := by
  funext a
  by_cases hd : a = d <;> by_cases hs : a = s
  · subst hd hs; simp
  · subst hd; simp [Ne.symm hs, hs]
  · subst hs; simp [hd]
  · simp [hd, hs]

/-- A transfer takes its amount, modulo `2 ^ 256`, from the sender and gives it to the receiver. -/
theorem Transfer.apply_eq (tr : Transfer) (bal : Balances) :
    tr.apply transmuterAddr bal = bal - Pi.single (tr.src.addr transmuterAddr) (tr.amount : BitVec 256) +
      Pi.single (tr.dst.addr transmuterAddr) (tr.amount : BitVec 256) :=
  update_sub_update_add bal _ _ _

/-- A transfer between two accounts of a set keeps the sum of their balances. -/
theorem Transfer.sum_apply {S : Finset Address} (tr : Transfer)
    (hs : tr.src.addr transmuterAddr ∈ S) (hd : tr.dst.addr transmuterAddr ∈ S) (bal : Balances) :
    ∑ a ∈ S, tr.apply transmuterAddr bal a = ∑ a ∈ S, bal a := by
  simp only [Transfer.apply_eq, Pi.add_apply, Pi.sub_apply, Finset.sum_add_distrib,
    Finset.sum_sub_distrib, Finset.sum_pi_single', hs, hd, if_true, sub_add_cancel]

/-- An account other than a user account at the Transmuter's address is at that address exactly
when it is the Transmuter's. -/
theorem Account.addr_eq_iff {e : Account} (he : e ≠ .user transmuterAddr) :
    transmuterAddr = e.addr transmuterAddr ↔ e = .transmuter := by
  cases e with
  | transmuter => simp [Account.addr]
  | user a =>
    simp only [Account.addr, reduceCtorEq, iff_false]
    rintro rfl
    exact he rfl

/-- A transfer that reaches the Transmuter's address only as its account moves into the
Transmuter's balance what it moves into that account. -/
theorem Transfer.apply_transmuter (tr : Transfer) (hs : tr.src ≠ .user transmuterAddr)
    (hd : tr.dst ≠ .user transmuterAddr) (bal : Balances) :
    tr.apply transmuterAddr bal transmuterAddr =
      bal transmuterAddr + (Account.transmuter.inflow [tr] : BitVec 256) := by
  simp only [Transfer.apply_eq, Pi.add_apply, Pi.sub_apply, Pi.single_apply,
    Account.addr_eq_iff transmuterAddr hs, Account.addr_eq_iff transmuterAddr hd,
    Account.inflow_cons, Account.inflow_nil, add_zero]
  split_ifs <;> push_cast <;> ring

theorem foldl_apply_transmuter (trs : List Transfer)
    (h : ∀ tr ∈ trs, tr.src ≠ .user transmuterAddr ∧ tr.dst ≠ .user transmuterAddr)
    (bal : Balances) :
    trs.foldl (Transfer.apply transmuterAddr) bal transmuterAddr =
      bal transmuterAddr + (Account.transmuter.inflow trs : BitVec 256) := by
  induction trs generalizing bal with
  | nil => simp
  | cons tr trs ih =>
    have htr := h tr (.head trs)
    rw [List.foldl_cons, ih (fun tr' h' => h tr' (.tail tr h')),
      Transfer.apply_transmuter _ tr htr.1 htr.2]
    simp only [Account.inflow_cons, Account.inflow_nil, add_zero]
    push_cast
    ring

theorem sum_foldl_apply {S : Finset Address} (trs : List Transfer)
    (h : ∀ tr ∈ trs, tr.src.addr transmuterAddr ∈ S ∧ tr.dst.addr transmuterAddr ∈ S)
    (bal : Balances) :
    ∑ a ∈ S, trs.foldl (Transfer.apply transmuterAddr) bal a = ∑ a ∈ S, bal a := by
  induction trs generalizing bal with
  | nil => rfl
  | cons tr trs ih =>
    have htr := h tr (.head trs)
    rw [List.foldl_cons, ih (fun tr' h' => h tr' (.tail tr h')),
      Transfer.sum_apply _ tr htr.1 htr.2]

/-- The stakes and buffers of a set of tokens after a call of one of them: the call's change of
its own token's holdings is the change of the sum. -/
theorem sum_holdings_apply (c : Call) (w : Transmuter × StateDB) {X : Finset Address}
    (hX : c.token ∈ X) :
    ∑ x ∈ X, holdings (c.apply w).1 x =
      ∑ x ∈ X, holdings w.1 x + (holdings (c.apply w).1 c.token - holdings w.1 c.token) := by
  rw [← Finset.add_sum_erase X _ hX, ← Finset.add_sum_erase X (holdings w.1) hX,
    Finset.sum_congr rfl fun y hy =>
      holdings_of_states_eq (c.states_apply_of_ne w (Finset.ne_of_mem_erase hy))]
  ring

/-- One call moves the Transmuter's balance with its holdings, less what it credits. -/
theorem Call.applyLedger_transmuter (c : Call) {X : Finset Address} (hX : c.token ∈ X)
    (hT : ∀ a ∈ c.owner, a ≠ transmuterAddr) (w : (Transmuter × StateDB) × Balances) :
    (c.applyLedger transmuterAddr w).2 transmuterAddr -
        ((∑ x ∈ X, holdings (c.applyLedger transmuterAddr w).1.1 x : ℤ) : BitVec 256) =
      w.2 transmuterAddr - ((∑ x ∈ X, holdings w.1.1 x : ℤ) : BitVec 256) -
        (c.credit w.1.1 : BitVec 256) := by
  have hends : ∀ tr ∈ c.transfers w.1,
      tr.src ≠ .user transmuterAddr ∧ tr.dst ≠ .user transmuterAddr := fun tr htr => by
    obtain ⟨owner, ho, hb⟩ := c.between_of_mem_transfers w.1 htr
    have hne := hT owner ho
    rcases hb with ⟨h₁, h₂⟩ | ⟨h₁, h₂⟩ <;> simp [h₁, h₂, hne]
  have hsum : ∑ x ∈ X, holdings (c.apply w.1).1 x =
      ∑ x ∈ X, holdings w.1.1 x + Account.transmuter.inflow (c.transfers w.1) + c.credit w.1.1 := by
    rw [sum_holdings_apply c w.1 hX, ← c.inflow_transfers w.1]
    ring
  simp only [Call.applyLedger, foldl_apply_transmuter transmuterAddr _ hends, hsum]
  push_cast
  ring

/-- **No run creates or destroys balance.** For every run, from any Transmuter, StateDB and
balances, and every set of accounts that holds the Transmuter's and every caller's, the sum of
their balances after the run is the sum before. -/
theorem sum_runLedger (S : Finset Address) (hT : transmuterAddr ∈ S) (calls : List Call)
    (hS : ∀ c ∈ calls, ∀ a ∈ c.owner, a ∈ S) (w : (Transmuter × StateDB) × Balances) :
    ∑ a ∈ S, (runLedger transmuterAddr calls w).2 a = ∑ a ∈ S, w.2 a := by
  induction calls generalizing w with
  | nil => rfl
  | cons c calls ih =>
    refine (ih (fun c' h' => hS c' (.tail c h')) _).trans (sum_foldl_apply _ _ (fun tr htr => ?_) _)
    obtain ⟨owner, ho, hb⟩ := c.between_of_mem_transfers w.1 htr
    have hmem := hS c (.head calls) owner ho
    rcases hb with ⟨h₁, h₂⟩ | ⟨h₁, h₂⟩ <;> simp [h₁, h₂, Account.addr, hT, hmem]

theorem sum_runLedger_of_stake_claim :
    let calls : List Call := [.initializeTransmuter (.ofNat 20 1),
      .stake (.ofNat 20 2) (.ofNat 20 1) 100, .deposit (.ofNat 20 1) 50,
      .claim (.ofNat 20 2) (.ofNat 20 1)]
    let w : (Transmuter × StateDB) × Balances := ((newTransmuter, emptyStateDB), fun _ => 0)
    (.ofNat 20 9 : Address) ∈ ({.ofNat 20 9, .ofNat 20 2} : Finset Address) ∧
      (∀ c ∈ calls, ∀ a ∈ c.owner, a ∈ ({.ofNat 20 9, .ofNat 20 2} : Finset Address)) ∧
      ∑ a ∈ ({.ofNat 20 9, .ofNat 20 2} : Finset Address), (runLedger (.ofNat 20 9) calls w).2 a =
        ∑ a ∈ ({.ofNat 20 9, .ofNat 20 2} : Finset Address), w.2 a :=
  ⟨by decide, by decide, sum_runLedger _ _ (by decide) _ (by decide) _⟩

/-- **The Transmuter's balance backs what it holds.** For every run, from any Transmuter, StateDB
and balances, in which no caller is the Transmuter itself: the Transmuter's balance less the
staked totals and exchange buffers of a set of tokens that holds every call's, is what it was
less what the run's deposits credited without a transfer, modulo `2 ^ 256`. -/
theorem transmuter_balance_runLedger (X : Finset Address) (calls : List Call)
    (hX : ∀ c ∈ calls, c.token ∈ X) (hT : ∀ c ∈ calls, ∀ a ∈ c.owner, a ≠ transmuterAddr)
    (w : (Transmuter × StateDB) × Balances) :
    (runLedger transmuterAddr calls w).2 transmuterAddr -
        ((∑ x ∈ X, holdings (runLedger transmuterAddr calls w).1.1 x : ℤ) : BitVec 256) =
      w.2 transmuterAddr - ((∑ x ∈ X, holdings w.1.1 x : ℤ) : BitVec 256) -
        (credited calls w.1 : BitVec 256) := by
  induction calls generalizing w with
  | nil => simp [runLedger, credited]
  | cons c calls ih =>
    rw [show runLedger transmuterAddr (c :: calls) w =
        runLedger transmuterAddr calls (c.applyLedger transmuterAddr w) from rfl,
      ih (fun c' h' => hX c' (.tail c h')) (fun c' h' => hT c' (.tail c h')),
      c.applyLedger_transmuter transmuterAddr (hX c (.head calls)) (hT c (.head calls)), credited,
      Call.applyLedger_fst]
    push_cast
    ring

theorem transmuter_balance_of_stake_claim :
    let calls : List Call := [.initializeTransmuter (.ofNat 20 1),
      .stake (.ofNat 20 2) (.ofNat 20 1) 100, .deposit (.ofNat 20 1) 50,
      .claim (.ofNat 20 2) (.ofNat 20 1)]
    let w : (Transmuter × StateDB) × Balances := ((newTransmuter, emptyStateDB), fun _ => 0)
    (∀ c ∈ calls, c.token ∈ ({.ofNat 20 1} : Finset Address)) ∧
      (∀ c ∈ calls, ∀ a ∈ c.owner, a ≠ .ofNat 20 9) ∧
      (runLedger (.ofNat 20 9) calls w).2 (.ofNat 20 9) -
          ((∑ x ∈ ({.ofNat 20 1} : Finset Address),
            holdings (runLedger (.ofNat 20 9) calls w).1.1 x : ℤ) : BitVec 256) =
        w.2 (.ofNat 20 9) - ((∑ x ∈ ({.ofNat 20 1} : Finset Address), holdings w.1.1 x : ℤ) :
          BitVec 256) - (credited calls w.1 : BitVec 256) :=
  ⟨by decide, by decide, transmuter_balance_runLedger _ _ _ (by decide) (by decide) _⟩

/-- After staking 100, a deposit of 50 and the claim of it, the Transmuter holds 50 and owes its
staked total of 100: the deposit was credited without a transfer. -/
example : let w := runLedger (.ofNat 20 9) [.initializeTransmuter (.ofNat 20 1),
      .stake (.ofNat 20 2) (.ofNat 20 1) 100, .deposit (.ofNat 20 1) 50,
      .claim (.ofNat 20 2) (.ofNat 20 1)] ((newTransmuter, emptyStateDB), fun _ => 0)
    w.2 (.ofNat 20 9) = 50 ∧ holdings w.1.1 (.ofNat 20 1) = 100 := by
  decide

end Ledger

/-! ## Negative amounts -/

/-- **`Unstake` of a negative amount takes it in.** In every reachable state, for every owner
with a stake of a registered token whose staked amount is not zero, and every negative amount,
`Unstake` succeeds, raises the token's staked total by the opposite of the amount, and moves that
much from the owner into the Transmuter: it bounds the amount from above only. -/
theorem unstake_of_neg_moves_in {t : Transmuter} {db : StateDB} {owner x : Address}
    {st : TransmuterState} {s : TransmuterStake} {amount : ℤ} (hw : Reachable (t, db))
    (hx : t.states x = some st) (hk : t.stakes (x, owner) = some s) (h0 : s.stakedAmount ≠ 0)
    (ha : amount < 0) :
    (t.unstake db owner x amount).result = .ok () ∧
      (t.unstake db owner x amount).transmuter.states x =
        some { st with totalStaked := st.totalStaked - amount } ∧
      Account.transmuter.inflow (t.unstake db owner x amount).transfers = -amount := by
  have h := hw.inv
  have hs := (wf_updateStakeUnclaimed ((h.token x st hx).wf owner s hk)).staked_nonneg
  have hclamp : ¬ amount > (Transmuter.updateStakeUnclaimed s st).stakedAmount := by omega
  simp only [Transmuter.unstake, hx, h.getStake, stakeKey, hk, h0, hclamp, if_false]
  exact ⟨trivial, by simp, by simp⟩

theorem unstake_of_neg_after_stake :
    let w := run [.initializeTransmuter (.ofNat 20 1), .stake (.ofNat 20 2) (.ofNat 20 1) 100]
      (newTransmuter, emptyStateDB)
    Reachable (w.1, w.2) ∧ w.1.states (.ofNat 20 1) = some (⟨0, 100, Q96⟩ : TransmuterState) ∧
      w.1.stakes (.ofNat 20 1, .ofNat 20 2) = some (⟨100, 0, Q96⟩ : TransmuterStake) ∧ (100 : ℤ) ≠ 0 ∧ (-50 : ℤ) < 0 ∧
      (w.1.unstake w.2 (.ofNat 20 2) (.ofNat 20 1) (-50)).result = .ok () ∧
      (w.1.unstake w.2 (.ofNat 20 2) (.ofNat 20 1) (-50)).transmuter.states (.ofNat 20 1) =
        some { (⟨0, 100, Q96⟩ : TransmuterState) with totalStaked := 100 - -50 } ∧
      Account.transmuter.inflow (w.1.unstake w.2 (.ofNat 20 2) (.ofNat 20 1) (-50)).transfers =
        - -50 := by
  intro w
  have hk : w.1.stakes (.ofNat 20 1, .ofNat 20 2) = some (⟨100, 0, Q96⟩ : TransmuterStake) := by
    decide
  exact ⟨reachable_run_empty _, by decide, hk, by decide, by decide,
    unstake_of_neg_moves_in (reachable_run_empty _) (by decide) hk (by decide) (by decide)⟩

end Precompiles.Dex
