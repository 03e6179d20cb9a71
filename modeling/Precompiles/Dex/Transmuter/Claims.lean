import Precompiles.Dex.Transmuter.Steps

/-!
# What a claim pays

In every reachable state the buffer of a token covers what its stakes are owed, as an exact
rational, over every finite set of owners (`exchangeBuffer_covers_stakes`). So `Claim` pays
the whole reconciled unclaimed amount and its cap at the buffer never binds
(`Inv.claim_result`), and `GetClaimable` returns what `Claim` would pay
(`getClaimable_eq_claim`).

A reconciliation credits a stake with its whole accrual but converts at most its staked amount
(`unclaimed_add_staked_updateStakeUnclaimed`); what this means for the ledger of a stake is in
`Precompiles.Dex.Transmuter.Conservation`.
-/

namespace Precompiles.Dex

open Transmuter

variable {t : Transmuter} {db : StateDB} {st : TransmuterState} {s : TransmuterStake}
  {stakes : Address → Option TransmuterStake} {x o : Address}

/-- The exact rational liability of a cache entry, `unclaimed + staked * (rate - index) / 2 ^ 96`. -/
def exactLiability (rate : ℤ) : Option TransmuterStake → ℚ
  | none => 0
  | some s => s.unclaimedAmount + s.stakedAmount * (rate - s.lastUpdateIndex) / 2 ^ 96

theorem exactLiability_eq (rate : ℤ) (e : Option TransmuterStake) :
    exactLiability rate e = weightOf rate e / 2 ^ 96 := by
  cases e with
  | none => simp [exactLiability]
  | some s =>
    simp only [exactLiability, weightOf_some, TransmuterStake.weight, Q96_eq]
    push_cast
    ring

theorem TokenInv.exactLiability_le (h : TokenInv st stakes) (O : Finset Address) :
    ∑ o ∈ O, exactLiability st.exchangeRate (stakes o) ≤ st.exchangeBuffer := by
  have hw : ((∑ o ∈ O, weightOf st.exchangeRate (stakes o) : ℤ) : ℚ) ≤
      2 ^ 96 * (st.exchangeBuffer : ℚ) := by
    have := h.weight_le O
    rw [Q96_eq] at this
    exact_mod_cast this
  simp only [exactLiability_eq, ← Finset.sum_div]
  rw [div_le_iff₀ (by positivity)]
  push_cast at hw
  linarith

/-- A stake's reconciled unclaimed amount is covered by the buffer. -/
theorem TokenInv.unclaimed_le_buffer (h : TokenInv st stakes) (hk : stakes o = some s) :
    (updateStakeUnclaimed s st).unclaimedAmount ≤ st.exchangeBuffer := by
  have hwf := h.wf o s hk
  have hle := (weight_updateStakeUnclaimed_le hwf).trans (h.weight_le_of_eq hk)
  rw [weight_updateStakeUnclaimed hwf] at hle
  exact le_of_mul_le_mul_left hle Q96_pos

/-- Under the invariant, `Claim` pays the whole reconciled unclaimed amount. -/
theorem Inv.claim_result (h : Inv t db) (hx : t.states x = some st)
    (hk : t.stakes (x, o) = some s) :
    (t.claim db o x).result = .ok (updateStakeUnclaimed s st).unclaimedAmount := by
  have hle := (h.token x st hx).unclaimed_le_buffer (o := o) hk
  simp only [Transmuter.claim, hx, h.getStake, stakeKey, hk]
  split_ifs with hu hgt
  · rw [hu]
  · exact absurd hgt (not_lt.2 hle)
  · rfl

theorem Inv.getClaimable_fst (h : Inv t db) (hx : t.states x = some st)
    (hk : t.stakes (x, o) = some s) :
    (t.getClaimable db o x).1 = (updateStakeUnclaimed s st).unclaimedAmount := by
  have htok := h.token x st hx
  have hle := htok.unclaimed_le_buffer (o := o) hk
  rw [unclaimedAmount_updateStakeUnclaimed (htok.wf o s hk)] at hle ⊢
  simp only [Transmuter.getClaimable, hx, h.getStake, stakeKey, hk]
  rw [if_neg (not_lt.2 hle)]

theorem Inv.getClaimable_of_none (h : Inv t db) (hk : t.stakes (x, o) = none) :
    (t.getClaimable db o x).1 = 0 := by
  cases hx : t.states x <;> simp [Transmuter.getClaimable, hx, h.getStake, stakeKey, hk]

/-- What every owner can claim, together, is covered by the buffer. -/
theorem Inv.sum_getClaimable_le (h : Inv t db) (hx : t.states x = some st)
    (O : Finset Address) : ∑ o ∈ O, (t.getClaimable db o x).1 ≤ st.exchangeBuffer := by
  have htok := h.token x st hx
  have hterm : ∀ o ∈ O,
      Q96 * (t.getClaimable db o x).1 ≤ weightOf st.exchangeRate (t.stakes (x, o)) := by
    intro o _
    cases hk : t.stakes (x, o) with
    | none => simp [h.getClaimable_of_none hk]
    | some s =>
      have hwf := htok.wf o s hk
      rw [h.getClaimable_fst hx hk, weightOf_some, ← weight_updateStakeUnclaimed hwf]
      exact weight_updateStakeUnclaimed_le hwf
  have := (Finset.sum_le_sum hterm).trans (htok.weight_le O)
  rw [← Finset.mul_sum] at this
  exact le_of_mul_le_mul_left this Q96_pos

/-- **The buffer covers every stake.** In every reachable state, for every initialized token:
its stakes are finitely many; the buffer, the total staked amount and every stake's amounts are
non-negative and every stake's index is at most the rate; the total staked amount bounds the
staked amounts, and the buffer the exact liabilities, of every finite set of owners. Hence
the buffer covers what all owners can claim together, and `Claim` pays the whole reconciled
unclaimed amount. -/
theorem exchangeBuffer_covers_stakes (hw : Reachable (t, db)) (hx : t.states x = some st) :
    {o | t.stakes (x, o) ≠ none}.Finite ∧
    0 ≤ st.exchangeBuffer ∧ 0 ≤ st.totalStaked ∧
    (∀ o s, t.stakes (x, o) = some s →
      0 ≤ s.stakedAmount ∧ 0 ≤ s.unclaimedAmount ∧ s.lastUpdateIndex ≤ st.exchangeRate) ∧
    (∀ O : Finset Address, ∑ o ∈ O, stakedOf (t.stakes (x, o)) ≤ st.totalStaked) ∧
    (∀ O : Finset Address,
      ∑ o ∈ O, exactLiability st.exchangeRate (t.stakes (x, o)) ≤ st.exchangeBuffer) ∧
    (∀ O : Finset Address, ∑ o ∈ O, (t.getClaimable db o x).1 ≤ st.exchangeBuffer) ∧
    (∀ o s, t.stakes (x, o) = some s →
      (t.claim db o x).result = .ok (updateStakeUnclaimed s st).unclaimedAmount) := by
  have h : Inv t db := hw.inv
  have htok := h.token x st hx
  refine ⟨h.stakers_finite x, htok.buffer_nonneg, htok.total_nonneg, fun o s hk => ?_,
    htok.staked_le, htok.exactLiability_le, h.sum_getClaimable_le hx,
    fun o s hk => h.claim_result hx hk⟩
  have hwf := htok.wf o s hk
  exact ⟨hwf.staked_nonneg, hwf.unclaimed_nonneg, hwf.index_le⟩

theorem exchangeBuffer_covers_stakes_after_deposit :
    let w := run [.initializeTransmuter (.ofNat 20 1), .stake (.ofNat 20 2) (.ofNat 20 1) 100,
      .deposit (.ofNat 20 1) 50] (newTransmuter, emptyStateDB)
    Reachable (w.1, w.2) ∧ w.1.states (.ofNat 20 1) = some ⟨50, 100, Q96 + Q96 / 2⟩ ∧
    ({o | w.1.stakes (.ofNat 20 1, o) ≠ none}.Finite ∧
    0 ≤ (⟨50, 100, Q96 + Q96 / 2⟩ : TransmuterState).exchangeBuffer ∧
    0 ≤ (⟨50, 100, Q96 + Q96 / 2⟩ : TransmuterState).totalStaked ∧
    (∀ o s, w.1.stakes (.ofNat 20 1, o) = some s →
      0 ≤ s.stakedAmount ∧ 0 ≤ s.unclaimedAmount ∧ s.lastUpdateIndex ≤ Q96 + Q96 / 2) ∧
    (∀ O : Finset Address, ∑ o ∈ O, stakedOf (w.1.stakes (.ofNat 20 1, o)) ≤ 100) ∧
    (∀ O : Finset Address,
      ∑ o ∈ O, exactLiability (Q96 + Q96 / 2) (w.1.stakes (.ofNat 20 1, o)) ≤ (50 : ℤ)) ∧
    (∀ O : Finset Address, ∑ o ∈ O, (w.1.getClaimable w.2 o (.ofNat 20 1)).1 ≤ 50) ∧
    (∀ o s, w.1.stakes (.ofNat 20 1, o) = some s →
      (w.1.claim w.2 o (.ofNat 20 1)).result =
        .ok (updateStakeUnclaimed s ⟨50, 100, Q96 + Q96 / 2⟩).unclaimedAmount)) :=
  ⟨reachable_run_empty _, by decide, exchangeBuffer_covers_stakes (reachable_run_empty _) (by decide)⟩

/-- **`GetClaimable` is what `Claim` pays**, in every reachable state, for every owner with a
stake of an initialized token. -/
theorem getClaimable_eq_claim (hw : Reachable (t, db)) (hx : t.states x = some st)
    (hk : t.stakes (x, o) = some s) : (t.claim db o x).result = .ok (t.getClaimable db o x).1 := by
  have h : Inv t db := hw.inv
  rw [h.claim_result hx hk, h.getClaimable_fst hx hk]

theorem getClaimable_eq_claim_after_deposit :
    let w := run [.initializeTransmuter (.ofNat 20 1), .stake (.ofNat 20 2) (.ofNat 20 1) 100,
      .deposit (.ofNat 20 1) 50] (newTransmuter, emptyStateDB)
    Reachable (w.1, w.2) ∧ w.1.states (.ofNat 20 1) = some ⟨50, 100, Q96 + Q96 / 2⟩ ∧
    w.1.stakes (.ofNat 20 1, .ofNat 20 2) = some ⟨100, 0, Q96⟩ ∧
    (w.1.claim w.2 (.ofNat 20 2) (.ofNat 20 1)).result =
      .ok (w.1.getClaimable w.2 (.ofNat 20 2) (.ofNat 20 1)).1 :=
  have hx : (run [.initializeTransmuter (.ofNat 20 1), .stake (.ofNat 20 2) (.ofNat 20 1) 100,
      .deposit (.ofNat 20 1) 50] (newTransmuter, emptyStateDB)).1.states (.ofNat 20 1) =
      some ⟨50, 100, Q96 + Q96 / 2⟩ := by decide
  have hk : (run [.initializeTransmuter (.ofNat 20 1), .stake (.ofNat 20 2) (.ofNat 20 1) 100,
      .deposit (.ofNat 20 1) 50] (newTransmuter, emptyStateDB)).1.stakes
      (.ofNat 20 1, .ofNat 20 2) = some ⟨100, 0, Q96⟩ := by decide
  ⟨reachable_run_empty _, hx, hk, getClaimable_eq_claim (reachable_run_empty _) hx hk⟩

end Precompiles.Dex
