import Precompiles.Dex.Transmuter.Model

/-!
# Reconciling a stake

`updateStakeUnclaimed` moves what a stake accrued since its last update into its unclaimed
amount. The liability of a stake (`TransmuterStake.weight`), in units of `1 / Q96`, is its
unclaimed amount and what its staked amount accrued since the last update; it is the exact
rational `unclaimed + staked * (rate - index) / 2 ^ 96` scaled by `Q96`.

* `weight_updateStakeUnclaimed_le`: reconciling never raises the liability (the accrual is
  rounded down), and afterwards the liability is the unclaimed amount alone
  (`weight_updateStakeUnclaimed`).
* `unclaimedAmount_updateStakeUnclaimed`: the unclaimed amount after reconciling is the pending
  claim `GetClaimable` computes without reconciling.
* `unclaimed_add_staked_updateStakeUnclaimed`: reconciling adds the excess of the accrual over
  the staked amount to `unclaimed + staked`, so it conserves their sum exactly when the
  accrual does not exceed the stake.
-/

namespace Precompiles.Dex

open Transmuter

/-- The liability of a stake in units of `1 / Q96`. -/
def TransmuterStake.weight (rate : ℤ) (s : TransmuterStake) : ℤ :=
  Q96 * s.unclaimedAmount + s.stakedAmount * (rate - s.lastUpdateIndex)

/-- A well-formed stake under the exchange rate `rate`. -/
structure TransmuterStake.Wf (rate : ℤ) (s : TransmuterStake) : Prop where
  staked_nonneg : 0 ≤ s.stakedAmount
  unclaimed_nonneg : 0 ≤ s.unclaimedAmount
  index_le : s.lastUpdateIndex ≤ rate

/-- What the staked amount accrued since the last update, rounded down. -/
def accrual (s : TransmuterStake) (state : TransmuterState) : ℤ :=
  s.stakedAmount * (state.exchangeRate - s.lastUpdateIndex) / Q96

variable {s : TransmuterStake} {st : TransmuterState}

theorem TransmuterStake.Wf.weight_nonneg {rate : ℤ} (h : s.Wf rate) : 0 ≤ s.weight rate :=
  add_nonneg (mul_nonneg Q96_pos.le h.unclaimed_nonneg)
    (mul_nonneg h.staked_nonneg (sub_nonneg.2 h.index_le))

theorem TransmuterStake.weight_of_index_eq {r : ℤ} (h : s.lastUpdateIndex = r) :
    s.weight r = Q96 * s.unclaimedAmount := by
  rw [TransmuterStake.weight, h, sub_self, mul_zero, add_zero]

theorem TransmuterStake.weight_withStaked {r : ℤ} (h : s.lastUpdateIndex = r) (v : ℤ) :
    { s with stakedAmount := v }.weight r = Q96 * s.unclaimedAmount :=
  TransmuterStake.weight_of_index_eq (s := { s with stakedAmount := v }) h

theorem TransmuterStake.weight_withUnclaimed (r u : ℤ) :
    { s with unclaimedAmount := u }.weight r = s.weight r + Q96 * (u - s.unclaimedAmount) := by
  simp only [TransmuterStake.weight]
  ring

theorem TransmuterStake.Wf.mono {r r' : ℤ} (h : s.Wf r) (hr : r ≤ r') : s.Wf r' :=
  ⟨h.staked_nonneg, h.unclaimed_nonneg, h.index_le.trans hr⟩

theorem accrual_nonneg (h : s.Wf st.exchangeRate) : 0 ≤ accrual s st :=
  Int.ediv_nonneg (mul_nonneg h.staked_nonneg (sub_nonneg.2 h.index_le)) Q96_pos.le

theorem Q96_mul_accrual_le (s : TransmuterStake) (st : TransmuterState) :
    Q96 * accrual s st ≤ s.stakedAmount * (st.exchangeRate - s.lastUpdateIndex) :=
  Int.mul_ediv_self_le Q96_pos.ne'

/-- **The two outcomes of a reconciliation.** Either nothing changes, or the accrual is
credited, as much of the staked amount is converted, and the index moves to the rate. -/
theorem updateStakeUnclaimed_cases (s : TransmuterStake) (st : TransmuterState) :
    (updateStakeUnclaimed s st = s ∧
      (s.stakedAmount = 0 ∨ st.exchangeRate - s.lastUpdateIndex ≤ 0)) ∨
    (s.stakedAmount ≠ 0 ∧ 0 < st.exchangeRate - s.lastUpdateIndex ∧
      updateStakeUnclaimed s st =
        { unclaimedAmount := s.unclaimedAmount + accrual s st
          stakedAmount := if accrual s st ≥ s.stakedAmount then 0
            else s.stakedAmount - accrual s st
          lastUpdateIndex := st.exchangeRate }) := by
  by_cases h0 : s.stakedAmount = 0
  · exact .inl ⟨by simp [updateStakeUnclaimed, h0], .inl h0⟩
  by_cases hd : st.exchangeRate - s.lastUpdateIndex ≤ 0
  · exact .inl ⟨by simp [updateStakeUnclaimed, h0, hd], .inr hd⟩
  · exact .inr ⟨h0, not_le.1 hd, by simp only [updateStakeUnclaimed, h0, hd, if_false]; rfl⟩

theorem wf_updateStakeUnclaimed (h : s.Wf st.exchangeRate) :
    (updateStakeUnclaimed s st).Wf st.exchangeRate := by
  have ha := accrual_nonneg h
  rcases updateStakeUnclaimed_cases s st with ⟨he, -⟩ | ⟨-, -, he⟩ <;> rw [he]
  · exact h
  · refine ⟨?_, by simp only; linarith [h.unclaimed_nonneg], le_rfl⟩
    simp only
    split_ifs <;> omega

/-- After a reconciliation of a well-formed stake, its liability is its unclaimed amount. -/
theorem weight_updateStakeUnclaimed (h : s.Wf st.exchangeRate) :
    (updateStakeUnclaimed s st).weight st.exchangeRate =
      Q96 * (updateStakeUnclaimed s st).unclaimedAmount := by
  rcases updateStakeUnclaimed_cases s st with ⟨he, h0 | hd⟩ | ⟨-, -, he⟩ <;>
    rw [he, TransmuterStake.weight]
  · rw [h0, zero_mul, add_zero]
  · rw [show st.exchangeRate - s.lastUpdateIndex = 0 by linarith [h.index_le], mul_zero,
      add_zero]
  · rw [sub_self, mul_zero, add_zero]

theorem weight_updateStakeUnclaimed_le (h : s.Wf st.exchangeRate) :
    (updateStakeUnclaimed s st).weight st.exchangeRate ≤ s.weight st.exchangeRate := by
  rcases updateStakeUnclaimed_cases s st with ⟨he, -⟩ | ⟨-, -, he⟩
  · rw [he]
  · rw [weight_updateStakeUnclaimed h, he, TransmuterStake.weight]
    dsimp only
    linarith [Q96_mul_accrual_le s st]

theorem stakedAmount_updateStakeUnclaimed_le (h : s.Wf st.exchangeRate) :
    (updateStakeUnclaimed s st).stakedAmount ≤ s.stakedAmount := by
  have ha := accrual_nonneg h
  have hs := h.staked_nonneg
  rcases updateStakeUnclaimed_cases s st with ⟨he, -⟩ | ⟨-, -, he⟩ <;> rw [he]
  simp only
  split_ifs <;> omega

/-- Reconciling a stake with a positive staked amount moves its index to the rate. -/
theorem lastUpdateIndex_updateStakeUnclaimed (h : s.Wf st.exchangeRate)
    (h0 : s.stakedAmount ≠ 0) : (updateStakeUnclaimed s st).lastUpdateIndex = st.exchangeRate := by
  rcases updateStakeUnclaimed_cases s st with ⟨he, h0' | hd⟩ | ⟨-, -, he⟩ <;> rw [he]
  · exact absurd h0' h0
  · linarith [h.index_le]

/-- The unclaimed amount after reconciling is the pending claim `GetClaimable` computes. -/
theorem unclaimedAmount_updateStakeUnclaimed (h : s.Wf st.exchangeRate) :
    (updateStakeUnclaimed s st).unclaimedAmount = pendingClaim s st := by
  unfold pendingClaim
  rcases updateStakeUnclaimed_cases s st with ⟨he, h0 | hd⟩ | ⟨h0, hd, he⟩ <;> rw [he]
  · simp [h0]
  · simp [not_lt.2 hd]
  · simp [lt_of_le_of_ne h.staked_nonneg (Ne.symm h0), hd, accrual]

/-- **Reconciliation adds the excess of the accrual over the stake.** -/
theorem unclaimed_add_staked_updateStakeUnclaimed (h : s.Wf st.exchangeRate) :
    (updateStakeUnclaimed s st).unclaimedAmount + (updateStakeUnclaimed s st).stakedAmount =
      s.unclaimedAmount + s.stakedAmount + max 0 (accrual s st - s.stakedAmount) := by
  rcases updateStakeUnclaimed_cases s st with ⟨he, h0 | hd⟩ | ⟨-, -, he⟩ <;> rw [he]
  · have : accrual s st = 0 := by simp [accrual, h0]
    simp [this, h0]
  · have : accrual s st = 0 := by
      rw [accrual, show st.exchangeRate - s.lastUpdateIndex = 0 by linarith [h.index_le],
        mul_zero, Int.zero_ediv]
    simp [this, h.staked_nonneg]
  · simp only
    split_ifs <;> omega

end Precompiles.Dex
