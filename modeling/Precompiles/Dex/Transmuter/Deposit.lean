import Precompiles.Dex.Transmuter.Claims

/-!
# How a deposit is split

`Deposit` raises the exchange rate by `⌊amount * Q96 / totalStaked⌋`, so a reconciled stake's
pending claim grows by its share of the deposit pro rata to the total staked amount, up to the
two roundings (`deposit_pendingClaim_prorata`).

The total staked amount is not the staked amount of the live stakes: a reconciliation converts
staked synthetic without lowering `TotalStaked`, which only `Unstake` lowers. After a
conversion the live stakes share a deposit as if the converted synthetic were still staked,
and the rest of the deposit stays in the buffer with no owner
(`deposit_after_conversion_underpays`).
-/

namespace Precompiles.Dex

open Transmuter

variable {t : Transmuter} {db : StateDB} {st : TransmuterState} {s : TransmuterStake}
  {x o : Address}

/-- **Two roundings lose less than `1 + s / Q96`.** The share `⌊s * ⌊D * Q96 / T⌋ / Q96⌋` of a
stake `s` in a deposit `D` over a total `T` is at most `D * s / T`, and short of it by less
than `1 + s / 2 ^ 96`. -/
theorem prorata_bounds {s D T : ℤ} (hs : 0 ≤ s) (hT : 0 < T) :
    0 ≤ (D * s : ℚ) / T - (s * (D * Q96 / T) / Q96 : ℤ) ∧
      (D * s : ℚ) / T - (s * (D * Q96 / T) / Q96 : ℤ) < 1 + s / 2 ^ 96 := by
  set q := D * Q96 / T
  set a := s * q / Q96
  have hQ := Q96_pos
  have hq1 : q * T ≤ D * Q96 := Int.ediv_mul_le _ hT.ne'
  have hq2 : D * Q96 < (q + 1) * T := Int.lt_ediv_add_one_mul_self _ hT
  have ha1 : a * Q96 ≤ s * q := Int.ediv_mul_le _ hQ.ne'
  have ha2 : s * q < (a + 1) * Q96 := Int.lt_ediv_add_one_mul_self _ hQ
  have hlow : a * T ≤ D * s := by
    have : a * T * Q96 ≤ D * s * Q96 := by nlinarith
    exact le_of_mul_le_mul_right this hQ
  have hup : D * s * Q96 < (a + 1) * T * Q96 + s * T := by nlinarith
  have hTq : (0 : ℚ) < T := by exact_mod_cast hT
  have hQq : (Q96 : ℚ) = 2 ^ 96 := by rw [Q96_eq]; norm_num
  constructor
  · rw [sub_nonneg, le_div_iff₀ hTq]
    exact_mod_cast hlow
  · rw [sub_lt_iff_lt_add, div_lt_iff₀ hTq, ← hQq]
    have hupq : (D * s * Q96 : ℚ) < (a + 1) * T * Q96 + s * T := by exact_mod_cast hup
    have hQpos : (0 : ℚ) < Q96 := by exact_mod_cast hQ
    rw [← sub_pos] at hupq ⊢
    have : ((1 + s / Q96 + a) * T - D * s : ℚ) =
        ((a + 1) * T * Q96 + s * T - D * s * Q96) / Q96 := by
      field_simp
      ring
    rw [this]
    exact div_pos hupq hQpos

/-- The state `Deposit` leaves: the buffer grows by the deposit, and the rate by the deposit's
share per staked unit. -/
theorem deposit_states (hx : t.states x = some st) {amount : ℤ} (ha : 0 < amount)
    (hT : 0 < st.totalStaked) :
    (t.deposit db x amount).transmuter.states x =
      some ⟨st.exchangeBuffer + amount, st.totalStaked,
        st.exchangeRate + amount * Q96 / st.totalStaked⟩ := by
  simp [Transmuter.deposit, hx, not_le.2 ha, hT]

theorem deposit_stakes (t : Transmuter) (db : StateDB) (x : Address) (amount : ℤ) :
    (t.deposit db x amount).transmuter.stakes = t.stakes := by
  unfold Transmuter.deposit
  split
  · rfl
  · split_ifs <;> rfl

/-- The pending claim of a reconciled stake after the rate rose by `d ≥ 0`. -/
theorem pendingClaim_of_reconciled (hs : 0 ≤ s.stakedAmount) (hrec : s.lastUpdateIndex = st.exchangeRate)
    {st' : TransmuterState} {d : ℤ} (hd : 0 ≤ d) (hR : st'.exchangeRate = st.exchangeRate + d) :
    pendingClaim s st' - pendingClaim s st = s.stakedAmount * d / Q96 := by
  unfold pendingClaim
  simp only [hR, hrec, sub_self, lt_irrefl, if_false, ite_self, add_sub_cancel_left]
  split_ifs with h1 h2
  · ring_nf
  · rw [show d = 0 by omega, mul_zero, Int.zero_ediv, sub_self]
  · rw [show s.stakedAmount = 0 by omega, zero_mul, Int.zero_ediv, sub_self]

/-- **A deposit is split pro rata to the total staked amount.** In every reachable state, a
deposit `D > 0` into a token with stakers raises the pending claim of each reconciled stake
`s` by an `a` with `0 ≤ D * s / TotalStaked - a < 1 + s / 2 ^ 96`. -/
theorem deposit_pendingClaim_prorata (hw : Reachable (t, db)) (hx : t.states x = some st)
    (hk : t.stakes (x, o) = some s) (hrec : s.lastUpdateIndex = st.exchangeRate) {D : ℤ}
    (hD : 0 < D) (hT : 0 < st.totalStaked) :
    ∃ st', (t.deposit db x D).transmuter.states x = some st' ∧
      (t.deposit db x D).transmuter.stakes (x, o) = some s ∧
      0 ≤ (D * s.stakedAmount : ℚ) / st.totalStaked - (pendingClaim s st' - pendingClaim s st : ℤ) ∧
      (D * s.stakedAmount : ℚ) / st.totalStaked - (pendingClaim s st' - pendingClaim s st : ℤ) <
        1 + s.stakedAmount / 2 ^ 96 := by
  have hs := ((hw.inv.token x st hx).wf o s hk).staked_nonneg
  refine ⟨_, deposit_states hx hD hT, by rw [deposit_stakes, hk], ?_⟩
  rw [pendingClaim_of_reconciled hs hrec (Int.ediv_nonneg (mul_nonneg hD.le Q96_pos.le) hT.le) rfl]
  exact prorata_bounds hs hT

theorem deposit_pendingClaim_prorata_two_stakers :
    let w := run [.initializeTransmuter (.ofNat 20 1), .stake (.ofNat 20 2) (.ofNat 20 1) 100,
      .stake (.ofNat 20 3) (.ofNat 20 1) 200] (newTransmuter, emptyStateDB)
    Reachable (w.1, w.2) ∧ w.1.states (.ofNat 20 1) = some ⟨0, 300, Q96⟩ ∧
    w.1.stakes (.ofNat 20 1, .ofNat 20 2) = some ⟨100, 0, Q96⟩ ∧
    (⟨100, 0, Q96⟩ : TransmuterStake).lastUpdateIndex = (⟨0, 300, Q96⟩ : TransmuterState).exchangeRate ∧
    (0 : ℤ) < 150 ∧ (0 : ℤ) < (⟨0, 300, Q96⟩ : TransmuterState).totalStaked ∧
    ∃ st', (w.1.deposit w.2 (.ofNat 20 1) 150).transmuter.states (.ofNat 20 1) = some st' ∧
      (w.1.deposit w.2 (.ofNat 20 1) 150).transmuter.stakes (.ofNat 20 1, .ofNat 20 2) =
        some ⟨100, 0, Q96⟩ ∧
      0 ≤ ((150 : ℤ) * (100 : ℤ) : ℚ) / (300 : ℤ) -
        (pendingClaim ⟨100, 0, Q96⟩ st' - pendingClaim ⟨100, 0, Q96⟩ ⟨0, 300, Q96⟩ : ℤ) ∧
      ((150 : ℤ) * (100 : ℤ) : ℚ) / (300 : ℤ) -
        (pendingClaim ⟨100, 0, Q96⟩ st' - pendingClaim ⟨100, 0, Q96⟩ ⟨0, 300, Q96⟩ : ℤ) <
        1 + (100 : ℤ) / 2 ^ 96 := by
  have hx : (run [.initializeTransmuter (.ofNat 20 1), .stake (.ofNat 20 2) (.ofNat 20 1) 100,
      .stake (.ofNat 20 3) (.ofNat 20 1) 200] (newTransmuter, emptyStateDB)).1.states
      (.ofNat 20 1) = some ⟨0, 300, Q96⟩ := by decide
  have hk : (run [.initializeTransmuter (.ofNat 20 1), .stake (.ofNat 20 2) (.ofNat 20 1) 100,
      .stake (.ofNat 20 3) (.ofNat 20 1) 200] (newTransmuter, emptyStateDB)).1.stakes
      (.ofNat 20 1, .ofNat 20 2) = some ⟨100, 0, Q96⟩ := by decide
  exact ⟨reachable_run_empty _, hx, hk, rfl, by norm_num, by decide,
    deposit_pendingClaim_prorata (reachable_run_empty _) hx hk rfl (by norm_num) (by decide)⟩

/-- **After a conversion, a deposit underpays the live stakes.** Stake 100, deposit 50 and
claim: the claim converts 50 of the stake, which is then the only live stake (50, reconciled),
while `TotalStaked` stays 100. A deposit of 50 then raises its pending claim by 25, not by its
pro-rata share `50 * 50 / 50 = 50`. -/
theorem deposit_after_conversion_underpays :
    let w : Transmuter × StateDB := run [.initializeTransmuter (.ofNat 20 1),
      .stake (.ofNat 20 2) (.ofNat 20 1) 100,
      .deposit (.ofNat 20 1) 50, .claim (.ofNat 20 2) (.ofNat 20 1)] (newTransmuter, emptyStateDB)
    Reachable (w.1, w.2) ∧ w.1.states (.ofNat 20 1) = some ⟨0, 100, Q96 + Q96 / 2⟩ ∧
      w.1.stakes (.ofNat 20 1, .ofNat 20 2) = some ⟨50, 0, Q96 + Q96 / 2⟩ ∧
      (∀ p, p ≠ .ofNat 20 2 → w.1.stakes (.ofNat 20 1, p) = none) ∧
      (w.1.deposit w.2 (.ofNat 20 1) 50).transmuter.states (.ofNat 20 1) =
        some ⟨50, 100, 2 * Q96⟩ ∧
      pendingClaim ⟨50, 0, Q96 + Q96 / 2⟩ ⟨50, 100, 2 * Q96⟩ -
        pendingClaim ⟨50, 0, Q96 + Q96 / 2⟩ ⟨0, 100, Q96 + Q96 / 2⟩ = 25 := by
  refine ⟨reachable_run_empty _, by decide, by decide, fun p hp => ?_, by decide, by decide⟩
  refine (stakes_run_of_ne _ ?_ _).trans rfl
  simp [Call.key, stakeKey, Ne.symm hp]

end Precompiles.Dex
