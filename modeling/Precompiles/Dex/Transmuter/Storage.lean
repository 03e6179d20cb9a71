import Precompiles.Dex.Transmuter.Steps

/-!
# The stake storage word

`saveStake` writes `Bytes()` of the staked and of the unclaimed amount into the two 16-byte
halves of a storage word, each copied into the front of its half, and `getStake` reads each
half back with `SetBytes`, big-endian. The minimal encoding is left-aligned where the decoder
reads a right-aligned number, so an amount whose encoding is shorter than 16 bytes comes back
multiplied by 256 for each missing byte (`wordStake_stakeWord`): a Transmuter that reads a stake
from storage, rather than from its cache, reads only zero and the amounts of exactly 16 bytes
back unchanged (`getStake_saveStake_eq_iff`).
-/

namespace Precompiles.Dex

open Transmuter

/-- A 16-byte half of the word read back: `v` shifted up by the bytes its encoding lacks. -/
theorem beNat_half {v : ℕ} (hv : v < 2 ^ 128) :
    beNat (goCopy (List.replicate 16 0) (natBytes v)) = v * 256 ^ (16 - byteLen v) := by
  have hlen : (natBytes v).length ≤ 16 := by
    rw [length_natBytes, byteLen_le_iff]
    exact hv.trans_eq (by norm_num)
  rw [goCopy_zeros hlen, beNat_append_zeros, beNat_natBytes, length_natBytes]

/-- **What a stake word decodes to.** -/
theorem wordStake_stakeWord (s : TransmuterStake) (hs : s.stakedAmount.natAbs < 2 ^ 128)
    (hu : s.unclaimedAmount.natAbs < 2 ^ 128) :
    wordStake (stakeWord s) =
      ⟨(s.stakedAmount.natAbs * 256 ^ (16 - byteLen s.stakedAmount.natAbs) : ℕ),
        (s.unclaimedAmount.natAbs * 256 ^ (16 - byteLen s.unclaimedAmount.natAbs) : ℕ), Q96⟩ := by
  simp only [wordStake, stakeWord, intBytes]
  rw [List.take_left' (by simp), List.drop_left' (by simp), beNat_half hs, beNat_half hu]

/-- The word of a stake is zero exactly when both its amounts are. -/
theorem stakeWord_eq_zero_iff (s : TransmuterStake) (hs : s.stakedAmount.natAbs < 2 ^ 128)
    (hu : s.unclaimedAmount.natAbs < 2 ^ 128) :
    stakeWord s = FixedBytes.zero 32 ↔ s.stakedAmount = 0 ∧ s.unclaimedAmount = 0 := by
  constructor
  · intro h
    have hw := wordStake_stakeWord s hs hu
    rw [h] at hw
    simp only [wordStake, FixedBytes.zero, List.take_replicate, List.drop_replicate, beNat_zeros,
      TransmuterStake.mk.injEq] at hw
    obtain ⟨h1, h2, -⟩ := hw
    have h1 : s.stakedAmount.natAbs * 256 ^ (16 - byteLen s.stakedAmount.natAbs) = 0 := by
      exact_mod_cast h1.symm
    have h2 : s.unclaimedAmount.natAbs * 256 ^ (16 - byteLen s.unclaimedAmount.natAbs) = 0 := by
      exact_mod_cast h2.symm
    exact ⟨Int.natAbs_eq_zero.1 (by simpa using h1), Int.natAbs_eq_zero.1 (by simpa using h2)⟩
  · rintro ⟨h1, h2⟩
    ext1
    simp [stakeWord, FixedBytes.zero, h1, h2, intBytes, natBytes, byteLen, beBytes, goCopy]

/-- A half reads back unchanged exactly when it is zero or fills its 16 bytes. -/
theorem half_eq_self_iff {v : ℕ} (hv : v < 2 ^ 128) :
    v * 256 ^ (16 - byteLen v) = v ↔ v = 0 ∨ 2 ^ 120 ≤ v := by
  have hle : byteLen v ≤ 16 := (byteLen_le_iff v 16).2 (hv.trans_eq (by norm_num))
  constructor
  · intro h
    by_contra hc
    push_neg at hc
    have h15 : byteLen v ≤ 15 := (byteLen_le_iff v 15).2 (hc.2.trans_eq (by norm_num))
    have hp : 1 < 256 ^ (16 - byteLen v) := Nat.one_lt_pow (by omega) (by norm_num)
    have : v * 1 < v * 256 ^ (16 - byteLen v) := Nat.mul_lt_mul_of_pos_left hp (by omega)
    omega
  · rintro (rfl | h)
    · simp
    · have h16 : ¬byteLen v ≤ 15 := fun h15 =>
        absurd ((byteLen_le_iff v 15).1 h15) (not_lt.2 (le_of_eq_of_le (by norm_num) h))
      rw [show 16 - byteLen v = 0 by omega, pow_zero, mul_one]

theorem intHalf_eq_self_iff {x : ℤ} (h0 : 0 ≤ x) (hx : x < 2 ^ 128) :
    ((x.natAbs * 256 ^ (16 - byteLen x.natAbs) : ℕ) : ℤ) = x ↔ x = 0 ∨ 2 ^ 120 ≤ x := by
  obtain ⟨v, rfl⟩ := Int.eq_ofNat_of_zero_le h0
  rw [Int.natAbs_ofNat, Nat.cast_inj, Nat.cast_eq_zero,
    show (2 : ℤ) ^ 120 = ((2 ^ 120 : ℕ) : ℤ) by norm_num, Nat.cast_le]
  exact half_eq_self_iff (by exact_mod_cast hx)

/-- A Transmuter whose cache lacks a key reads the stake saved there from its storage word. -/
theorem getStake_saveStake_of_uncached (t t' : Transmuter) (db : StateDB) (k : StakeKey)
    (s : TransmuterStake) (hk : t'.stakes k = none) (hnz : stakeWord s ≠ FixedBytes.zero 32) :
    (t'.getStake (t.saveStake db k s).2 k).1 = some (wordStake (stakeWord s)) := by
  simp [Transmuter.getStake, Transmuter.saveStake, hk, hnz]

/-- **A stake read back from storage.** For a stake with amounts in `[0, 2 ^ 128)`, not both
zero, a Transmuter whose cache lacks the key reads back each amount unchanged exactly when it
is zero or at least `2 ^ 120`, the amounts whose minimal encoding fills 16 bytes. -/
theorem getStake_saveStake_eq_iff (t t' : Transmuter) (db : StateDB) (k : StakeKey)
    (s : TransmuterStake) (hk : t'.stakes k = none) (hs0 : 0 ≤ s.stakedAmount)
    (hs : s.stakedAmount < 2 ^ 128) (hu0 : 0 ≤ s.unclaimedAmount)
    (hu : s.unclaimedAmount < 2 ^ 128) (hnz : ¬(s.stakedAmount = 0 ∧ s.unclaimedAmount = 0)) :
    ∃ s', (t'.getStake (t.saveStake db k s).2 k).1 = some s' ∧
      (s'.stakedAmount = s.stakedAmount ↔ s.stakedAmount = 0 ∨ 2 ^ 120 ≤ s.stakedAmount) ∧
      (s'.unclaimedAmount = s.unclaimedAmount ↔
        s.unclaimedAmount = 0 ∨ 2 ^ 120 ≤ s.unclaimedAmount) := by
  have hs' : s.stakedAmount.natAbs < 2 ^ 128 := by omega
  have hu' : s.unclaimedAmount.natAbs < 2 ^ 128 := by omega
  have hnz' : stakeWord s ≠ FixedBytes.zero 32 := fun h => hnz ((stakeWord_eq_zero_iff s hs' hu').1 h)
  refine ⟨_, getStake_saveStake_of_uncached t t' db k s hk hnz', ?_, ?_⟩ <;>
    rw [wordStake_stakeWord s hs' hu']
  · exact intHalf_eq_self_iff hs0 hs
  · exact intHalf_eq_self_iff hu0 hu

theorem getStake_saveStake_eq_iff_of_one :
    newTransmuter.stakes (.ofNat 20 1, .ofNat 20 2) = none ∧ (0 : ℤ) ≤ 1 ∧ (1 : ℤ) < 2 ^ 128 ∧
    (0 : ℤ) ≤ 0 ∧ (0 : ℤ) < 2 ^ 128 ∧ ¬((1 : ℤ) = 0 ∧ (0 : ℤ) = 0) ∧
    ∃ s', (newTransmuter.getStake (newTransmuter.saveStake emptyStateDB
        (.ofNat 20 1, .ofNat 20 2) ⟨1, 0, Q96⟩).2 (.ofNat 20 1, .ofNat 20 2)).1 = some s' ∧
      (s'.stakedAmount = 1 ↔ (1 : ℤ) = 0 ∨ 2 ^ 120 ≤ (1 : ℤ)) ∧
      (s'.unclaimedAmount = 0 ↔ (0 : ℤ) = 0 ∨ 2 ^ 120 ≤ (0 : ℤ)) :=
  ⟨rfl, by norm_num, by norm_num, le_rfl, by norm_num, by norm_num,
    getStake_saveStake_eq_iff newTransmuter newTransmuter emptyStateDB _ ⟨1, 0, Q96⟩ rfl
      (by norm_num) (by norm_num) le_rfl (by norm_num) (by norm_num)⟩

/-- **A staked amount of 1 reads back as `2 ^ 120`.** The one byte of its encoding is copied
into the first byte of the word's half, where `SetBytes` reads it as the most significant. -/
theorem getStake_reads_one_as_two_pow_120 :
    (newTransmuter.getStake (newTransmuter.saveStake emptyStateDB (.ofNat 20 1, .ofNat 20 2)
      ⟨1, 0, Q96⟩).2 (.ofNat 20 1, .ofNat 20 2)).1 = some ⟨2 ^ 120, 0, Q96⟩ := by
  have hnz : stakeWord ⟨1, 0, Q96⟩ ≠ FixedBytes.zero 32 := fun h => by
    simpa using (stakeWord_eq_zero_iff _ (by norm_num) (by norm_num)).1 h
  rw [getStake_saveStake_of_uncached _ _ _ _ _ rfl hnz,
    wordStake_stakeWord _ (by norm_num) (by norm_num)]
  simp [byteLen]

end Precompiles.Dex
