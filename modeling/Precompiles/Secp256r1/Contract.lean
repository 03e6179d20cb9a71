import Precompiles.Foundations.Bytes

/-!
# The P-256 signature verification precompile

A model of `secp256r1/contract.go` (RIP-7212). `Run` reads a 160-byte input as five 32-byte
big-endian words, a message hash, the signature `(r, s)` and the public key `(x, y)`, and
returns the 32-byte word 1 for a valid signature and no bytes otherwise, never an error.
`Verify` makes the same checks on numbers.

The curve and the signature check are those of `crypto/elliptic` and `crypto/ecdsa`, outside
src/: the model takes `IsOnCurve`, the group order `N` and `ecdsa.Verify` as a `Curve`, so that
every theorem holds for any implementation of them.

* `run_eq_verify`: `Run` returns `successResult` exactly when the input has 160 bytes and
  `Verify` accepts the numbers it reads from it, and otherwise no bytes; its error is always nil.
* `run_buildInput`: on the input the package's tests build from a 32-byte hash and four numbers
  below `2 ^ 256`, `Run` answers what `Verify` answers on them.
-/

namespace Precompiles.Secp256r1

/-- `P256VerifyGas`. -/
def p256VerifyGas : UInt64 := 3450

/-- `InputLength`: hash, `r`, `s`, `x` and `y`, 32 bytes each. -/
def inputLength : ℕ := 160

/-- `successResult`, `common.LeftPadBytes([]byte{1}, 32)`. -/
def successResult : List UInt8 := leftPadBytes [1] 32

example : successResult = List.replicate 31 0 ++ [1] := rfl

/-- `ErrInvalidInputLength`, which the package declares and `Run` never returns. -/
inductive Secp256r1Error
  | errInvalidInputLength
  deriving DecidableEq, Repr

/-- What the precompile takes from `crypto/elliptic.P256()` and `crypto/ecdsa`. -/
structure Curve where
  isOnCurve : ℤ → ℤ → Bool
  n : ℤ
  ecdsaVerify : (x y : ℤ) → (hash : List UInt8) → (r s : ℤ) → Bool

/-- `Contract.RequiredGas`. -/
def requiredGas (_input : List UInt8) : UInt64 := p256VerifyGas

/-- `Contract.Run`: the output and the error. A 160-byte input is read in place, `input[0:32]`
for the hash and `new(big.Int).SetBytes(input[32:64])` and so on for the numbers. -/
def run (c : Curve) (input : List UInt8) : List UInt8 × Option Secp256r1Error :=
  if input.length ≠ inputLength then ([], none) else
  let hash := input.take 32
  let r : ℤ := beNat ((input.drop 32).take 32)
  let s : ℤ := beNat ((input.drop 64).take 32)
  let x : ℤ := beNat ((input.drop 96).take 32)
  let y : ℤ := beNat ((input.drop 128).take 32)
  if !c.isOnCurve x y then ([], none)
  else
    let n := c.n
    if r ≤ 0 ∨ r ≥ n then ([], none)
    else if s ≤ 0 ∨ s ≥ n then ([], none)
    else if c.ecdsaVerify x y hash r s then (successResult, none)
    else ([], none)

/-- `Verify`, the same checks on `*big.Int` arguments, which may be negative. -/
def verify (c : Curve) (hash : List UInt8) (r s x y : ℤ) : Bool :=
  if !c.isOnCurve x y then false
  else
    let n := c.n
    if r ≤ 0 ∨ r ≥ n then false
    else if s ≤ 0 ∨ s ≥ n then false
    else c.ecdsaVerify x y hash r s

/-- `buildInput` of the package's tests: a zeroed 160-byte input with each field, left-padded to
32 bytes, copied into its slot. The five `copy` calls write disjoint slots, so the input is the
concatenation of the five slots. -/
def buildInput (hash : List UInt8) (r s x y : ℤ) : List UInt8 :=
  goCopy (List.replicate 32 0) (leftPadBytes hash 32) ++
    goCopy (List.replicate 32 0) (leftPadBytes (intBytes r) 32) ++
    goCopy (List.replicate 32 0) (leftPadBytes (intBytes s) 32) ++
    goCopy (List.replicate 32 0) (leftPadBytes (intBytes x) 32) ++
    goCopy (List.replicate 32 0) (leftPadBytes (intBytes y) 32)

/-- `Run` on an input of 160 bytes is `Verify` on the five words it reads. -/
theorem run_of_length_eq (c : Curve) {input : List UInt8} (hl : input.length = inputLength) :
    run c input =
      (if verify c (input.take 32) (beNat ((input.drop 32).take 32)) (beNat ((input.drop 64).take 32))
            (beNat ((input.drop 96).take 32)) (beNat ((input.drop 128).take 32)) = true
        then successResult else [], none) := by
  unfold run verify
  simp only [hl, ne_eq, not_true_eq_false, if_false]
  split_ifs <;> simp_all

/-- **`Run` is `Verify` on the words it reads.** For every curve implementation and input, `Run`
returns `successResult` when the input has 160 bytes and `Verify` accepts the hash and the four
numbers read from it, and no bytes otherwise; its error is nil on every input. -/
theorem run_eq_verify (c : Curve) (input : List UInt8) :
    run c input =
      (if input.length = inputLength ∧
          verify c (input.take 32) (beNat ((input.drop 32).take 32)) (beNat ((input.drop 64).take 32))
            (beNat ((input.drop 96).take 32)) (beNat ((input.drop 128).take 32)) = true
        then successResult else [], none) := by
  by_cases hl : input.length = inputLength
  · simp only [hl, true_and]
    exact run_of_length_eq c hl
  · simp [run, hl]

/-- The five words `Run` reads from five 32-byte slots. -/
theorem run_append (c : Curve) {w₀ w₁ w₂ w₃ w₄ : List UInt8} (h₀ : w₀.length = 32)
    (h₁ : w₁.length = 32) (h₂ : w₂.length = 32) (h₃ : w₃.length = 32) (h₄ : w₄.length = 32) :
    run c (w₀ ++ w₁ ++ w₂ ++ w₃ ++ w₄) =
      (if verify c w₀ (beNat w₁) (beNat w₂) (beNat w₃) (beNat w₄) then successResult else [],
        none) := by
  simp only [List.append_assoc]
  set L := w₀ ++ (w₁ ++ (w₂ ++ (w₃ ++ w₄)))
  have hlen : L.length = inputLength := by simp [L, inputLength, h₀, h₁, h₂, h₃, h₄]
  rw [run_of_length_eq c hlen]
  have d₁ : L.drop 32 = w₁ ++ (w₂ ++ (w₃ ++ w₄)) := List.drop_left' h₀
  have d₂ : L.drop 64 = w₂ ++ (w₃ ++ w₄) := by
    rw [show L.drop 64 = (L.drop 32).drop 32 by rw [List.drop_drop], d₁, List.drop_left' h₁]
  have d₃ : L.drop 96 = w₃ ++ w₄ := by
    rw [show L.drop 96 = (L.drop 64).drop 32 by rw [List.drop_drop], d₂, List.drop_left' h₂]
  have d₄ : L.drop 128 = w₄ := by
    rw [show L.drop 128 = (L.drop 96).drop 32 by rw [List.drop_drop], d₃, List.drop_left' h₃]
  rw [List.take_left' h₀, d₁, d₂, d₃, d₄, List.take_left' h₁, List.take_left' h₂,
    List.take_left' h₃, List.take_of_length_le h₄.le]

/-- A number below `2 ^ 256`, written as `buildInput` writes it, is one 32-byte word. -/
theorem slot_intBytes {v : ℤ} (h₀ : 0 ≤ v) (h : v < 2 ^ 256) :
    (goCopy (List.replicate 32 0) (leftPadBytes (intBytes v) 32)).length = 32 ∧
      (beNat (goCopy (List.replicate 32 0) (leftPadBytes (intBytes v) 32)) : ℤ) = v := by
  have hv : v.natAbs < 256 ^ 32 := by omega
  have hlen : (intBytes v).length ≤ 32 := by
    rw [intBytes, length_natBytes, byteLen_le_iff]
    exact hv
  rw [goCopy_replicate_of_length (length_leftPadBytes hlen), beNat_leftPadBytes, intBytes,
    beNat_natBytes]
  exact ⟨length_leftPadBytes hlen, by omega⟩

/-- **The tests' inputs are read back.** On the input `buildInput` makes from a 32-byte hash and
four numbers in `[0, 2 ^ 256)`, `Run` answers what `Verify` answers on the same hash and
numbers. -/
theorem run_buildInput (c : Curve) {hash : List UInt8} {r s x y : ℤ} (hh : hash.length = 32)
    (hr : 0 ≤ r ∧ r < 2 ^ 256) (hs : 0 ≤ s ∧ s < 2 ^ 256) (hx : 0 ≤ x ∧ x < 2 ^ 256)
    (hy : 0 ≤ y ∧ y < 2 ^ 256) :
    run c (buildInput hash r s x y) = (if verify c hash r s x y then successResult else [], none) := by
  have h₀ : goCopy (List.replicate 32 0) (leftPadBytes hash 32) = hash := by
    rw [leftPadBytes, if_pos hh.ge, goCopy_replicate_of_length hh]
  obtain ⟨lr, vr⟩ := slot_intBytes hr.1 hr.2
  obtain ⟨ls, vs⟩ := slot_intBytes hs.1 hs.2
  obtain ⟨lx, vx⟩ := slot_intBytes hx.1 hx.2
  obtain ⟨ly, vy⟩ := slot_intBytes hy.1 hy.2
  rw [buildInput, run_append c (by rw [h₀, hh]) lr ls lx ly, h₀, vr, vs, vx, vy]

theorem run_buildInput_of_small :
    (List.replicate 32 (0 : UInt8)).length = 32 ∧ ((0 : ℤ) ≤ 1 ∧ (1 : ℤ) < 2 ^ 256) ∧
      ((0 : ℤ) ≤ 2 ∧ (2 : ℤ) < 2 ^ 256) ∧ ((0 : ℤ) ≤ 3 ∧ (3 : ℤ) < 2 ^ 256) ∧
      ((0 : ℤ) ≤ 4 ∧ (4 : ℤ) < 2 ^ 256) ∧
      run ⟨fun _ _ => true, 5, fun _ _ _ _ _ => true⟩ (buildInput (List.replicate 32 0) 1 2 3 4) =
        (if verify ⟨fun _ _ => true, 5, fun _ _ _ _ _ => true⟩ (List.replicate 32 0) 1 2 3 4
          then successResult else [], none) :=
  ⟨rfl, by norm_num, by norm_num, by norm_num, by norm_num,
    run_buildInput _ rfl (by norm_num) (by norm_num) (by norm_num) (by norm_num)⟩

end Precompiles.Secp256r1
