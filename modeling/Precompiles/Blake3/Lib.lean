import Precompiles.Foundations.Bytes

/-!
# Blake3Lib

A model of `Blake3Lib`, the Solidity library of blake3/IBlake3.sol through which contracts
call the BLAKE3 precompile at `BLAKE3_ADDRESS`. Each function checks its arguments, packs an
operation byte and the arguments with `abi.encodePacked`, makes one `staticcall`, and reverts
with `Blake3CallFailed` unless the call succeeds with as many bytes as the function expects.
`verifyMerkleProof` hashes its way up a Merkle path, one two-leaf `merkleRoot` call a level.

The precompile is outside src/: the model takes the `staticcall` as a function from the input
bytes to the returned bytes, `none` for a call that fails, so that every theorem holds whatever
the precompile computes.

* `Blake3Request.run_eq_callChecked`: every function of the library but `verifyMerkleProof` is
  its argument checks, then one call at the input `Blake3Request.input` of its request.
* `Blake3Request.input_injective`: these inputs are a domain-separated encoding. Two calls that
  pass their checks and send the same bytes are the same call, so the precompile never reads one
  function's input as another's, nor one list of arguments as another.
* `Blake3Request.run_independent`: hence any two different calls that pass their checks can be
  given any two answers of the right lengths by some precompile.
-/

namespace Precompiles.Blake3

/-- Solidity's `bytes32`. -/
abbrev Bytes32 := FixedBytes 32

/-- `bytes32(b)` of a `bytes` value: its first 32 bytes, padded with zero bytes on the right
when it is shorter. -/
def bytes32Of (b : List UInt8) : Bytes32 := ⟨(b ++ List.replicate 32 0).take 32, by simp⟩

theorem toList_bytes32Of {b : List UInt8} (h : b.length = 32) : (bytes32Of b).toList = b :=
  List.take_left' h

/-- A `staticcall` to `BLAKE3_ADDRESS`: the bytes returned when the call succeeds, `none` when
it fails. -/
abbrev StaticCall := List UInt8 → Option (List UInt8)

/-- `OP_HASH256`. -/
def opHash256 : UInt8 := 0x01

/-- `OP_HASH512`. -/
def opHash512 : UInt8 := 0x02

/-- `OP_HASH_XOF`. -/
def opHashXOF : UInt8 := 0x03

/-- `OP_HASH_WITH_DOMAIN`. -/
def opHashWithDomain : UInt8 := 0x04

/-- `OP_MERKLE_ROOT`. -/
def opMerkleRoot : UInt8 := 0x10

/-- `OP_DERIVE_KEY`. -/
def opDeriveKey : UInt8 := 0x20

/-- How a call of the library reverts: with the custom errors `Blake3CallFailed` and
`InvalidOutputLength`, or with `Error(reason)` from a failed `require`. -/
inductive Revert
  | blake3CallFailed
  | invalidOutputLength
  | error (reason : String)
  deriving DecidableEq, Repr

/-! ## The functions -/

/-- The call every function ends with: `BLAKE3_ADDRESS.staticcall(input)`, then
`if (!success || result.length != n) revert Blake3CallFailed()`. -/
def callChecked (staticcall : StaticCall) (input : List UInt8) (n : ℕ) :
    Except Revert (List UInt8) :=
  match staticcall input with
  | some result => if result.length ≠ n then .error .blake3CallFailed else .ok result
  | none => .error .blake3CallFailed

/-- `hash256`. -/
def hash256 (staticcall : StaticCall) (data : List UInt8) : Except Revert Bytes32 :=
  bytes32Of <$> callChecked staticcall ([opHash256] ++ data) 32

/-- `hash512`, which returns the 64 bytes as they are. -/
def hash512 (staticcall : StaticCall) (data : List UInt8) : Except Revert (List UInt8) :=
  callChecked staticcall ([opHash512] ++ data) 64

/-- `hashXOF`, for an output of 1 to 1024 bytes. -/
def hashXOF (staticcall : StaticCall) (data : List UInt8) (outputLength : UInt32) :
    Except Revert (List UInt8) :=
  if outputLength = 0 ∨ outputLength > 1024 then .error .invalidOutputLength else
  callChecked staticcall ([opHashXOF] ++ putUint32 outputLength ++ data) outputLength.toNat

/-- `hashWithDomain`. The domain goes in after its length, `uint8(domainBytes.length)`. -/
def hashWithDomain (staticcall : StaticCall) (domain data : List UInt8) :
    Except Revert Bytes32 :=
  if ¬domain.length ≤ 255 then .error (.error "Domain too long") else
  bytes32Of <$>
    callChecked staticcall ([opHashWithDomain, UInt8.ofNat domain.length] ++ domain ++ data) 32

/-- `merkleRoot`: the operation byte and `uint32(leaves.length)`, then the loop appending the
leaves one by one. -/
def merkleRoot (staticcall : StaticCall) (leaves : List Bytes32) : Except Revert Bytes32 :=
  if ¬leaves.length ≤ 1024 then .error (.error "Too many leaves") else
  let input := leaves.foldl (fun input leaf => input ++ leaf.toList)
    ([opMerkleRoot] ++ putUint32 (UInt32.ofNat leaves.length))
  bytes32Of <$> callChecked staticcall input 32

/-- `deriveKey`. The context goes in after its length, `uint8(contextBytes.length)`. -/
def deriveKey (staticcall : StaticCall) (context : List UInt8) (keyMaterial : Bytes32) :
    Except Revert Bytes32 :=
  if ¬context.length ≤ 255 then .error (.error "Context too long") else
  bytes32Of <$> callChecked staticcall
    ([opDeriveKey, UInt8.ofNat context.length] ++ context ++ keyMaterial.toList) 32

/-- The loop of `verifyMerkleProof` from `computedHash`, over the proof elements left, with the
index of the node reached. The pair is ordered by the parity of the index. A `uint256` index
is a natural number here: the loop only halves it and takes it modulo 2. -/
def verifyMerkleProofLoop (staticcall : StaticCall) :
    Bytes32 → List Bytes32 → ℕ → Except Revert Bytes32
  | computedHash, [], _ => .ok computedHash
  | computedHash, proofElement :: proof, index => do
    let pair := if index % 2 = 0 then [computedHash, proofElement] else [proofElement, computedHash]
    let computedHash ← merkleRoot staticcall pair
    verifyMerkleProofLoop staticcall computedHash proof (index / 2)

/-- `verifyMerkleProof`. -/
def verifyMerkleProof (staticcall : StaticCall) (leaf : Bytes32) (proof : List Bytes32)
    (index : ℕ) (root : Bytes32) : Except Revert Bool := do
  let computedHash ← verifyMerkleProofLoop staticcall leaf proof index
  pure (computedHash == root)

/-! ## The library as one request type -/

/-- A call of the library, with its arguments. -/
inductive Blake3Request
  | hash256 (data : List UInt8)
  | hash512 (data : List UInt8)
  | hashXOF (data : List UInt8) (outputLength : UInt32)
  | hashWithDomain (domain data : List UInt8)
  | merkleRoot (leaves : List Bytes32)
  | deriveKey (context : List UInt8) (keyMaterial : Bytes32)

namespace Blake3Request

/-- The function a request calls, its result as bytes. -/
def run (staticcall : StaticCall) : Blake3Request → Except Revert (List UInt8)
  | .hash256 data => FixedBytes.toList <$> Blake3.hash256 staticcall data
  | .hash512 data => Blake3.hash512 staticcall data
  | .hashXOF data outputLength => Blake3.hashXOF staticcall data outputLength
  | .hashWithDomain domain data => FixedBytes.toList <$> Blake3.hashWithDomain staticcall domain data
  | .merkleRoot leaves => FixedBytes.toList <$> Blake3.merkleRoot staticcall leaves
  | .deriveKey context keyMaterial =>
    FixedBytes.toList <$> Blake3.deriveKey staticcall context keyMaterial

/-- The checks a function makes before its call: the revert of the first that fails, `none`
when the arguments pass them all. -/
def check : Blake3Request → Option Revert
  | .hash256 _ | .hash512 _ => none
  | .hashXOF _ outputLength =>
    if outputLength = 0 ∨ outputLength > 1024 then some .invalidOutputLength else none
  | .hashWithDomain domain _ => if domain.length ≤ 255 then none else some (.error "Domain too long")
  | .merkleRoot leaves => if leaves.length ≤ 1024 then none else some (.error "Too many leaves")
  | .deriveKey context _ => if context.length ≤ 255 then none else some (.error "Context too long")

/-- The bytes a request sends: its operation byte, then its arguments, each of a fixed length or
after its length, but the last. -/
def input : Blake3Request → List UInt8
  | .hash256 data => [opHash256] ++ data
  | .hash512 data => [opHash512] ++ data
  | .hashXOF data outputLength => [opHashXOF] ++ putUint32 outputLength ++ data
  | .hashWithDomain domain data => [opHashWithDomain, UInt8.ofNat domain.length] ++ domain ++ data
  | .merkleRoot leaves =>
    [opMerkleRoot] ++ putUint32 (UInt32.ofNat leaves.length) ++ (leaves.map FixedBytes.toList).flatten
  | .deriveKey context keyMaterial =>
    [opDeriveKey, UInt8.ofNat context.length] ++ context ++ keyMaterial.toList

/-- The number of bytes the function accepts from the precompile. -/
def outputLength : Blake3Request → ℕ
  | .hash512 _ => 64
  | .hashXOF _ outputLength => outputLength.toNat
  | _ => 32

end Blake3Request

/-! ## Every function is its checks and one call -/

theorem map_toList_bytes32Of (staticcall : StaticCall) (input : List UInt8) :
    FixedBytes.toList <$> (bytes32Of <$> callChecked staticcall input 32) =
      callChecked staticcall input 32 := by
  unfold callChecked
  split
  · split_ifs with h
    · rfl
    · exact congrArg Except.ok (toList_bytes32Of (not_not.1 h))
  · rfl

theorem foldl_append_toList (init : List UInt8) (leaves : List Bytes32) :
    leaves.foldl (fun input leaf => input ++ leaf.toList) init =
      init ++ (leaves.map FixedBytes.toList).flatten := by
  induction leaves generalizing init with
  | nil => simp
  | cons leaf leaves ih => simp [ih]

/-- **The library's contract with the precompile.** Every function but `verifyMerkleProof`
reverts with the first of its checks that fails, and otherwise makes one call, at its
request's input, whose answer it returns if it has the length the function expects. -/
theorem Blake3Request.run_eq_callChecked (staticcall : StaticCall) (r : Blake3Request) :
    r.run staticcall = r.check.elim (callChecked staticcall r.input r.outputLength) .error := by
  cases r with
  | hash256 | hash512 =>
    simp only [run, check, input, outputLength, Blake3.hash256, Blake3.hash512, Option.elim,
      map_toList_bytes32Of]
  | hashXOF => simp only [run, check, input, outputLength, Blake3.hashXOF]; split_ifs <;> rfl
  | hashWithDomain | deriveKey =>
    simp only [run, check, input, outputLength, Blake3.hashWithDomain, Blake3.deriveKey]
    split_ifs
    · simp only [Option.elim, map_toList_bytes32Of]
    · rfl
  | merkleRoot =>
    simp only [run, check, input, outputLength, Blake3.merkleRoot, foldl_append_toList]
    split_ifs
    · simp only [Option.elim, map_toList_bytes32Of]
    · rfl

/-! ## The inputs are a domain-separated encoding -/

theorem uint8_ofNat_inj {a b : ℕ} (ha : a ≤ 255) (hb : b ≤ 255)
    (h : UInt8.ofNat a = UInt8.ofNat b) : a = b := by
  have := congrArg UInt8.toNat h
  rwa [UInt8.toNat_ofNat_of_lt (lt_of_le_of_lt ha (by decide)),
    UInt8.toNat_ofNat_of_lt (lt_of_le_of_lt hb (by decide))] at this

theorem uint32_ofNat_inj {a b : ℕ} (ha : a ≤ 1024) (hb : b ≤ 1024)
    (h : UInt32.ofNat a = UInt32.ofNat b) : a = b := by
  have := congrArg UInt32.toNat h
  rwa [UInt32.toNat_ofNat_of_lt (lt_of_le_of_lt ha (by decide)),
    UInt32.toNat_ofNat_of_lt (lt_of_le_of_lt hb (by decide))] at this

/-- Leaves laid end to end are read back one by one. -/
theorem flatten_toList_inj {n : ℕ} {l₁ l₂ : List (FixedBytes n)} (hl : l₁.length = l₂.length)
    (h : (l₁.map FixedBytes.toList).flatten = (l₂.map FixedBytes.toList).flatten) : l₁ = l₂ := by
  induction l₁ generalizing l₂ with
  | nil => simpa using hl.symm
  | cons a l₁ ih =>
    obtain _ | ⟨b, l₂⟩ := l₂
    · simp at hl
    · simp only [List.map_cons, List.flatten_cons] at h
      obtain ⟨hab, h⟩ := List.append_inj h (by simp only [FixedBytes.length_toList])
      rw [FixedBytes.ext hab, ih (by simpa using hl) h]

/-- A length prefix and the bytes after it, read back. -/
theorem prefixed_inj {a b a' b' : List UInt8} (ha : a.length ≤ 255) (ha' : a'.length ≤ 255)
    (hn : UInt8.ofNat a.length = UInt8.ofNat a'.length) (h : a ++ b = a' ++ b') :
    a = a' ∧ b = b' :=
  List.append_inj h (uint8_ofNat_inj ha ha' hn)

/-- **Domain separation.** Two calls of the library that pass their checks and send the
precompile the same bytes are the same call, with the same arguments. -/
theorem Blake3Request.input_injective {r₁ r₂ : Blake3Request} (h₁ : r₁.check = none)
    (h₂ : r₂.check = none) (h : r₁.input = r₂.input) : r₁ = r₂ := by
  cases r₁ <;> cases r₂ <;>
    simp only [input, List.singleton_append, List.cons_append, List.nil_append,
      List.cons.injEq] at h <;>
    first
    | exact absurd h.1 (by decide)
    | simp only [check, ite_eq_left_iff, ite_eq_right_iff, reduceCtorEq, imp_false,
        not_not] at h₁ h₂
  case hash256.hash256 | hash512.hash512 => rw [h.2]
  case hashXOF.hashXOF =>
    obtain ⟨hn, hd⟩ := List.append_inj h.2 (by simp only [length_putUint32])
    rw [putUint32_injective hn, hd]
  case hashWithDomain.hashWithDomain =>
    obtain ⟨rfl, rfl⟩ := prefixed_inj h₁ h₂ h.2.1 h.2.2
    rfl
  case deriveKey.deriveKey =>
    obtain ⟨rfl, hk⟩ := prefixed_inj h₁ h₂ h.2.1 h.2.2
    rw [FixedBytes.ext hk]
  case merkleRoot.merkleRoot =>
    obtain ⟨hn, hl⟩ := List.append_inj h.2 (by simp only [length_putUint32])
    rw [flatten_toList_inj (uint32_ofNat_inj h₁ h₂ (putUint32_injective hn)) hl]

/-! ## Different calls are answered independently -/

/-- **Different calls are answered independently.** For any two different calls of the library
that pass their checks, and any two answers of the lengths the calls accept, some precompile
gives each call its answer. The library never sends two different calls the same input, so no
precompile, whatever it computes, has to answer them alike. -/
theorem Blake3Request.run_independent {r₁ r₂ : Blake3Request} (h₁ : r₁.check = none)
    (h₂ : r₂.check = none) (hne : r₁ ≠ r₂) {a₁ a₂ : List UInt8}
    (ha₁ : a₁.length = r₁.outputLength) (ha₂ : a₂.length = r₂.outputLength) :
    ∃ staticcall : StaticCall, r₁.run staticcall = .ok a₁ ∧ r₂.run staticcall = .ok a₂ := by
  have hin : r₂.input ≠ r₁.input := fun h => hne (input_injective h₁ h₂ h.symm)
  refine ⟨fun input => if input = r₁.input then some a₁ else some a₂, ?_, ?_⟩
  · simp [run_eq_callChecked, h₁, callChecked, ha₁]
  · simp [run_eq_callChecked, h₂, callChecked, hin, ha₂]

theorem Blake3Request.run_independent_of_hash256_hash512 :
    ∃ staticcall : StaticCall,
      (Blake3Request.hash256 []).run staticcall = .ok (List.replicate 32 0) ∧
        (Blake3Request.hash512 []).run staticcall = .ok (List.replicate 64 0) :=
  Blake3Request.run_independent (by rfl) (by rfl) (by simp) (by rfl) (by rfl)

/-- The length check is what makes the encoding injective: `uint8(256)` is 0, so a 256-byte
domain would send the bytes of the empty domain. -/
example : (Blake3Request.hashWithDomain (List.replicate 256 0) []).input =
      (Blake3Request.hashWithDomain [] (List.replicate 256 0)).input ∧
    (Blake3Request.hashWithDomain (List.replicate 256 0) []).check =
      some (.error "Domain too long") := by
  simp only [Blake3Request.input, Blake3Request.check, List.length_replicate, List.length_nil,
    List.append_nil, List.append_assoc, List.nil_append]
  exact ⟨rfl, rfl⟩

end Precompiles.Blake3
