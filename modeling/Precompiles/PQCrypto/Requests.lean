import Precompiles.PQCrypto.Run

/-!
# The precompile as its callers see it

An abstract view of the post-quantum precompile. A call is a `Request`: one of the four
operations, with its mode and its fields. It has a price, `Request.gas`, the gas constant the
source declares for the operation and mode, and a meaning, `Request.eval`, what the handler does
with the fields once it has cut them out of the input. `Request.encode` lays a request out as
the bytes `Run` reads: the selector, the mode byte and the fields in the handler's layout.

* `run_encode`: `Run` implements the abstract view. On the encoding of every well-formed request,
  with any backend, randomness and gas, it charges the request's price and returns its meaning,
  or runs out of gas.
* `run_err_eq_none_iff`: and nothing else succeeds. A call returns no error exactly when its
  input encodes a well-formed request that the supplied gas pays for and whose meaning is an
  output.
-/

namespace Precompiles.PQCrypto

/-! ## Modes and prices -/

/-- The byte of each ML-DSA mode in the `switch` of `mldsaVerify`. -/
def MLDSAMode.byte : MLDSAMode → UInt8
  | .mldsa44 => mldsaMode44
  | .mldsa65 => mldsaMode65
  | .mldsa87 => mldsaMode87

/-- The byte of each ML-KEM mode in the `switch` of the ML-KEM handlers. -/
def MLKEMMode.byte : MLKEMMode → UInt8
  | .mlkem512 => mlkemMode512
  | .mlkem768 => mlkemMode768
  | .mlkem1024 => mlkemMode1024

/-- The byte of each SLH-DSA mode in the `switch` of `slhdsaVerify`. -/
def SLHDSAMode.byte : SLHDSAMode → UInt8
  | .sha2_128s => slhdsaModeSHA2_128s
  | .sha2_128f => slhdsaModeSHA2_128f
  | .sha2_192s => slhdsaModeSHA2_192s
  | .sha2_192f => slhdsaModeSHA2_192f
  | .sha2_256s => slhdsaModeSHA2_256s
  | .sha2_256f => slhdsaModeSHA2_256f
  | .shake_128s => slhdsaModeSHAKE_128s
  | .shake_128f => slhdsaModeSHAKE_128f
  | .shake_192s => slhdsaModeSHAKE_192s
  | .shake_192f => slhdsaModeSHAKE_192f
  | .shake_256s => slhdsaModeSHAKE_256s
  | .shake_256f => slhdsaModeSHAKE_256f

/-- `MLDSA44VerifyGas`, `MLDSA65VerifyGas`, `MLDSA87VerifyGas`. -/
def MLDSAMode.verifyGas : MLDSAMode → UInt64
  | .mldsa44 => 75000
  | .mldsa65 => 100000
  | .mldsa87 => 150000

/-- `MLKEM512EncapsulateGas`, `MLKEM768EncapsulateGas`, `MLKEM1024EncapsulateGas`. -/
def MLKEMMode.encapsulateGas : MLKEMMode → UInt64
  | .mlkem512 => 6000
  | .mlkem768 => 8000
  | .mlkem1024 => 10000

/-- `MLKEM512DecapsulateGas`, `MLKEM768DecapsulateGas`, `MLKEM1024DecapsulateGas`. -/
def MLKEMMode.decapsulateGas : MLKEMMode → UInt64
  | .mlkem512 => 6000
  | .mlkem768 => 8000
  | .mlkem1024 => 10000

/-- `SLHDSA128sVerifyGas`, ..., `SLHDSA256fVerifyGas`: one price per security level and variant,
the same for SHA2 and SHAKE. -/
def SLHDSAMode.verifyGas : SLHDSAMode → UInt64
  | .sha2_128s | .shake_128s => 50000
  | .sha2_128f | .shake_128f => 75000
  | .sha2_192s | .shake_192s => 100000
  | .sha2_192f | .shake_192f => 150000
  | .sha2_256s | .shake_256s => 175000
  | .sha2_256f | .shake_256f => 250000

@[simp] theorem mldsaModes_lookup_byte (mode : MLDSAMode) : mldsaModes.lookup mode.byte = some mode := by
  cases mode <;> rfl

@[simp] theorem mlkemModes_lookup_byte (mode : MLKEMMode) : mlkemModes.lookup mode.byte = some mode := by
  cases mode <;> rfl

@[simp] theorem slhdsaModes_lookup_byte (mode : SLHDSAMode) :
    slhdsaModes.lookup mode.byte = some mode := by
  cases mode <;> rfl

/-- A mode table lists each mode under its byte, so the byte a lookup finds a mode under is the
mode's byte. -/
theorem eq_byte_of_lookup {Mode : Type} {modes : List (UInt8 × Mode)} {byte : Mode → UInt8}
    (hbytes : ∀ p ∈ modes, p.1 = byte p.2) {m : UInt8} {mode : Mode}
    (h : modes.lookup m = some mode) : m = byte mode := by
  obtain ⟨l₁, l₂, rfl, -⟩ := List.lookup_eq_some_iff.1 h
  exact hbytes (m, mode) (by simp)

/-! ## Requests -/

/-- A call of the precompile, as its caller means it. -/
inductive Request
  | mldsaVerify (mode : MLDSAMode) (pubKey message signature : List UInt8)
  | mlkemEncapsulate (mode : MLKEMMode) (pubKey : List UInt8)
  | mlkemDecapsulate (mode : MLKEMMode) (privKey ciphertext : List UInt8)
  | slhdsaVerify (mode : SLHDSAMode) (pubKey message signature : List UInt8)

/-- The selector of each operation. -/
def Request.selector : Request → List UInt8
  | .mldsaVerify .. => mldsaVerifySelector
  | .mlkemEncapsulate .. => mlkemEncapsulateSelector
  | .mlkemDecapsulate .. => mlkemDecapsulateSelector
  | .slhdsaVerify .. => slhdsaVerifySelector

/-- The input of the request's handler, in the layout of the comment above the handler. -/
def Request.data : Request → List UInt8
  | .mldsaVerify mode pk msg sig => verifyInput mode.byte pk msg sig
  | .mlkemEncapsulate mode pk => mode.byte :: pk
  | .mlkemDecapsulate mode sk ct => decapsulateInput mode.byte sk ct
  | .slhdsaVerify mode pk msg sig => verifyInput mode.byte pk msg sig

/-- The input of `Run` for a request. -/
def Request.encode (req : Request) : List UInt8 := req.selector ++ req.data

/-- What a request can be encoded from: length prefixes that do not truncate, and enough bytes
after the mode byte and the length words for the handler's first length check. -/
def Request.WellFormed : Request → Prop
  | .mldsaVerify _ pk msg sig | .slhdsaVerify _ pk msg sig =>
    pk.length < 2 ^ 16 ∧ msg.length < 2 ^ 16 ∧ 0 < pk.length + msg.length + sig.length
  | .mlkemEncapsulate _ pk => 0 < pk.length
  | .mlkemDecapsulate _ sk ct => sk.length < 2 ^ 16 ∧ 0 < sk.length + ct.length

/-- The price of a request: the gas constant of its operation and mode. -/
def Request.gas : Request → UInt64
  | .mldsaVerify mode .. => mode.verifyGas
  | .mlkemEncapsulate mode _ => mode.encapsulateGas
  | .mlkemDecapsulate mode .. => mode.decapsulateGas
  | .slhdsaVerify mode .. => mode.verifyGas

/-- The meaning of a request: the verdict of the backend, or the end of the ML-KEM handler on the
request's fields. -/
def Request.eval (b : Backend) (entropy : List UInt8) : Request → Except PQError (List UInt8)
  | .mldsaVerify mode pk msg sig => verdict (b.mldsaVerify mode pk msg sig)
  | .mlkemEncapsulate mode pk => encapsulate b entropy mode pk
  | .mlkemDecapsulate mode sk ct => decapsulate b mode sk ct
  | .slhdsaVerify mode pk msg sig => verdict (b.slhdsaVerify mode pk msg sig)

theorem Request.length_selector (req : Request) : req.selector.length = 4 := by
  cases req <;> rfl

/-- An encoded request is never shorter than a selector, so `Run` goes on to price it. -/
theorem Request.not_length_encode_lt (req : Request) : ¬ req.encode.length < 4 := by
  rw [Request.encode, List.length_append, req.length_selector]
  omega

/-! ## From bytes to requests -/

theorem requiredGas_append {sel data : List UInt8} (h : sel.length = 4) :
    requiredGas (sel ++ data) =
      if sel = mldsaVerifySelector then mldsaRequiredGas data
      else if sel = mlkemEncapsulateSelector then mlkemEncapsulateRequiredGas data
      else if sel = mlkemDecapsulateSelector then mlkemDecapsulateRequiredGas data
      else if sel = slhdsaVerifySelector then slhdsaRequiredGas data
      else .ok 0 := by
  unfold requiredGas
  rw [if_neg (by simp; omega), goSlice_of_le (by omega) (by simp; omega),
    goSliceFrom_of_le (by simp; omega)]
  simp only [bind, Except.bind, List.drop_zero, Nat.sub_zero, List.take_left' h, List.drop_left' h]

theorem dispatch_append (b : Backend) (entropy : List UInt8) {sel data : List UInt8}
    (h : sel.length = 4) :
    dispatch b entropy (sel ++ data) =
      if sel = mldsaVerifySelector then mldsaVerify b data
      else if sel = mlkemEncapsulateSelector then mlkemEncapsulate b entropy data
      else if sel = mlkemDecapsulateSelector then mlkemDecapsulate b data
      else if sel = slhdsaVerifySelector then slhdsaVerify b data
      else .error (.unknownSelector sel) := by
  unfold dispatch
  rw [goSlice_of_le (by omega) (by simp; omega), goSliceFrom_of_le (by simp; omega)]
  simp only [bind, Except.bind, List.drop_zero, Nat.sub_zero, List.take_left' h, List.drop_left' h]

/-- The gas switch charges a request the price of its mode. -/
theorem requiredGas_encode (req : Request) : requiredGas req.encode = .ok req.gas := by
  rw [Request.encode, requiredGas_append req.length_selector]
  cases req with
  | mldsaVerify mode =>
    rw [Request.selector, if_pos rfl, Request.data, verifyInput, mldsaRequiredGas, modeGas_cons]
    cases mode <;> rfl
  | mlkemEncapsulate mode =>
    rw [Request.selector, if_neg (by decide), if_pos rfl, Request.data,
      mlkemEncapsulateRequiredGas, modeGas_cons]
    cases mode <;> rfl
  | mlkemDecapsulate mode =>
    rw [Request.selector, if_neg (by decide), if_neg (by decide), if_pos rfl, Request.data,
      decapsulateInput, mlkemDecapsulateRequiredGas, modeGas_cons]
    cases mode <;> rfl
  | slhdsaVerify mode =>
    rw [Request.selector, if_neg (by decide), if_neg (by decide), if_neg (by decide), if_pos rfl,
      Request.data, verifyInput, slhdsaRequiredGas, modeGas_cons]
    cases mode <;> rfl

/-- The handler of a well-formed request returns the request's meaning. -/
theorem dispatch_encode (b : Backend) (entropy : List UInt8) {req : Request}
    (hwf : req.WellFormed) : dispatch b entropy req.encode = req.eval b entropy := by
  rw [Request.encode, dispatch_append b entropy req.length_selector]
  cases req with
  | mldsaVerify mode pk msg sig =>
    rw [Request.selector, if_pos rfl]
    exact verifyFrame_verifyInput hwf.1 hwf.2.1 hwf.2.2 (mldsaModes_lookup_byte mode)
  | mlkemEncapsulate mode pk =>
    rw [Request.selector, if_neg (by decide), if_pos rfl]
    exact mlkemEncapsulate_cons hwf (mlkemModes_lookup_byte mode)
  | mlkemDecapsulate mode sk ct =>
    rw [Request.selector, if_neg (by decide), if_neg (by decide), if_pos rfl]
    exact mlkemDecapsulate_decapsulateInput hwf.1 hwf.2 (mlkemModes_lookup_byte mode)
  | slhdsaVerify mode pk msg sig =>
    rw [Request.selector, if_neg (by decide), if_neg (by decide), if_neg (by decide), if_pos rfl]
    exact verifyFrame_verifyInput hwf.1 hwf.2.1 hwf.2.2 (slhdsaModes_lookup_byte mode)

/-- A handler that succeeded was given the encoding of a well-formed request, and returned the
request's meaning. -/
theorem dispatch_eq_ok {b : Backend} {entropy input r : List UInt8}
    (h : dispatch b entropy input = .ok r) :
    ∃ req : Request, req.WellFormed ∧ input = req.encode ∧ req.eval b entropy = .ok r := by
  have h4 : 4 ≤ input.length := by
    by_contra h4
    rw [dispatch, show goSlice input 0 4 = .error .indexOutOfRange from if_neg (by omega)] at h
    cases h
  have hsel : (input.take 4).length = 4 := by simp; omega
  rw [← List.take_append_drop 4 input, dispatch_append b entropy hsel] at h
  rw [← List.take_append_drop 4 input]
  split_ifs at h with hs₁ hs₂ hs₃ hs₄
  · obtain ⟨m, mode, pk, msg, sig, hin, hpk, hmsg, h6, hm, hr⟩ := verifyFrame_eq_ok h
    have hb : m = mode.byte := eq_byte_of_lookup (by decide) hm
    exact ⟨.mldsaVerify mode pk msg sig, ⟨hpk, hmsg, h6⟩, by rw [hs₁, hin, hb]; rfl, hr⟩
  · obtain ⟨m, mode, pk, hin, hpk, hm, hr⟩ := mlkemEncapsulate_eq_ok h
    have hb : m = mode.byte := eq_byte_of_lookup (by decide) hm
    exact ⟨.mlkemEncapsulate mode pk, hpk, by rw [hs₂, hin, hb]; rfl, hr⟩
  · obtain ⟨m, mode, sk, ct, hin, hsk, hlen, hm, hr⟩ := mlkemDecapsulate_eq_ok h
    have hb : m = mode.byte := eq_byte_of_lookup (by decide) hm
    exact ⟨.mlkemDecapsulate mode sk ct, ⟨hsk, hlen⟩, by rw [hs₃, hin, hb]; rfl, hr⟩
  · obtain ⟨m, mode, pk, msg, sig, hin, hpk, hmsg, h6, hm, hr⟩ := verifyFrame_eq_ok h
    have hb : m = mode.byte := eq_byte_of_lookup (by decide) hm
    exact ⟨.slhdsaVerify mode pk msg sig, ⟨hpk, hmsg, h6⟩, by rw [hs₄, hin, hb]; rfl, hr⟩

/-! ## `Run` implements the requests -/

/-- **`Run` implements the abstract view.** On the encoding of a well-formed request, for every
backend, randomness and supplied gas: when the gas is below the request's price, no output, no gas
left and `ErrOutOfGas`; otherwise the supplied gas less the price is left, and the output or the
error is the request's meaning. -/
theorem run_encode (b : Backend) (entropy : List UInt8) {req : Request} (hwf : req.WellFormed)
    (suppliedGas : UInt64) :
    run b entropy req.encode suppliedGas =
      if suppliedGas < req.gas then ⟨[], 0, some .errOutOfGas⟩
      else RunResult.ofOutcome (req.eval b entropy) (suppliedGas - req.gas) := by
  simp only [run, if_neg req.not_length_encode_lt, requiredGas_encode, dispatch_encode b entropy hwf]

theorem run_encode_mldsa44 :
    (Request.mldsaVerify .mldsa44 [1] [2] [3]).WellFormed ∧
      run ⟨fun _ _ _ _ => .ok true, fun _ _ _ _ => .ok false, fun _ _ e => .ok (e, e),
          fun _ _ c => .ok c, fun _ => 0, fun _ => 0⟩ []
          (Request.mldsaVerify .mldsa44 [1] [2] [3]).encode 80000 =
        if (80000 : UInt64) < (Request.mldsaVerify .mldsa44 [1] [2] [3]).gas then
          ⟨[], 0, some .errOutOfGas⟩
        else RunResult.ofOutcome ((Request.mldsaVerify .mldsa44 [1] [2] [3]).eval
            ⟨fun _ _ _ _ => .ok true, fun _ _ _ _ => .ok false, fun _ _ e => .ok (e, e),
              fun _ _ c => .ok c, fun _ => 0, fun _ => 0⟩ [])
          (80000 - (Request.mldsaVerify .mldsa44 [1] [2] [3]).gas) :=
  have hwf : (Request.mldsaVerify .mldsa44 [1] [2] [3]).WellFormed := ⟨by decide, by decide, by decide⟩
  ⟨hwf, run_encode _ _ hwf _⟩

example : run ⟨fun _ _ _ _ => .ok true, fun _ _ _ _ => .ok false, fun _ _ e => .ok (e, e),
    fun _ _ c => .ok c, fun _ => 0, fun _ => 0⟩ []
    (Request.mldsaVerify .mldsa44 [1] [2] [3]).encode 80000 = ⟨[1], 5000, none⟩ := by decide

/-- **The calls that succeed.** `Run` returns no error exactly when its input is the encoding of a
well-formed request whose price the supplied gas covers and whose meaning is an output. -/
theorem run_err_eq_none_iff (b : Backend) (entropy input : List UInt8) (suppliedGas : UInt64) :
    (run b entropy input suppliedGas).err = none ↔
      ∃ req : Request, req.WellFormed ∧ input = req.encode ∧ req.gas ≤ suppliedGas ∧
        ∃ ret, req.eval b entropy = .ok ret := by
  constructor
  · intro h
    unfold run at h
    split_ifs at h with h4
    split at h
    · cases h
    rename_i p hp
    split_ifs at h with hg
    obtain ⟨ret, hd⟩ := RunResult.err_ofOutcome_eq_none.1 h
    obtain ⟨req, hwf, rfl, he⟩ := dispatch_eq_ok hd
    rw [requiredGas_encode] at hp
    cases hp
    exact ⟨req, hwf, rfl, UInt64.not_lt.1 hg, ret, he⟩
  · rintro ⟨req, hwf, rfl, hg, ret, he⟩
    simp only [run, if_neg req.not_length_encode_lt, requiredGas_encode,
      dispatch_encode b entropy hwf, if_neg (UInt64.not_lt.2 hg), he]
    exact RunResult.err_ofOutcome_eq_none.2 ⟨ret, rfl⟩

end Precompiles.PQCrypto
