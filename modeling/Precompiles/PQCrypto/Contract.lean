import Precompiles.Foundations.Bytes

/-!
# The post-quantum cryptography precompile

A model of `pqcrypto/contract.go`. The precompile reads a 4-byte selector and dispatches to
ML-DSA or SLH-DSA signature verification, or to ML-KEM encapsulation or decapsulation; it
charges gas by selector and mode byte before it runs.

The schemes themselves are in `luxfi/crypto`, outside src/: the model takes them as a
`Backend`. ML-KEM encapsulation draws its randomness from `crypto/rand`; the model passes the
bytes it draws as an explicit argument, `entropy`.

Go's index and slice expressions panic when out of range. The model reads the input through
`goIndex`, `goSlice` and `goSliceFrom`, which return `indexOutOfRange` there, so that a panic of
the precompile is an outcome of the model (`Precompiles.PQCrypto.Run` shows it has
none).
-/

namespace Precompiles.PQCrypto

/-! ## Selectors and modes -/

/-- `MLDSAVerifySelector`. -/
def mldsaVerifySelector : List UInt8 := strBytes "mlds"

/-- `MLKEMEncapsulateSelector`. -/
def mlkemEncapsulateSelector : List UInt8 := strBytes "encp"

/-- `MLKEMDecapsulateSelector`. -/
def mlkemDecapsulateSelector : List UInt8 := strBytes "decp"

/-- `SLHDSAVerifySelector`. -/
def slhdsaVerifySelector : List UInt8 := strBytes "slhs"

/-- `mldsa.Mode`. -/
inductive MLDSAMode
  | mldsa44 | mldsa65 | mldsa87
  deriving DecidableEq, Repr

/-- `mlkem.Mode`. -/
inductive MLKEMMode
  | mlkem512 | mlkem768 | mlkem1024
  deriving DecidableEq, Repr

/-- `slhdsa.Mode`. -/
inductive SLHDSAMode
  | sha2_128s | sha2_128f | sha2_192s | sha2_192f | sha2_256s | sha2_256f
  | shake_128s | shake_128f | shake_192s | shake_192f | shake_256s | shake_256f
  deriving DecidableEq, Repr

/-! The mode bytes, `MLDSAMode44`, ..., `SLHDSAModeSHAKE_256f`. -/

def mldsaMode44 : UInt8 := 0x44
def mldsaMode65 : UInt8 := 0x65
def mldsaMode87 : UInt8 := 0x87

def mlkemMode512 : UInt8 := 0x00
def mlkemMode768 : UInt8 := 0x01
def mlkemMode1024 : UInt8 := 0x02

def slhdsaModeSHA2_128s : UInt8 := 0x00
def slhdsaModeSHA2_128f : UInt8 := 0x01
def slhdsaModeSHA2_192s : UInt8 := 0x02
def slhdsaModeSHA2_192f : UInt8 := 0x03
def slhdsaModeSHA2_256s : UInt8 := 0x04
def slhdsaModeSHA2_256f : UInt8 := 0x05
def slhdsaModeSHAKE_128s : UInt8 := 0x10
def slhdsaModeSHAKE_128f : UInt8 := 0x11
def slhdsaModeSHAKE_192s : UInt8 := 0x12
def slhdsaModeSHAKE_192f : UInt8 := 0x13
def slhdsaModeSHAKE_256s : UInt8 := 0x14
def slhdsaModeSHAKE_256f : UInt8 := 0x15

/-! ## Errors and Go reads -/

/-- The errors the precompile returns, and the runtime panic of an out-of-range read. -/
inductive PQError
  | errInvalidInput
  | errInvalidMode (scheme : String) (modeByte : UInt8)
  | errInvalidSize (field : String) (expected got : ℕ)
  | errOutOfGas
  | unknownSelector (selector : List UInt8)
  | backend (message : String)
  | indexOutOfRange
  deriving DecidableEq, Repr

/-- The text of each error: the `errors.New` text, or the format string of `fmt.Errorf`, where
`%w` is the wrapped `errInvalidMode` or `errInvalidInput`. -/
def PQError.format : PQError → String
  | .errInvalidInput => "invalid input"
  | .errInvalidMode scheme _ => "%w: " ++ scheme ++ " mode 0x%02x"
  | .errInvalidSize field _ _ => "%w: expected " ++ field ++ " size %d, got %d"
  | .errOutOfGas => "out of gas"
  | .unknownSelector _ => "unknown function selector: %x"
  | .backend message => message
  | .indexOutOfRange => "runtime error: index out of range"

/-- `s[i]`. -/
def goIndex (s : List UInt8) (i : ℕ) : Except PQError UInt8 :=
  match s[i]? with
  | some b => .ok b
  | none => .error .indexOutOfRange

/-- `s[lo:hi]`, in range when `lo ≤ hi ≤ len(s)`. -/
def goSlice (s : List UInt8) (lo hi : ℕ) : Except PQError (List UInt8) :=
  if lo ≤ hi ∧ hi ≤ s.length then .ok ((s.drop lo).take (hi - lo)) else .error .indexOutOfRange

/-- `s[lo:]`, in range when `lo ≤ len(s)`. -/
def goSliceFrom (s : List UInt8) (lo : ℕ) : Except PQError (List UInt8) :=
  if lo ≤ s.length then .ok (s.drop lo) else .error .indexOutOfRange

theorem goIndex_of_lt {s : List UInt8} {i : ℕ} (h : i < s.length) :
    goIndex s i = .ok (s.getD i 0) := by
  simp [goIndex, List.getElem?_eq_getElem h, List.getD_eq_getElem?_getD]

theorem goSlice_of_le {s : List UInt8} {lo hi : ℕ} (h₁ : lo ≤ hi) (h₂ : hi ≤ s.length) :
    goSlice s lo hi = .ok ((s.drop lo).take (hi - lo)) := if_pos ⟨h₁, h₂⟩

theorem goSliceFrom_of_le {s : List UInt8} {lo : ℕ} (h : lo ≤ s.length) :
    goSliceFrom s lo = .ok (s.drop lo) := if_pos h

/-! ## Gas -/

/-- The shape shared by `mldsaRequiredGas`, `mlkemEncapsulateRequiredGas`,
`mlkemDecapsulateRequiredGas` and `slhdsaRequiredGas`: the scheme's default for empty data, else
the `switch` on the mode byte, `table`, with the default as its `default` case. -/
def modeGas (table : List (UInt8 × UInt64)) (default : UInt64) (input : List UInt8) :
    Except PQError UInt64 :=
  if input.length < 1 then .ok default
  else do
    let mode ← goIndex input 0
    return (table.lookup mode).getD default

/-- The gas `switch` of `mldsaRequiredGas`: `MLDSA44VerifyGas`, `MLDSA65VerifyGas`,
`MLDSA87VerifyGas`. -/
def mldsaGasTable : List (UInt8 × UInt64) :=
  [(mldsaMode44, 75000), (mldsaMode65, 100000), (mldsaMode87, 150000)]

/-- The gas `switch` of `mlkemEncapsulateRequiredGas`: `MLKEM512EncapsulateGas`, ... -/
def mlkemEncapsulateGasTable : List (UInt8 × UInt64) :=
  [(mlkemMode512, 6000), (mlkemMode768, 8000), (mlkemMode1024, 10000)]

/-- The gas `switch` of `mlkemDecapsulateRequiredGas`: `MLKEM512DecapsulateGas`, ... -/
def mlkemDecapsulateGasTable : List (UInt8 × UInt64) :=
  [(mlkemMode512, 6000), (mlkemMode768, 8000), (mlkemMode1024, 10000)]

/-- The gas `switch` of `slhdsaRequiredGas`, whose cases pair the SHA2 and SHAKE modes of one
security level: `SLHDSA128sVerifyGas`, ..., `SLHDSA256fVerifyGas`. -/
def slhdsaGasTable : List (UInt8 × UInt64) :=
  [(slhdsaModeSHA2_128s, 50000), (slhdsaModeSHAKE_128s, 50000),
    (slhdsaModeSHA2_128f, 75000), (slhdsaModeSHAKE_128f, 75000),
    (slhdsaModeSHA2_192s, 100000), (slhdsaModeSHAKE_192s, 100000),
    (slhdsaModeSHA2_192f, 150000), (slhdsaModeSHAKE_192f, 150000),
    (slhdsaModeSHA2_256s, 175000), (slhdsaModeSHAKE_256s, 175000),
    (slhdsaModeSHA2_256f, 250000), (slhdsaModeSHAKE_256f, 250000)]

/-- `mldsaRequiredGas`, with `MLDSADefaultGas`. -/
def mldsaRequiredGas (input : List UInt8) : Except PQError UInt64 :=
  modeGas mldsaGasTable 100000 input

/-- `mlkemEncapsulateRequiredGas`, with `MLKEMDefaultGas`. -/
def mlkemEncapsulateRequiredGas (input : List UInt8) : Except PQError UInt64 :=
  modeGas mlkemEncapsulateGasTable 8000 input

/-- `mlkemDecapsulateRequiredGas`, with `MLKEMDefaultGas`. -/
def mlkemDecapsulateRequiredGas (input : List UInt8) : Except PQError UInt64 :=
  modeGas mlkemDecapsulateGasTable 8000 input

/-- `slhdsaRequiredGas`, with `SLHDSADefaultGas`. -/
def slhdsaRequiredGas (input : List UInt8) : Except PQError UInt64 :=
  modeGas slhdsaGasTable 100000 input

/-- `RequiredGas`. -/
def requiredGas (input : List UInt8) : Except PQError UInt64 :=
  if input.length < 4 then .ok 0
  else do
    let selector ← goSlice input 0 4
    let data ← goSliceFrom input 4
    if selector = mldsaVerifySelector then mldsaRequiredGas data
    else if selector = mlkemEncapsulateSelector then mlkemEncapsulateRequiredGas data
    else if selector = mlkemDecapsulateSelector then mlkemDecapsulateRequiredGas data
    else if selector = slhdsaVerifySelector then slhdsaRequiredGas data
    else .ok 0

/-! ## The operations -/

/-- The calls into `luxfi/crypto`. A verification decodes the public key, which can fail, and
checks the signature; an ML-KEM operation decodes its key and encapsulates, with the randomness it
is given, or decapsulates. The sizes are the ML-KEM public key and ciphertext sizes of each
mode. -/
structure Backend where
  mldsaVerify : MLDSAMode → (pubKey message signature : List UInt8) → Except String Bool
  slhdsaVerify : SLHDSAMode → (pubKey message signature : List UInt8) → Except String Bool
  mlkemEncapsulate : MLKEMMode → (pubKey entropy : List UInt8) →
    Except String (List UInt8 × List UInt8)
  mlkemDecapsulate : MLKEMMode → (privKey ciphertext : List UInt8) → Except String (List UInt8)
  mlkemPublicKeySize : MLKEMMode → ℕ
  mlkemCiphertextSize : MLKEMMode → ℕ

/-- The mode `switch` of `mldsaVerify`. -/
def mldsaModes : List (UInt8 × MLDSAMode) :=
  [(mldsaMode44, .mldsa44), (mldsaMode65, .mldsa65), (mldsaMode87, .mldsa87)]

/-- The mode `switch` of `mlkemEncapsulate` and `mlkemDecapsulate`. -/
def mlkemModes : List (UInt8 × MLKEMMode) :=
  [(mlkemMode512, .mlkem512), (mlkemMode768, .mlkem768), (mlkemMode1024, .mlkem1024)]

/-- The mode `switch` of `slhdsaVerify`. -/
def slhdsaModes : List (UInt8 × SLHDSAMode) :=
  [(slhdsaModeSHA2_128s, .sha2_128s), (slhdsaModeSHA2_128f, .sha2_128f),
    (slhdsaModeSHA2_192s, .sha2_192s), (slhdsaModeSHA2_192f, .sha2_192f),
    (slhdsaModeSHA2_256s, .sha2_256s), (slhdsaModeSHA2_256f, .sha2_256f),
    (slhdsaModeSHAKE_128s, .shake_128s), (slhdsaModeSHAKE_128f, .shake_128f),
    (slhdsaModeSHAKE_192s, .shake_192s), (slhdsaModeSHAKE_192f, .shake_192f),
    (slhdsaModeSHAKE_256s, .shake_256s), (slhdsaModeSHAKE_256f, .shake_256f)]

/-- The last lines of `mldsaVerify` and `slhdsaVerify`: a key the backend cannot decode is its
error, and a verdict is one byte. -/
def verdict : Except String Bool → Except PQError (List UInt8)
  | .error e => .error (.backend e)
  | .ok valid => .ok (if valid then [1] else [0])

/-- The body shared by `mldsaVerify` and `slhdsaVerify`, which differ only in their mode
`switch`, the scheme named in the mode error and the verification they call. The input is
`[mode(1)] [pubkey_len(2)] [pubkey] [msg_len(2)] [msg] [sig]`; the result is `[1]` for a valid
signature and `[0]` for an invalid one. -/
def verifyFrame {Mode : Type} (modes : List (UInt8 × Mode)) (scheme : String)
    (verify : Mode → List UInt8 → List UInt8 → List UInt8 → Except String Bool)
    (input : List UInt8) : Except PQError (List UInt8) :=
  if input.length < 6 then .error .errInvalidInput
  else do
    let modeByte ← goIndex input 0
    match modes.lookup modeByte with
    | none => .error (.errInvalidMode scheme modeByte)
    | some mode => do
      let pubKeyLen := (← goIndex input 1).toNat <<< 8 ||| (← goIndex input 2).toNat
      if input.length < 3 + pubKeyLen + 2 then .error .errInvalidInput
      else do
        let pubKeyBytes ← goSlice input 3 (3 + pubKeyLen)
        let msgLen := (← goIndex input (3 + pubKeyLen)).toNat <<< 8 |||
          (← goIndex input (3 + pubKeyLen + 1)).toNat
        if input.length < 3 + pubKeyLen + 2 + msgLen then .error .errInvalidInput
        else do
          let message ← goSlice input (3 + pubKeyLen + 2) (3 + pubKeyLen + 2 + msgLen)
          let signature ← goSliceFrom input (3 + pubKeyLen + 2 + msgLen)
          verdict (verify mode pubKeyBytes message signature)

/-- `mldsaVerify`. -/
def mldsaVerify (b : Backend) (input : List UInt8) : Except PQError (List UInt8) :=
  verifyFrame mldsaModes "ML-DSA" b.mldsaVerify input

/-- `slhdsaVerify`. -/
def slhdsaVerify (b : Backend) (input : List UInt8) : Except PQError (List UInt8) :=
  verifyFrame slhdsaModes "SLH-DSA" b.slhdsaVerify input

/-- The end of `mlkemEncapsulate`, from the size check of the public key on. -/
def encapsulate (b : Backend) (entropy : List UInt8) (mode : MLKEMMode) (pubKey : List UInt8) :
    Except PQError (List UInt8) :=
  if pubKey.length ≠ b.mlkemPublicKeySize mode then
    .error (.errInvalidSize "pubkey" (b.mlkemPublicKeySize mode) pubKey.length)
  else
    match b.mlkemEncapsulate mode pubKey entropy with
    | .error e => .error (.backend e)
    | .ok (ciphertext, sharedSecret) => .ok (ciphertext ++ sharedSecret)

/-- `mlkemEncapsulate`: input `[mode(1)] [pubkey]`, output `[ciphertext] [shared_secret]`. -/
def mlkemEncapsulate (b : Backend) (entropy input : List UInt8) : Except PQError (List UInt8) :=
  if input.length < 2 then .error .errInvalidInput
  else do
    let modeByte ← goIndex input 0
    match mlkemModes.lookup modeByte with
    | none => .error (.errInvalidMode "ML-KEM" modeByte)
    | some mode => do
      let pubKeyBytes ← goSliceFrom input 1
      encapsulate b entropy mode pubKeyBytes

/-- The end of `mlkemDecapsulate`, from the size check of the ciphertext on. -/
def decapsulate (b : Backend) (mode : MLKEMMode) (privKey ciphertext : List UInt8) :
    Except PQError (List UInt8) :=
  if ciphertext.length ≠ b.mlkemCiphertextSize mode then
    .error (.errInvalidSize "ciphertext" (b.mlkemCiphertextSize mode) ciphertext.length)
  else
    match b.mlkemDecapsulate mode privKey ciphertext with
    | .error e => .error (.backend e)
    | .ok sharedSecret => .ok sharedSecret

/-- `mlkemDecapsulate`: input `[mode(1)] [privkey_len(2)] [privkey] [ciphertext]`, output
`[shared_secret]`. -/
def mlkemDecapsulate (b : Backend) (input : List UInt8) : Except PQError (List UInt8) :=
  if input.length < 4 then .error .errInvalidInput
  else do
    let modeByte ← goIndex input 0
    match mlkemModes.lookup modeByte with
    | none => .error (.errInvalidMode "ML-KEM" modeByte)
    | some mode => do
      let privKeyLen := (← goIndex input 1).toNat <<< 8 ||| (← goIndex input 2).toNat
      if input.length < 3 + privKeyLen then .error .errInvalidInput
      else do
        let privKeyBytes ← goSlice input 3 (3 + privKeyLen)
        let ciphertext ← goSliceFrom input (3 + privKeyLen)
        decapsulate b mode privKeyBytes ciphertext

/-! ## `Run` -/

/-- What `Run` returns: the output, the gas left and the error. -/
structure RunResult where
  ret : List UInt8
  remainingGas : UInt64
  err : Option PQError
  deriving DecidableEq, Repr

/-- The `switch` of `Run` on the selector. -/
def dispatch (b : Backend) (entropy input : List UInt8) : Except PQError (List UInt8) := do
  let selector ← goSlice input 0 4
  let data ← goSliceFrom input 4
  if selector = mldsaVerifySelector then mldsaVerify b data
  else if selector = mlkemEncapsulateSelector then mlkemEncapsulate b entropy data
  else if selector = mlkemDecapsulateSelector then mlkemDecapsulate b data
  else if selector = slhdsaVerifySelector then slhdsaVerify b data
  else .error (.unknownSelector selector)

/-- The end of `Run`: the operation's output, or no output and its error (every operation
returns no output on error), with the gas left after charging for it. -/
def RunResult.ofOutcome (outcome : Except PQError (List UInt8)) (remainingGas : UInt64) :
    RunResult :=
  match outcome with
  | .ok ret => ⟨ret, remainingGas, none⟩
  | .error e => ⟨[], remainingGas, some e⟩

@[simp] theorem RunResult.remainingGas_ofOutcome (outcome : Except PQError (List UInt8))
    (remainingGas : UInt64) : (RunResult.ofOutcome outcome remainingGas).remainingGas = remainingGas := by
  cases outcome <;> rfl

theorem RunResult.err_ofOutcome_eq_some {outcome : Except PQError (List UInt8)}
    {remainingGas : UInt64} {e : PQError} :
    (RunResult.ofOutcome outcome remainingGas).err = some e ↔ outcome = .error e := by
  cases outcome <;> simp [RunResult.ofOutcome]

theorem RunResult.err_ofOutcome_eq_none {outcome : Except PQError (List UInt8)}
    {remainingGas : UInt64} :
    (RunResult.ofOutcome outcome remainingGas).err = none ↔ ∃ ret, outcome = .ok ret := by
  cases outcome <;> simp [RunResult.ofOutcome]

/-- `Run`. -/
def run (b : Backend) (entropy input : List UInt8) (suppliedGas : UInt64) : RunResult :=
  if input.length < 4 then ⟨[], suppliedGas, some .errInvalidInput⟩
  else
    match requiredGas input with
    | .error e => ⟨[], suppliedGas, some e⟩
    | .ok requiredGas =>
      if suppliedGas < requiredGas then ⟨[], 0, some .errOutOfGas⟩
      else RunResult.ofOutcome (dispatch b entropy input) (suppliedGas - requiredGas)

end Precompiles.PQCrypto
