import Precompiles.Foundations.Bytes

/-!
# NVTrust quotes

A model of the byte format of an NVTrust attestation quote (`ai/gpu/nvtrust.go`):
`parseNVTrustQuote` reads a quote from bytes and `serializeQuote` writes one.

A quote is a 16-byte header (version, quote type, a reserved byte, a length and a timestamp),
four 32-byte arrays (device id, firmware hash, driver hash, nonce), a flag word, the GPU model
and the driver version each behind a 2-byte length, the certificate chain behind a 4-byte length,
and the signature, which is whatever bytes are left. All words are big-endian.

The parser is written as the Go function is, check by check, so that each `if len(data) < ...`
of the source is an `if` here and returns the same error. Its spec lemmas are in
`Precompiles.Gpu.NVTrust.RoundTrip`.
-/

namespace Precompiles.Gpu

/-- `NVTrustMinQuoteSize`. -/
def nvTrustMinQuoteSize : ℕ := 128

/-- `NVTrustHeaderSize`. -/
def nvTrustHeaderSize : ℕ := 16

/-- `NVTrustCertMinSize`. -/
def nvTrustCertMinSize : ℕ := 512

/-- `NVTrustSignatureSize`, the size of an ECDSA P-384 signature. -/
def nvTrustSignatureSize : ℕ := 96

/-- `QuoteTypeLocal`. -/
def quoteTypeLocal : UInt8 := 0x01

/-- `QuoteTypeSoftware`. -/
def quoteTypeSoftware : UInt8 := 0x02

/-- `ModeLocal`. -/
def modeLocal : UInt8 := 0

/-- `ModeSoftware`. -/
def modeSoftware : UInt8 := 1

/-- The errors `ParseNVTrustQuote` returns. -/
inductive NVTrustError
  | errQuoteTooShort
  | errInvalidQuoteType
  | errInvalidVersion
  deriving DecidableEq, Repr

/-- The text of each error, as `errors.New` creates it. -/
def NVTrustError.message : NVTrustError → String
  | .errQuoteTooShort => "quote too short"
  | .errInvalidQuoteType => "invalid quote type"
  | .errInvalidVersion => "unsupported quote version"

/-- `NVTrustQuote`. A Go `string` or `[]byte` field is a byte list; a nil slice and an empty one
are the same list. -/
structure NVTrustQuote where
  version : UInt16
  quoteType : UInt8
  reserved : UInt8
  length : UInt32
  timestamp : UInt64
  deviceID : FixedBytes 32
  firmwareHash : FixedBytes 32
  driverHash : FixedBytes 32
  nonce : FixedBytes 32
  ccEnabled : Bool
  teeIOEnabled : Bool
  certChain : List UInt8
  signature : List UInt8
  gpuModel : List UInt8
  driverVersion : List UInt8
  deriving DecidableEq

attribute [simp] FixedBytes.length_toList

/-- The Go slice expression `data[off : off + n]`. -/
def byteSlice (data : List UInt8) (off n : ℕ) : List UInt8 := (data.drop off).take n

/-- `copy(a[:], src)` into a zeroed `[n]byte`. -/
def FixedBytes.copyFrom (n : ℕ) (src : List UInt8) : FixedBytes n :=
  ⟨goCopy (List.replicate n 0) src, by simp⟩

@[simp] theorem FixedBytes.copyFrom_toList {n : ℕ} (b : FixedBytes n) :
    FixedBytes.copyFrom n b.toList = b := by
  ext1
  simpa [FixedBytes.copyFrom] using goCopy_replicate_length b.toList

/-- The flag word `SerializeQuote` and `verifyQuoteSignature` both build: bit 0 is
`CCEnabled`, bit 1 is `TEEIOEnabled`. -/
def quoteFlags (ccEnabled teeIOEnabled : Bool) : UInt16 :=
  let flags : UInt16 := 0
  let flags := if ccEnabled then flags ||| 0x0001 else flags
  if teeIOEnabled then flags ||| 0x0002 else flags

/-- Bit 0 of the flag word reads back `CCEnabled`. -/
@[simp] theorem decide_quoteFlags_and_one (c t : Bool) :
    decide (quoteFlags c t &&& 0x0001 ≠ 0) = c := by
  cases c <;> cases t <;> decide

/-- Bit 1 of the flag word reads back `TEEIOEnabled`. -/
@[simp] theorem decide_quoteFlags_and_two (c t : Bool) :
    decide (quoteFlags c t &&& 0x0002 ≠ 0) = t := by
  cases c <;> cases t <;> decide

/-- `ParseNVTrustQuote`. Each `return nil, err` of the source is an `.error` branch. -/
def parseNVTrustQuote (data : List UInt8) : Except NVTrustError NVTrustQuote :=
  if data.length < nvTrustMinQuoteSize then .error .errQuoteTooShort else
  let version := uint16Of (byteSlice data 0 2)
  let quoteType := data.getD 2 0
  let reserved := data.getD 3 0
  let length := uint32Of (byteSlice data 4 4)
  let timestamp := uint64Of (byteSlice data 8 8)
  if version < 1 ∨ version > 2 then .error .errInvalidVersion else
  if quoteType ≠ quoteTypeLocal ∧ quoteType ≠ quoteTypeSoftware then
    .error .errInvalidQuoteType else
  let offset := nvTrustHeaderSize
  if data.length < offset + 32 then .error .errQuoteTooShort else
  let deviceID := FixedBytes.copyFrom 32 (byteSlice data offset 32)
  let offset := offset + 32
  if data.length < offset + 32 then .error .errQuoteTooShort else
  let firmwareHash := FixedBytes.copyFrom 32 (byteSlice data offset 32)
  let offset := offset + 32
  if data.length < offset + 32 then .error .errQuoteTooShort else
  let driverHash := FixedBytes.copyFrom 32 (byteSlice data offset 32)
  let offset := offset + 32
  if data.length < offset + 32 then .error .errQuoteTooShort else
  let nonce := FixedBytes.copyFrom 32 (byteSlice data offset 32)
  let offset := offset + 32
  if data.length < offset + 2 then .error .errQuoteTooShort else
  let flags := uint16Of (byteSlice data offset 2)
  let offset := offset + 2
  if data.length < offset + 2 then .error .errQuoteTooShort else
  let modelLen := (uint16Of (byteSlice data offset 2)).toNat
  let offset := offset + 2
  if data.length < offset + modelLen then .error .errQuoteTooShort else
  let gpuModel := byteSlice data offset modelLen
  let offset := offset + modelLen
  if data.length < offset + 2 then .error .errQuoteTooShort else
  let driverLen := (uint16Of (byteSlice data offset 2)).toNat
  let offset := offset + 2
  if data.length < offset + driverLen then .error .errQuoteTooShort else
  let driverVersion := byteSlice data offset driverLen
  let offset := offset + driverLen
  if data.length < offset + 4 then .error .errQuoteTooShort else
  let certLen := (uint32Of (byteSlice data offset 4)).toNat
  let offset := offset + 4
  if data.length < offset + certLen then .error .errQuoteTooShort else
  let certChain := goCopy (List.replicate certLen 0) (byteSlice data offset certLen)
  let offset := offset + certLen
  let signature :=
    if data.length > offset then
      goCopy (List.replicate (data.length - offset) 0) (data.drop offset)
    else []
  .ok { version, quoteType, reserved, length, timestamp, deviceID, firmwareHash, driverHash,
        nonce, ccEnabled := flags &&& 0x0001 ≠ 0, teeIOEnabled := flags &&& 0x0002 ≠ 0,
        certChain, signature, gpuModel, driverVersion }

/-- `SerializeQuote`. The Go function allocates a buffer of exactly the size of the fields and
writes each field after the last, so the buffer is their concatenation; a length prefix is the
length truncated to its word, `uint16(len(...))` or `uint32(len(...))`. -/
def serializeQuote (q : NVTrustQuote) : List UInt8 :=
  putUint16 q.version ++ [q.quoteType, q.reserved] ++ putUint32 q.length ++
    putUint64 q.timestamp ++ q.deviceID.toList ++ q.firmwareHash.toList ++ q.driverHash.toList ++
    q.nonce.toList ++ putUint16 (quoteFlags q.ccEnabled q.teeIOEnabled) ++
    putUint16 (UInt16.ofNat q.gpuModel.length) ++ q.gpuModel ++
    putUint16 (UInt16.ofNat q.driverVersion.length) ++ q.driverVersion ++
    putUint32 (UInt32.ofNat q.certChain.length) ++ q.certChain ++ q.signature

theorem length_serializeQuote (q : NVTrustQuote) : (serializeQuote q).length =
    154 + q.gpuModel.length + q.driverVersion.length + q.certChain.length + q.signature.length := by
  simp only [serializeQuote, List.length_append, length_putUint16, length_putUint32,
    length_putUint64, FixedBytes.length_toList, List.length_cons, List.length_nil]
  omega

end Precompiles.Gpu
