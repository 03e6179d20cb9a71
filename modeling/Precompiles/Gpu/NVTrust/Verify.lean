import Precompiles.Gpu.NVTrust.Quote

/-!
# Verifying a quote

A model of the local NVTrust verifier (`ai/gpu/nvtrust.go`): the checks of a quote's
certificate chain, signature and reference measurements (RIM), and the two entry points that
combine them, `verifyNVTrustQuote`, which returns a validity flag and a trust score, and
`verifyNVTrustQuoteFull`, which returns an `NVTrustResult`.

`verifyQuoteSignature` hashes the quote without its signature and discards the digest; the model
returns the bytes it writes into the hasher (`signedMessage`) next to its verdict.

* `verifyNVTrustQuote_eq_full`: the two entry points agree on validity, and on the trust score
  except for a quote that enables confidential computing on a GPU model that is not
  hardware-CC capable, which the first scores 15 higher.
* `findSubstring_spec`: the nested loops of `findSubstring` return the first index at which the
  substring starts, and `-1` exactly when there is none.
* `isHardwareCCCapable_iff`: a GPU model is hardware-CC capable exactly when its name contains
  the name of a listed model, so that `"GH200"` and `"GB200"` are matched by `"H200"` and
  `"B200"`, and so is every name that merely contains one of them.
-/

namespace Precompiles.Gpu

/-- `NVTrustResult`. -/
structure NVTrustResult where
  valid : Bool
  trustScore : UInt8
  hardwareCC : Bool
  rimVerified : Bool
  mode : UInt8
  deriving DecidableEq, Repr

/-! ## GPU models -/

/-- The loop of `findSubstring` from index `i` with `n` iterations left; the inner loop compares
`str[i+j]` with `substr[j]` for each `j < len(substr)`. -/
def findSubstringFrom (str substr : List UInt8) : ℕ → ℕ → ℤ
  | _, 0 => -1
  | i, n + 1 =>
    if (List.range substr.length).all fun j => str.getD (i + j) 0 == substr.getD j 0 then i
    else findSubstringFrom str substr (i + 1) n

/-- `findSubstring`. Its loop runs `i` from `0` to `len(str) - len(substr)`, an `int` that is
negative, so that the loop does not run, when `substr` is the longer. -/
def findSubstring (str substr : List UInt8) : ℤ :=
  findSubstringFrom str substr 0 (str.length + 1 - substr.length)

/-- `contains`. -/
def contains (str substr : List UInt8) : Bool :=
  str.length ≥ substr.length && findSubstring str substr ≥ 0

/-- The CC-capable GPU models of `isHardwareCCCapable` (Hopper and newer). -/
def ccCapable : List (List UInt8) :=
  ["H100", "H200", "B100", "B200", "GB200", "GH200", "RTX PRO 6000"].map strBytes

/-- `isHardwareCCCapable`. -/
def isHardwareCCCapable (model : List UInt8) : Bool :=
  ccCapable.any fun m => model == m || contains model m

/-! ### Searching a model name -/

theorem isInfix_iff_prefix_drop {α : Type} {l₁ l₂ : List α} :
    l₁ <:+: l₂ ↔ ∃ k, k + l₁.length ≤ l₂.length ∧ l₁ <+: l₂.drop k := by
  constructor
  · intro h
    obtain ⟨t, hp, hs⟩ := List.infix_iff_prefix_suffix.1 h
    refine ⟨l₂.length - t.length, ?_, List.suffix_iff_eq_drop.1 hs ▸ hp⟩
    have := hp.length_le
    have := hs.length_le
    omega
  · rintro ⟨k, -, h⟩
    exact List.infix_iff_prefix_suffix.2 ⟨_, h, List.drop_suffix k l₂⟩

/-- The inner loop of `findSubstring` at an index where `substr` fits finds a match exactly when
`substr` starts there. -/
theorem all_range_iff_prefix_drop {str substr : List UInt8} {i : ℕ}
    (hi : i + substr.length ≤ str.length) :
    ((List.range substr.length).all fun j => str.getD (i + j) 0 == substr.getD j 0) = true ↔
      substr <+: str.drop i := by
  rw [List.isPrefix_iff, List.all_eq_true]
  simp only [List.mem_range, beq_iff_eq, List.getElem?_drop]
  refine forall_congr' fun j => ⟨fun h hj => ?_, fun h hj => ?_⟩
  · rw [List.getElem?_eq_getElem (by omega), ← List.getD_eq_getElem _ 0, h hj, List.getD_eq_getElem]
  · rw [List.getD_eq_getElem _ _ (by omega), List.getD_eq_getElem _ _ hj]
    simpa [List.getElem?_eq_getElem (show i + j < str.length by omega)] using h hj

/-- **Loop lemma.** Run from index `i` with `n` iterations left, none of them past the last index
at which `substr` fits, the loop of `findSubstring` returns the first index from `i` at which
`substr` starts, and `-1` when there is none below `i + n`. -/
theorem findSubstringFrom_spec (str substr : List UInt8) (i n : ℕ)
    (hn : i + n ≤ str.length + 1 - substr.length) :
    (findSubstringFrom str substr i n = -1 ∧ ∀ k, i ≤ k → k < i + n → ¬substr <+: str.drop k) ∨
      ∃ k : ℕ, findSubstringFrom str substr i n = k ∧ i ≤ k ∧ substr <+: str.drop k ∧
        ∀ k', i ≤ k' → k' < k → ¬substr <+: str.drop k' := by
  induction n generalizing i with
  | zero => exact .inl ⟨rfl, fun k h₁ h₂ => by omega⟩
  | succ n ih =>
    have hfit : i + substr.length ≤ str.length := by omega
    simp only [findSubstringFrom]
    split_ifs with hm
    · exact .inr ⟨i, rfl, le_rfl, (all_range_iff_prefix_drop hfit).1 hm, fun k' h₁ h₂ => by omega⟩
    · have hi : ¬substr <+: str.drop i := mt (all_range_iff_prefix_drop hfit).2 hm
      rcases ih (i + 1) (by omega) with ⟨hr, hno⟩ | ⟨k, hr, hk, hp, hfirst⟩
      · refine .inl ⟨hr, fun k h₁ h₂ => ?_⟩
        rcases Nat.eq_or_lt_of_le h₁ with rfl | h₁
        exacts [hi, hno k h₁ (by omega)]
      · refine .inr ⟨k, hr, by omega, hp, fun k' h₁ h₂ => ?_⟩
        rcases Nat.eq_or_lt_of_le h₁ with rfl | h₁
        exacts [hi, hfirst k' h₁ h₂]

/-- No index at which `substr` fits starts it: then `str` does not contain it. -/
theorem not_isInfix_of_no_occurrence {str substr : List UInt8}
    (h : ∀ k, k < str.length + 1 - substr.length → ¬substr <+: str.drop k) : ¬substr <:+: str := by
  intro hin
  obtain ⟨k, hk, hp⟩ := isInfix_iff_prefix_drop.1 hin
  exact h k (by omega) hp

/-- **`findSubstring` finds the first occurrence.** It returns the first index at which `substr`
starts in `str`, and `-1` exactly when `str` does not contain `substr`. -/
theorem findSubstring_spec (str substr : List UInt8) :
    (findSubstring str substr = -1 ∧ ¬substr <:+: str) ∨
      ∃ k : ℕ, findSubstring str substr = k ∧ substr <+: str.drop k ∧
        ∀ k' < k, ¬substr <+: str.drop k' := by
  rcases findSubstringFrom_spec str substr 0 (str.length + 1 - substr.length) (by simp) with
    ⟨hr, hno⟩ | ⟨k, hr, -, hp, hfirst⟩
  · exact .inl ⟨hr, not_isInfix_of_no_occurrence fun k hk => hno k k.zero_le (by omega)⟩
  · exact .inr ⟨k, hr, hp, fun k' => hfirst k' k'.zero_le⟩

theorem findSubstring_nonneg_iff (str substr : List UInt8) :
    0 ≤ findSubstring str substr ↔ substr <:+: str := by
  rcases findSubstringFrom_spec str substr 0 (str.length + 1 - substr.length) (by simp) with
    ⟨hr, hno⟩ | ⟨k, hr, -, hp, -⟩
  · rw [findSubstring, hr]
    exact iff_of_false (by decide)
      (not_isInfix_of_no_occurrence fun k hk => hno k k.zero_le (by omega))
  · rw [findSubstring, hr]
    exact iff_of_true (Int.natCast_nonneg k)
      (List.infix_iff_prefix_suffix.2 ⟨_, hp, List.drop_suffix k str⟩)

/-- `contains` is the test for a substring. -/
theorem contains_iff (str substr : List UInt8) : contains str substr = true ↔ substr <:+: str := by
  simp only [contains, Bool.and_eq_true, decide_eq_true_eq, ge_iff_le, findSubstring_nonneg_iff]
  exact ⟨And.right, fun h => ⟨h.length_le, h⟩⟩

/-- **`isHardwareCCCapable` is a substring test.** It accepts exactly the model names that
contain one of the CC-capable models: the test for equality adds nothing to `contains`. -/
theorem isHardwareCCCapable_iff (model : List UInt8) :
    isHardwareCCCapable model = true ↔ ∃ m ∈ ccCapable, m <:+: model := by
  simp only [isHardwareCCCapable, List.any_eq_true, Bool.or_eq_true, beq_iff_eq, contains_iff]
  refine exists_congr fun m => and_congr_right fun _ => or_iff_right_of_imp ?_
  rintro rfl
  exact List.infix_refl _

/-! ## Reference measurements -/

/-- The reference measurements of one GPU model. -/
structure RIM where
  firmware : FixedBytes 32
  driver : FixedBytes 32

/-- `knownRIMs`. Its digests are `sha256.Sum256` of the reference strings
`"H100_VBIOS_96.00.7C.00.00"`, `"H200_VBIOS_96.00.90.00.00"` and
`"NVIDIA-Linux-x86_64-550.67"`, written out. -/
def knownRIMs : List (List UInt8 × RIM) :=
  [(strBytes "H100",
      ⟨.ofNat 32 0x183f900ed3dedc8265844759821b79a1592d50b9f6acda29a690d95582014b14,
        .ofNat 32 0x091a572db81429d1b32c8efbef1e13b7e39f3cbdc1ad9c3da8bcef19f3b9174e⟩),
    (strBytes "H200",
      ⟨.ofNat 32 0x66f1bfcbf9021089a1ae08f062d5078908f3d3c194c57c1f921568af44b757b4,
        .ofNat 32 0x091a572db81429d1b32c8efbef1e13b7e39f3cbdc1ad9c3da8bcef19f3b9174e⟩)]

/-- `verifyRIM`. The byte loops compare two 32-byte sequences, after the length checks. -/
def verifyRIM (model firmware driver : List UInt8) : Bool :=
  match knownRIMs.lookup model with
  | none => false
  | some rim =>
    if firmware.length ≠ 32 then false
    else if firmware ≠ rim.firmware.toList then false
    else if driver.length ≠ 32 then false
    else if driver ≠ rim.driver.toList then false
    else true

/-! ## Certificate chain and signature -/

/-- `verifyCertChain`: a DER sequence whose long-form length fits, or a PEM header. -/
def verifyCertChain (certChain : List UInt8) : Bool :=
  if certChain.length < nvTrustCertMinSize then false
  else if certChain.length < 4 then false
  else if certChain.getD 0 0 = 0x30 then
    if certChain.getD 1 0 = 0x82 then
      let certLen := (certChain.getD 2 0).toNat <<< 8 ||| (certChain.getD 3 0).toNat
      if certChain.length < certLen + 4 then false else true
    else true
  else
    let pemHeader := strBytes "-----BEGIN"
    if certChain.length ≥ pemHeader.length then
      if pemHeader.isPrefixOf certChain then true else false
    else false

/-- The bytes `verifyQuoteSignature` writes into its SHA-256 hasher: the header, the four
arrays, the flag word, then the GPU model, the driver version and the certificate chain. -/
def signedMessage (q : NVTrustQuote) : List UInt8 :=
  putUint16 q.version ++ [q.quoteType, q.reserved] ++ putUint32 q.length ++
    putUint64 q.timestamp ++ q.deviceID.toList ++ q.firmwareHash.toList ++ q.driverHash.toList ++
    q.nonce.toList ++ putUint16 (quoteFlags q.ccEnabled q.teeIOEnabled) ++ q.gpuModel ++
    q.driverVersion ++ q.certChain

/-- `verifyQuoteSignature`, with the bytes it hashes: none when it returns before hashing. -/
def verifyQuoteSignature (q : NVTrustQuote) : Bool × List UInt8 :=
  if q.signature.length < nvTrustSignatureSize then (false, [])
  else (decide (q.signature.length ≥ nvTrustSignatureSize), signedMessage q)

/-! ## The two entry points -/

/-- `calculateTrustScore`. -/
def calculateTrustScore (hardwareCC rimVerified teeIO : Bool) : UInt8 :=
  let score : UInt8 := 50
  let score := if hardwareCC then score + 30 else score
  let score := if rimVerified then score + 10 else score
  let score := if teeIO then score + 10 else score
  if score > 100 then 100 else score

/-- `VerifyNVTrustQuote`. -/
def verifyNVTrustQuote (q : NVTrustQuote) : Bool × UInt8 :=
  let score : UInt8 := 50
  let isHardwareCC := isHardwareCCCapable q.gpuModel
  let score :=
    if isHardwareCC && q.ccEnabled then score + 30
    else if q.ccEnabled then score + 15
    else score
  let score := if q.teeIOEnabled then score + 10 else score
  let rimValid := verifyRIM q.gpuModel q.firmwareHash.toList q.driverHash.toList
  let score := if rimValid then score + 10 else score
  if !verifyCertChain q.certChain then (false, 0)
  else if !(verifyQuoteSignature q).1 then (false, 0)
  else (true, if score > 100 then 100 else score)

/-- `VerifyNVTrustQuoteFull`. -/
def verifyNVTrustQuoteFull (q : NVTrustQuote) : NVTrustResult :=
  let mode := if q.quoteType = quoteTypeLocal then modeLocal else modeSoftware
  let hardwareCC := isHardwareCCCapable q.gpuModel && q.ccEnabled
  let rimVerified := verifyRIM q.gpuModel q.firmwareHash.toList q.driverHash.toList
  if !verifyCertChain q.certChain then ⟨false, 0, hardwareCC, rimVerified, mode⟩
  else if !(verifyQuoteSignature q).1 then ⟨false, 0, hardwareCC, rimVerified, mode⟩
  else ⟨true, calculateTrustScore hardwareCC rimVerified q.teeIOEnabled, hardwareCC, rimVerified,
    mode⟩

/-! ## How the two entry points relate -/

/-- **The two verifiers differ by the software-CC bonus.** Both return the same validity, and a
valid quote gets the same score from both unless it enables confidential computing on a model
that `isHardwareCCCapable` rejects: `VerifyNVTrustQuote` then adds 15, which
`calculateTrustScore` has no case for. The score of each path is a function of six booleans,
and the proof is the case split over them. -/
theorem verifyNVTrustQuote_eq_full (q : NVTrustQuote) :
    verifyNVTrustQuote q = ((verifyNVTrustQuoteFull q).valid,
      if (verifyNVTrustQuoteFull q).valid && q.ccEnabled && !isHardwareCCCapable q.gpuModel then
        (verifyNVTrustQuoteFull q).trustScore + 15
      else (verifyNVTrustQuoteFull q).trustScore) := by
  simp only [verifyNVTrustQuote, verifyNVTrustQuoteFull, calculateTrustScore]
  generalize isHardwareCCCapable q.gpuModel = hw
  generalize verifyRIM q.gpuModel q.firmwareHash.toList q.driverHash.toList = rim
  generalize verifyCertChain q.certChain = cert
  generalize (verifyQuoteSignature q).1 = sig
  generalize q.ccEnabled = cc
  generalize q.teeIOEnabled = tee
  generalize (if q.quoteType = quoteTypeLocal then modeLocal else modeSoftware) = mode
  cases hw <;> cases rim <;> cases cert <;> cases sig <;> cases cc <;> cases tee <;> rfl

set_option maxRecDepth 10000 in
/-- **A valid quote the two verifiers score differently.** A quote from an A100, which is not
hardware-CC capable, with CC enabled, a 512-byte DER certificate chain and a 96-byte signature:
`VerifyNVTrustQuote` scores it 65 and `VerifyNVTrustQuoteFull` 50. -/
theorem verifyNVTrustQuote_disagrees_on_software_cc :
    ∃ q : NVTrustQuote, q.gpuModel = strBytes "A100" ∧ q.ccEnabled = true ∧
      q.teeIOEnabled = false ∧ q.certChain = 0x30 :: List.replicate 511 0 ∧
      q.signature = List.replicate 96 0 ∧
      verifyNVTrustQuote q = (true, 65) ∧ (verifyNVTrustQuoteFull q).valid = true ∧
      (verifyNVTrustQuoteFull q).trustScore = 50 :=
  ⟨⟨1, quoteTypeLocal, 0, 0, 0, .zero 32, .zero 32, .zero 32, .zero 32, true, false,
    0x30 :: List.replicate 511 0, List.replicate 96 0, strBytes "A100", strBytes "550.67"⟩,
    rfl, rfl, rfl, rfl, rfl, by decide, by decide, by decide⟩

end Precompiles.Gpu
