import Precompiles.Gpu.NVTrust.RoundTrip
import Precompiles.Gpu.NVTrust.Verify

/-!
# What the quote signature covers

`verifyQuoteSignature` hashes every field of a quote but the signature, in the order of the
wire format, but it writes the GPU model, the driver version and the certificate chain without
their length prefixes.

* `verifyQuoteSignature_determines`: for a quote whose signature is long enough to be hashed,
  the hashed bytes and the lengths of the GPU model and the driver version determine every
  field of the quote but its signature (`signedMessage_determines`).
* `verifyQuoteSignature_message_collides`: without those lengths they do not. Two serialized
  quotes that differ only in how the bytes `"H100550"` are split between the GPU model and the
  driver version parse to two different quotes, and `verifyQuoteSignature` hashes the same bytes
  for both.
-/

namespace Precompiles.Gpu

/-- The signed message with the two lengths determines the quote. Peeling the message from
its end: the certificate chain, the driver version and the GPU model by their lengths, then the
fixed fields. -/
theorem signedMessage_determines {q₁ q₂ : NVTrustQuote}
    (h : signedMessage q₁ = signedMessage q₂) (hm : q₁.gpuModel.length = q₂.gpuModel.length)
    (hd : q₁.driverVersion.length = q₂.driverVersion.length) :
    { q₁ with signature := [] } = { q₂ with signature := [] } := by
  simp only [signedMessage] at h
  obtain ⟨h, hcert⟩ := List.append_inj h (by simp [hm, hd])
  obtain ⟨h, hdv⟩ := List.append_inj h (by simp [hm])
  obtain ⟨h, hmodel⟩ := List.append_inj h (by simp)
  obtain ⟨h, hflags⟩ := List.append_inj h (by simp)
  obtain ⟨h, hnonce⟩ := List.append_inj h (by simp)
  obtain ⟨h, hdrv⟩ := List.append_inj h (by simp)
  obtain ⟨h, hfw⟩ := List.append_inj h (by simp)
  obtain ⟨h, hdev⟩ := List.append_inj h (by simp)
  obtain ⟨h, hts⟩ := List.append_inj h (by simp)
  obtain ⟨h, hlen⟩ := List.append_inj h (by simp)
  obtain ⟨hver, hqr⟩ := List.append_inj h (by simp)
  have hc := congrArg (fun w => decide (w &&& 0x0001 ≠ 0)) (putUint16_injective hflags)
  have ht := congrArg (fun w => decide (w &&& 0x0002 ≠ 0)) (putUint16_injective hflags)
  simp only [decide_quoteFlags_and_one, decide_quoteFlags_and_two] at hc ht
  simp only [List.cons.injEq, and_true] at hqr
  simp only [NVTrustQuote.mk.injEq]
  exact ⟨putUint16_injective hver, hqr.1, hqr.2, putUint32_injective hlen,
    putUint64_injective hts, FixedBytes.ext hdev, FixedBytes.ext hfw, FixedBytes.ext hdrv,
    FixedBytes.ext hnonce, hc, ht, hcert, trivial, hmodel, hdv⟩

/-- **The hashed bytes determine the quote.** For two quotes, the first with a signature of at
least `nvTrustSignatureSize` bytes, whose GPU models and driver versions have the same lengths:
if `verifyQuoteSignature` writes the same bytes into its hasher for both, then the second's
signature is as long (a shorter one makes it return before it writes anything), and the two
quotes agree on every field but the signature. -/
theorem verifyQuoteSignature_determines {q₁ q₂ : NVTrustQuote}
    (h₁ : nvTrustSignatureSize ≤ q₁.signature.length)
    (h : (verifyQuoteSignature q₁).2 = (verifyQuoteSignature q₂).2)
    (hm : q₁.gpuModel.length = q₂.gpuModel.length)
    (hd : q₁.driverVersion.length = q₂.driverVersion.length) :
    nvTrustSignatureSize ≤ q₂.signature.length ∧
      { q₁ with signature := [] } = { q₂ with signature := [] } := by
  simp only [verifyQuoteSignature, if_neg (not_lt.2 h₁)] at h
  split_ifs at h with h₂
  · simp [signedMessage] at h
  · exact ⟨not_lt.1 h₂, signedMessage_determines h hm hd⟩

theorem verifyQuoteSignature_determines_of_signature :
    let q₁ : NVTrustQuote := ⟨1, quoteTypeLocal, 0, 0, 0, .zero 32, .zero 32, .zero 32, .zero 32,
      true, false, [], List.replicate 96 0, strBytes "H100", strBytes "550"⟩
    let q₂ : NVTrustQuote := { q₁ with signature := List.replicate 97 1 }
    nvTrustSignatureSize ≤ q₁.signature.length ∧
      (verifyQuoteSignature q₁).2 = (verifyQuoteSignature q₂).2 ∧
      q₁.gpuModel.length = q₂.gpuModel.length ∧
      q₁.driverVersion.length = q₂.driverVersion.length ∧
      nvTrustSignatureSize ≤ q₂.signature.length ∧
      { q₁ with signature := [] } = { q₂ with signature := [] } := by
  intro q₁ q₂
  have h₁ : nvTrustSignatureSize ≤ q₁.signature.length := by decide
  have h : (verifyQuoteSignature q₁).2 = (verifyQuoteSignature q₂).2 := rfl
  exact ⟨h₁, h, rfl, rfl, verifyQuoteSignature_determines h₁ h rfl rfl⟩

set_option maxRecDepth 10000 in
/-- **Two parsed quotes with one signed message.** The serializations of two quotes that differ
only in their GPU model (`"H100"` against `"H10"`) and driver version (`"550"` against
`"0550"`) are accepted by the parser, which returns the two quotes; both signatures are long
enough for `verifyQuoteSignature` to hash, and it hashes the same bytes for both. -/
theorem verifyQuoteSignature_message_collides :
    ∃ q₁ q₂ : NVTrustQuote,
      q₁.gpuModel = strBytes "H100" ∧ q₁.driverVersion = strBytes "550" ∧
      q₂ = { q₁ with gpuModel := strBytes "H10", driverVersion := strBytes "0550" } ∧
      parseNVTrustQuote (serializeQuote q₁) = .ok q₁ ∧
      parseNVTrustQuote (serializeQuote q₂) = .ok q₂ ∧
      (verifyQuoteSignature q₁).1 = true ∧ (verifyQuoteSignature q₂).1 = true ∧
      (verifyQuoteSignature q₁).2 = (verifyQuoteSignature q₂).2 :=
  ⟨⟨1, quoteTypeLocal, 0, 0, 0, .zero 32, .zero 32, .zero 32, .zero 32, true, false, [],
      List.replicate 96 0, strBytes "H100", strBytes "550"⟩,
    ⟨1, quoteTypeLocal, 0, 0, 0, .zero 32, .zero 32, .zero 32, .zero 32, true, false, [],
      List.replicate 96 0, strBytes "H10", strBytes "0550"⟩,
    rfl, rfl, rfl, rfl, rfl, rfl, rfl, by decide⟩

end Precompiles.Gpu
