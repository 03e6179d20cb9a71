import Precompiles.PQCrypto.Contract

/-!
# The inputs each operation accepts

The input layouts of `pqcrypto/contract.go`, as the comments above its handlers give them, and
for each handler the theorem that it accepts exactly the inputs of its layout and hands their
fields to the backend:

* `verifyFrame_ok_iff`: `mldsaVerify` and `slhdsaVerify` accept the frames
  `[mode(1)] [pubkey_len(2)] [pubkey] [msg_len(2)] [msg] [sig]` whose mode byte their `switch`
  knows and which have at least one byte after the two length words;
* `mlkemDecapsulate_ok_iff`: `[mode(1)] [privkey_len(2)] [privkey] [ciphertext]`, with a
  ciphertext of the mode's size.

Each rests on a case lemma that says everything the handler can return (`verifyFrame_cases`,
`mlkemEncapsulate_cases`, `mlkemDecapsulate_cases`): the error of one of its checks, or what the
backend makes of the fields of a frame. The properties of `Run` are derived from the case
lemmas, in `Precompiles.PQCrypto.Run`.
-/

namespace Precompiles.PQCrypto

/-! ## Layouts -/

/-- The input of `mldsaVerify` and `slhdsaVerify`,
`[mode(1)] [pubkey_len(2)] [pubkey] [msg_len(2)] [msg] [sig]`. -/
def verifyInput (modeByte : UInt8) (pubKey message signature : List UInt8) : List UInt8 :=
  modeByte :: (putUint16 (.ofNat pubKey.length) ++ pubKey ++ putUint16 (.ofNat message.length) ++
    message ++ signature)

/-- The input of `mlkemDecapsulate`, `[mode(1)] [privkey_len(2)] [privkey] [ciphertext]`. -/
def decapsulateInput (modeByte : UInt8) (privKey ciphertext : List UInt8) : List UInt8 :=
  modeByte :: (putUint16 (.ofNat privKey.length) ++ privKey ++ ciphertext)

/-- An input that passes the length checks of the verification handlers is the frame of the
fields they cut out of it. -/
theorem eq_verifyInput {input : List UInt8} {N K : ℕ}
    (hN : beNat [input.getD 1 0, input.getD 2 0] = N)
    (hK : beNat [input.getD (3 + N) 0, input.getD (3 + N + 1) 0] = K)
    (h : 3 + N + 2 + K ≤ input.length) :
    input = verifyInput (input.getD 0 0) ((input.drop 3).take N) ((input.drop (3 + N + 2)).take K)
      (input.drop (3 + N + 2 + K)) := by
  have hpk : ((input.drop 3).take N).length = N := by simp; omega
  have hmsg : ((input.drop (3 + N + 2)).take K).length = K := by simp; omega
  rw [verifyInput, hpk, hmsg, ← hN, putUint16_ofNat_beNat, hN, ← hK, putUint16_ofNat_beNat, hK]
  simp only [List.append_assoc, List.cons_append, List.singleton_append, List.nil_append]
  rw [← drop_eq_take_append_drop, ← drop_eq_take_append_pair (by omega)]
  exact eq_getD_cons_drop_three (by omega)

/-- An input that passes the length check of `mlkemDecapsulate` is the frame of the fields it
cuts out of it. -/
theorem eq_decapsulateInput {input : List UInt8} {N : ℕ}
    (hN : beNat [input.getD 1 0, input.getD 2 0] = N) (h : 3 + N ≤ input.length) :
    input = decapsulateInput (input.getD 0 0) ((input.drop 3).take N) (input.drop (3 + N)) := by
  have hsk : ((input.drop 3).take N).length = N := by simp; omega
  rw [decapsulateInput, hsk, ← hN, putUint16_ofNat_beNat, hN]
  simp only [List.append_assoc, List.cons_append, List.singleton_append, List.nil_append]
  rw [← drop_eq_take_append_drop]
  exact eq_getD_cons_drop_three (by omega)

/-! ## The tails of the handlers -/

@[simp] theorem verdict_eq_ok {x : Except String Bool} {r : List UInt8} :
    verdict x = .ok r ↔ ∃ valid, x = .ok valid ∧ r = if valid then [1] else [0] := by
  cases x <;> simp [verdict, eq_comm]

theorem decapsulate_eq_ok {b : Backend} {sk ct r : List UInt8} {mode : MLKEMMode} :
    decapsulate b mode sk ct = .ok r ↔
      ct.length = b.mlkemCiphertextSize mode ∧ b.mlkemDecapsulate mode sk ct = .ok r := by
  unfold decapsulate
  by_cases h : ct.length = b.mlkemCiphertextSize mode
  · rw [if_neg (not_not.2 h)]
    rcases b.mlkemDecapsulate mode sk ct with e | ss <;> simp [h]
  · simp [h]

/-! ## Signature verification -/

section Verify

variable {Mode : Type} {modes : List (UInt8 × Mode)} {scheme : String}
  {verify : Mode → List UInt8 → List UInt8 → List UInt8 → Except String Bool}

/-- A frame with a known mode byte reaches the backend with its own fields. -/
theorem verifyFrame_verifyInput {m : UInt8} {mode : Mode} {pk msg sig : List UInt8}
    (hpk : pk.length < 2 ^ 16) (hmsg : msg.length < 2 ^ 16)
    (h6 : 0 < pk.length + msg.length + sig.length) (hm : modes.lookup m = some mode) :
    verifyFrame modes scheme verify (verifyInput m pk msg sig) = verdict (verify mode pk msg sig) := by
  obtain ⟨h₁, h₂, hh⟩ : ∃ a b, putUint16 (.ofNat pk.length) = [a, b] := ⟨_, _, rfl⟩
  obtain ⟨g₁, g₂, hg⟩ : ∃ a b, putUint16 (.ofNat msg.length) = [a, b] := ⟨_, _, rfl⟩
  have hN : beNat [h₁, h₂] = pk.length := hh ▸ beNat_putUint16_ofNat hpk
  have hK : beNat [g₁, g₂] = msg.length := hg ▸ beNat_putUint16_ofNat hmsg
  have hin : verifyInput m pk msg sig = m :: h₁ :: h₂ :: (pk ++ g₁ :: g₂ :: (msg ++ sig)) := by
    simp [verifyInput, hh, hg]
  rw [hin]
  set input := m :: h₁ :: h₂ :: (pk ++ g₁ :: g₂ :: (msg ++ sig))
  have hlen : input.length = 5 + pk.length + msg.length + sig.length := by simp [input]; omega
  have hpre : input.drop 3 = pk ++ g₁ :: g₂ :: (msg ++ sig) := rfl
  have hpost : input.drop (3 + pk.length) = g₁ :: g₂ :: (msg ++ sig) := by
    rw [← List.drop_drop, hpre, List.drop_left]
  have hmid : input.drop (3 + pk.length + 2) = msg ++ sig := by rw [← List.drop_drop, hpost]; rfl
  have hsig : input.drop (3 + pk.length + 2 + msg.length) = sig := by
    rw [← List.drop_drop, hmid, List.drop_left]
  have hg₁ : input.getD (3 + pk.length) 0 = g₁ := by
    rw [← Nat.add_zero (3 + pk.length), getD_add_eq_getD_drop, hpost]; rfl
  have hg₂ : input.getD (3 + pk.length + 1) 0 = g₂ := by rw [getD_add_eq_getD_drop, hpost]; rfl
  unfold verifyFrame
  rw [if_neg (by omega), goIndex_of_lt (by omega)]
  simp only [bind, Except.bind]
  rw [show input.getD 0 0 = m from rfl, hm, goIndex_of_lt (by omega), goIndex_of_lt (by omega)]
  simp only [toNat_shiftLeft_or, show beNat [input.getD 1 0, input.getD 2 0] = pk.length from hN]
  rw [if_neg (by omega), goSlice_of_le (by omega) (by omega), goIndex_of_lt (by omega),
    goIndex_of_lt (by omega)]
  simp only [hg₁, hg₂, hK]
  rw [if_neg (by omega), goSlice_of_le (by omega) (by omega), goSliceFrom_of_le (by omega)]
  simp only [Nat.add_sub_cancel_left, hpre, hmid, hsig, List.take_left]

/-- **What the verification handlers return.** `errInvalidInput` from a length check,
`errInvalidMode` for a mode byte the `switch` does not know, or the verdict of the backend on the
fields of a frame. -/
theorem verifyFrame_cases (input : List UInt8) :
    verifyFrame modes scheme verify input = .error .errInvalidInput ∨
      (modes.lookup (input.getD 0 0) = none ∧
        verifyFrame modes scheme verify input = .error (.errInvalidMode scheme (input.getD 0 0))) ∨
      ∃ m mode pk msg sig, input = verifyInput m pk msg sig ∧ pk.length < 2 ^ 16 ∧
        msg.length < 2 ^ 16 ∧ 0 < pk.length + msg.length + sig.length ∧
        modes.lookup m = some mode ∧
        verifyFrame modes scheme verify input = verdict (verify mode pk msg sig) := by
  generalize hr : verifyFrame modes scheme verify input = r
  unfold verifyFrame at hr
  split_ifs at hr with h6
  · exact .inl hr.symm
  rw [goIndex_of_lt (by omega)] at hr
  simp only [bind, Except.bind] at hr
  split at hr
  · exact .inr (.inl ⟨‹_›, hr.symm⟩)
  rename_i mode hm
  rw [goIndex_of_lt (by omega), goIndex_of_lt (by omega)] at hr
  simp only [toNat_shiftLeft_or] at hr
  split_ifs at hr with h1
  · exact .inl hr.symm
  rw [goSlice_of_le (by omega) (by omega), goIndex_of_lt (by omega), goIndex_of_lt (by omega)] at hr
  simp only [toNat_shiftLeft_or] at hr
  split_ifs at hr with h2
  · exact .inl hr.symm
  rw [goSlice_of_le (by omega) (by omega), goSliceFrom_of_le (by omega)] at hr
  simp only [Nat.add_sub_cancel_left] at hr
  refine .inr (.inr ⟨_, mode, _, _, _, eq_verifyInput rfl rfl (not_lt.1 h2), ?_, ?_, ?_, hm,
    hr.symm⟩)
  · exact (List.length_take_le _ _).trans_lt (beNat_pair_lt _ _)
  · exact (List.length_take_le _ _).trans_lt (beNat_pair_lt _ _)
  · simp only [List.length_take, List.length_drop]
    omega

/-- A successful verification was the verdict on the fields of a frame. -/
theorem verifyFrame_eq_ok {input r : List UInt8} (h : verifyFrame modes scheme verify input = .ok r) :
    ∃ m mode pk msg sig, input = verifyInput m pk msg sig ∧ pk.length < 2 ^ 16 ∧
      msg.length < 2 ^ 16 ∧ 0 < pk.length + msg.length + sig.length ∧
      modes.lookup m = some mode ∧ verdict (verify mode pk msg sig) = .ok r := by
  rcases @verifyFrame_cases Mode modes scheme verify input with
    h' | ⟨-, h'⟩ | ⟨m, mode, pk, msg, sig, hin, hpk, hmsg, h6, hm, h'⟩
  · rw [h'] at h; cases h
  · rw [h'] at h; cases h
  · exact ⟨m, mode, pk, msg, sig, hin, hpk, hmsg, h6, hm, h' ▸ h⟩

/-- **The verification handlers accept exactly the frames.** `mldsaVerify` and `slhdsaVerify`
succeed on an input exactly when it is a frame `verifyInput` builds, with a mode byte of their
`switch`, fields shorter than `2 ^ 16` bytes and at least one byte after the length words, whose
public key the backend decodes; the output is the verdict on the frame's own fields. -/
theorem verifyFrame_ok_iff {input r : List UInt8} :
    verifyFrame modes scheme verify input = .ok r ↔
      ∃ m mode pk msg sig valid, input = verifyInput m pk msg sig ∧ pk.length < 2 ^ 16 ∧
        msg.length < 2 ^ 16 ∧ 0 < pk.length + msg.length + sig.length ∧
        modes.lookup m = some mode ∧ verify mode pk msg sig = .ok valid ∧
        r = if valid then [1] else [0] := by
  constructor
  · intro h
    obtain ⟨m, mode, pk, msg, sig, hin, hpk, hmsg, h6, hm, hr⟩ := verifyFrame_eq_ok h
    obtain ⟨valid, hv, rfl⟩ := verdict_eq_ok.1 hr
    exact ⟨m, mode, pk, msg, sig, valid, hin, hpk, hmsg, h6, hm, hv, rfl⟩
  · rintro ⟨m, mode, pk, msg, sig, valid, rfl, hpk, hmsg, h6, hm, hv, rfl⟩
    rw [verifyFrame_verifyInput hpk hmsg h6 hm, hv]
    rfl

end Verify

/-! ## ML-KEM -/

section Kem

variable {b : Backend}

theorem mlkemEncapsulate_cons {entropy pk : List UInt8} {m : UInt8} {mode : MLKEMMode}
    (hpk : 0 < pk.length) (hm : mlkemModes.lookup m = some mode) :
    mlkemEncapsulate b entropy (m :: pk) = encapsulate b entropy mode pk := by
  unfold mlkemEncapsulate
  rw [if_neg (by simp; omega), goIndex_of_lt (by simp)]
  simp only [bind, Except.bind, List.getD_cons_zero, hm]
  rw [goSliceFrom_of_le (by simp)]
  rfl

/-- **What `mlkemEncapsulate` returns.** `errInvalidInput` for fewer than two bytes,
`errInvalidMode` for an unknown mode byte, or the end of the handler on the rest of the input. -/
theorem mlkemEncapsulate_cases (entropy input : List UInt8) :
    mlkemEncapsulate b entropy input = .error .errInvalidInput ∨
      (mlkemModes.lookup (input.getD 0 0) = none ∧
        mlkemEncapsulate b entropy input = .error (.errInvalidMode "ML-KEM" (input.getD 0 0))) ∨
      ∃ m mode pk, input = m :: pk ∧ 0 < pk.length ∧ mlkemModes.lookup m = some mode ∧
        mlkemEncapsulate b entropy input = encapsulate b entropy mode pk := by
  generalize hr : mlkemEncapsulate b entropy input = r
  unfold mlkemEncapsulate at hr
  split_ifs at hr with h2
  · exact .inl hr.symm
  rw [goIndex_of_lt (by omega)] at hr
  simp only [bind, Except.bind] at hr
  split at hr
  · exact .inr (.inl ⟨‹_›, hr.symm⟩)
  rename_i mode hm
  rw [goSliceFrom_of_le (by omega)] at hr
  refine .inr (.inr ⟨_, mode, _, eq_getD_cons_drop_one (by omega), ?_, hm, hr.symm⟩)
  simp only [List.length_drop]
  omega

/-- A successful encapsulation was the end of the handler on a known mode and the rest of the
input. -/
theorem mlkemEncapsulate_eq_ok {entropy input r : List UInt8}
    (h : mlkemEncapsulate b entropy input = .ok r) :
    ∃ m mode pk, input = m :: pk ∧ 0 < pk.length ∧ mlkemModes.lookup m = some mode ∧
      encapsulate b entropy mode pk = .ok r := by
  rcases mlkemEncapsulate_cases entropy input with h' | ⟨-, h'⟩ | ⟨m, mode, pk, hin, hpk, hm, h'⟩
  · rw [h'] at h; cases h
  · rw [h'] at h; cases h
  · exact ⟨m, mode, pk, hin, hpk, hm, h' ▸ h⟩

theorem mlkemDecapsulate_decapsulateInput {m : UInt8} {mode : MLKEMMode} {sk ct : List UInt8}
    (hsk : sk.length < 2 ^ 16) (h4 : 0 < sk.length + ct.length)
    (hm : mlkemModes.lookup m = some mode) :
    mlkemDecapsulate b (decapsulateInput m sk ct) = decapsulate b mode sk ct := by
  obtain ⟨h₁, h₂, hh⟩ : ∃ a b, putUint16 (.ofNat sk.length) = [a, b] := ⟨_, _, rfl⟩
  have hN : beNat [h₁, h₂] = sk.length := hh ▸ beNat_putUint16_ofNat hsk
  have hin : decapsulateInput m sk ct = m :: h₁ :: h₂ :: (sk ++ ct) := by
    simp [decapsulateInput, hh]
  rw [hin]
  unfold mlkemDecapsulate
  rw [if_neg (by simp; omega), goIndex_of_lt (by simp)]
  simp only [bind, Except.bind, List.getD_cons_zero, hm]
  rw [goIndex_of_lt (by simp), goIndex_of_lt (by simp)]
  simp only [List.getD_cons_succ, List.getD_cons_zero, toNat_shiftLeft_or, hN]
  rw [if_neg (by simp; omega), goSlice_of_le (by omega) (by simp; omega),
    goSliceFrom_of_le (by simp; omega)]
  simp only [Nat.add_sub_cancel_left, List.drop_succ_cons, List.drop_zero, List.take_left]
  rw [← List.drop_drop, List.drop_succ_cons, List.drop_succ_cons, List.drop_succ_cons,
    List.drop_zero, List.drop_left]

/-- **What `mlkemDecapsulate` returns.** `errInvalidInput` from a length check, `errInvalidMode`
for an unknown mode byte, or the end of the handler on the fields of a frame. -/
theorem mlkemDecapsulate_cases (input : List UInt8) :
    mlkemDecapsulate b input = .error .errInvalidInput ∨
      (mlkemModes.lookup (input.getD 0 0) = none ∧
        mlkemDecapsulate b input = .error (.errInvalidMode "ML-KEM" (input.getD 0 0))) ∨
      ∃ m mode sk ct, input = decapsulateInput m sk ct ∧ sk.length < 2 ^ 16 ∧
        0 < sk.length + ct.length ∧ mlkemModes.lookup m = some mode ∧
        mlkemDecapsulate b input = decapsulate b mode sk ct := by
  generalize hr : mlkemDecapsulate b input = r
  unfold mlkemDecapsulate at hr
  split_ifs at hr with h4
  · exact .inl hr.symm
  rw [goIndex_of_lt (by omega)] at hr
  simp only [bind, Except.bind] at hr
  split at hr
  · exact .inr (.inl ⟨‹_›, hr.symm⟩)
  rename_i mode hm
  rw [goIndex_of_lt (by omega), goIndex_of_lt (by omega)] at hr
  simp only [toNat_shiftLeft_or] at hr
  split_ifs at hr with h1
  · exact .inl hr.symm
  rw [goSlice_of_le (by omega) (by omega), goSliceFrom_of_le (by omega)] at hr
  simp only [Nat.add_sub_cancel_left] at hr
  refine .inr (.inr ⟨_, mode, _, _, eq_decapsulateInput rfl (not_lt.1 h1), ?_, ?_, hm, hr.symm⟩)
  · exact (List.length_take_le _ _).trans_lt (beNat_pair_lt _ _)
  · simp only [List.length_take, List.length_drop]
    omega

/-- A successful decapsulation was the end of the handler on the fields of a frame. -/
theorem mlkemDecapsulate_eq_ok {input r : List UInt8} (h : mlkemDecapsulate b input = .ok r) :
    ∃ m mode sk ct, input = decapsulateInput m sk ct ∧ sk.length < 2 ^ 16 ∧
      0 < sk.length + ct.length ∧ mlkemModes.lookup m = some mode ∧
      decapsulate b mode sk ct = .ok r := by
  rcases mlkemDecapsulate_cases input with h' | ⟨-, h'⟩ | ⟨m, mode, sk, ct, hin, hsk, h4, hm, h'⟩
  · rw [h'] at h; cases h
  · rw [h'] at h; cases h
  · exact ⟨m, mode, sk, ct, hin, hsk, h4, hm, h' ▸ h⟩

/-- **`mlkemDecapsulate` accepts exactly its frames.** It succeeds exactly on a frame
`decapsulateInput` builds, with a known mode byte, a private key shorter than `2 ^ 16` bytes, at
least one byte after the length word and a ciphertext of the mode's size, which the backend
decapsulates; the output is the shared secret. -/
theorem mlkemDecapsulate_ok_iff {input r : List UInt8} :
    mlkemDecapsulate b input = .ok r ↔
      ∃ m mode sk ct, input = decapsulateInput m sk ct ∧ sk.length < 2 ^ 16 ∧
        0 < sk.length + ct.length ∧ mlkemModes.lookup m = some mode ∧
        ct.length = b.mlkemCiphertextSize mode ∧ b.mlkemDecapsulate mode sk ct = .ok r := by
  constructor
  · intro h
    obtain ⟨m, mode, sk, ct, hin, hsk, h4, hm, hr⟩ := mlkemDecapsulate_eq_ok h
    obtain ⟨hsize, hd⟩ := decapsulate_eq_ok.1 hr
    exact ⟨m, mode, sk, ct, hin, hsk, h4, hm, hsize, hd⟩
  · rintro ⟨m, mode, sk, ct, rfl, hsk, h4, hm, hsize, hd⟩
    rw [mlkemDecapsulate_decapsulateInput hsk h4 hm]
    exact decapsulate_eq_ok.2 ⟨hsize, hd⟩

end Kem

end Precompiles.PQCrypto
