import Precompiles.Gpu.NVTrust.Quote

/-!
# The quote codec round trip

* `parseNVTrustQuote_serializeQuote`: the parser reads back every quote the serializer writes,
  field by field, when the quote's version and type are ones the parser accepts and its three
  length prefixes do not truncate.
* `serializeQuote_parseNVTrustQuote`: the other way round, every input the parser accepts is
  written back by the serializer byte for byte, except the flag word, of which the parser keeps
  two bits (`parseNVTrustQuote_withFlags`): inputs that differ only in the other fourteen parse
  to the same quote.

The proof reads the serialized bytes at the parser's offsets once (`serializeQuote_fields`):
after the 148 bytes of fixed fields, every offset is `148` plus the lengths read so far, and
with the prefixes untruncated those are the field lengths. The length checks of the parser then
all pass, since the serialized quote is `154` bytes plus its four variable fields. The other
direction inverts the parser's checks (`ite_error_eq_ok`), reads each field back as the slice it
was copied from, and joins the slices again (`byteSlice_append_drop` and its two companions).
-/

namespace Precompiles.Gpu

/-- **Where `serializeQuote` puts each field.** The bytes at each offset the parser reads, with
each variable field's offset given by the lengths of the fields before it. -/
theorem serializeQuote_fields (q : NVTrustQuote) :
    byteSlice (serializeQuote q) 0 2 = putUint16 q.version ∧
    (serializeQuote q).getD 2 0 = q.quoteType ∧ (serializeQuote q).getD 3 0 = q.reserved ∧
    byteSlice (serializeQuote q) 4 4 = putUint32 q.length ∧
    byteSlice (serializeQuote q) 8 8 = putUint64 q.timestamp ∧
    byteSlice (serializeQuote q) 16 32 = q.deviceID.toList ∧
    byteSlice (serializeQuote q) 48 32 = q.firmwareHash.toList ∧
    byteSlice (serializeQuote q) 80 32 = q.driverHash.toList ∧
    byteSlice (serializeQuote q) 112 32 = q.nonce.toList ∧
    byteSlice (serializeQuote q) 144 2 = putUint16 (quoteFlags q.ccEnabled q.teeIOEnabled) ∧
    byteSlice (serializeQuote q) 146 2 = putUint16 (UInt16.ofNat q.gpuModel.length) ∧
    byteSlice (serializeQuote q) 148 q.gpuModel.length = q.gpuModel ∧
    byteSlice (serializeQuote q) (148 + q.gpuModel.length) 2 =
      putUint16 (UInt16.ofNat q.driverVersion.length) ∧
    byteSlice (serializeQuote q) (148 + q.gpuModel.length + 2) q.driverVersion.length =
      q.driverVersion ∧
    byteSlice (serializeQuote q) (148 + q.gpuModel.length + 2 + q.driverVersion.length) 4 =
      putUint32 (UInt32.ofNat q.certChain.length) ∧
    byteSlice (serializeQuote q) (148 + q.gpuModel.length + 2 + q.driverVersion.length + 4)
      q.certChain.length = q.certChain ∧
    (serializeQuote q).drop
      (148 + q.gpuModel.length + 2 + q.driverVersion.length + 4 + q.certChain.length) =
      q.signature := by
  refine ⟨?_, ?_, ?_, ?_, ?_, ?_, ?_, ?_, ?_, ?_, ?_, ?_, ?_, ?_, ?_, ?_, ?_⟩ <;>
    simp_arith only [byteSlice, serializeQuote, List.append_assoc, List.drop_append_eq_append_drop,
      List.take_append_eq_append_take, List.drop_of_length_le, List.take_of_length_le,
      List.getD_append_right, List.getD_append, length_putUint16, length_putUint32,
      length_putUint64, FixedBytes.length_toList, List.length_cons, List.length_nil,
      List.nil_append, List.append_nil, List.take_length, List.drop_length, List.take_zero,
      List.drop_zero, List.take_nil, List.drop_nil, List.getD_cons_zero, List.getD_cons_succ,
      Nat.sub_self, Nat.zero_sub, Nat.sub_zero, Nat.zero_add, Nat.add_sub_cancel,
      Nat.add_sub_assoc, Nat.sub_add_comm, Nat.reduceSub, Nat.reduceAdd]

/-- The signature the parser copies out of the bytes after offset `b` of an `a`-byte quote: all
of them, and none when there are none. -/
theorem copy_tail_eq {l : List UInt8} {a b : ℕ} (h : a = b + l.length) :
    (if a > b then goCopy (List.replicate (a - b) 0) l else []) = l := by
  subst h
  split_ifs with hl
  · rw [Nat.add_sub_cancel_left, goCopy_replicate_length]
  · exact (List.eq_nil_of_length_eq_zero (by omega)).symm

/-- **`ParseNVTrustQuote` undoes `SerializeQuote`.** -/
theorem parseNVTrustQuote_serializeQuote (q : NVTrustQuote) (hv : q.version = 1 ∨ q.version = 2)
    (ht : q.quoteType = quoteTypeLocal ∨ q.quoteType = quoteTypeSoftware)
    (hm : q.gpuModel.length < 2 ^ 16) (hd : q.driverVersion.length < 2 ^ 16)
    (hc : q.certChain.length < 2 ^ 32) :
    parseNVTrustQuote (serializeQuote q) = .ok q := by
  have hm' : (UInt16.ofNat q.gpuModel.length).toNat = q.gpuModel.length :=
    UInt16.toNat_ofNat_of_lt hm
  have hd' : (UInt16.ofNat q.driverVersion.length).toNat = q.driverVersion.length :=
    UInt16.toNat_ofNat_of_lt hd
  have hc' : (UInt32.ofNat q.certChain.length).toNat = q.certChain.length :=
    UInt32.toNat_ofNat_of_lt hc
  have hver : ¬ (q.version < 1 ∨ q.version > 2) := by rcases hv with h | h <;> simp [h]
  have htype : ¬ (q.quoteType ≠ quoteTypeLocal ∧ q.quoteType ≠ quoteTypeSoftware) := by tauto
  simp only [parseNVTrustQuote, nvTrustMinQuoteSize, nvTrustHeaderSize, Nat.reduceAdd,
    length_serializeQuote, serializeQuote_fields q, uint16Of_putUint16, uint32Of_putUint32,
    uint64Of_putUint64, hm', hd', hc', hver, htype, FixedBytes.copyFrom_toList,
    decide_quoteFlags_and_one, decide_quoteFlags_and_two, goCopy_replicate_length, if_false]
  simp (disch := omega) only [if_neg, copy_tail_eq]

theorem parseNVTrustQuote_serializeQuote_h100 :
    ((1 : UInt16) = 1 ∨ (1 : UInt16) = 2) ∧ (quoteTypeLocal = quoteTypeLocal ∨
      quoteTypeLocal = quoteTypeSoftware) ∧ (strBytes "H100").length < 2 ^ 16 ∧
    (strBytes "550.67").length < 2 ^ 16 ∧ ([] : List UInt8).length < 2 ^ 32 ∧
    parseNVTrustQuote (serializeQuote ⟨1, quoteTypeLocal, 0, 0, 0, .zero 32, .zero 32, .zero 32,
      .zero 32, true, false, [], List.replicate 96 0, strBytes "H100", strBytes "550.67"⟩) =
      .ok ⟨1, quoteTypeLocal, 0, 0, 0, .zero 32, .zero 32, .zero 32, .zero 32, true, false, [],
        List.replicate 96 0, strBytes "H100", strBytes "550.67"⟩ :=
  ⟨.inl rfl, .inl rfl, by decide, by decide, by decide,
    parseNVTrustQuote_serializeQuote _ (.inl rfl) (.inl rfl) (by decide) (by decide) (by decide)⟩

/-! ## What the parser accepts -/

theorem length_byteSlice {l : List UInt8} {a n : ℕ} (h : a + n ≤ l.length) :
    (byteSlice l a n).length = n := by
  simp [byteSlice]
  omega

/-- A slice followed by the rest of the bytes is the bytes from the slice's start. -/
theorem byteSlice_append_drop {l : List UInt8} {a n b : ℕ} (h : a + n = b) :
    byteSlice l a n ++ l.drop b = l.drop a := by
  rw [byteSlice, ← h, ← List.drop_drop, List.take_append_drop]

theorem byteSlice_append_byteSlice {l r : List UInt8} {a n b k : ℕ} (h : a + n = b) :
    byteSlice l a n ++ (byteSlice l b k ++ r) = byteSlice l a (n + k) ++ r := by
  rw [← List.append_assoc, byteSlice, byteSlice, byteSlice, List.take_add, List.drop_drop, h]

theorem byteSlice_append_getD {l r : List UInt8} {a n b : ℕ} (h : a + n = b)
    (hb : b < l.length) : byteSlice l a n ++ (l.getD b 0 :: r) = byteSlice l a (n + 1) ++ r := by
  have h₁ : byteSlice l b 1 = [l.getD b 0] := by rw [byteSlice, drop_eq_getD_cons hb]; rfl
  rw [← byteSlice_append_byteSlice h, h₁]
  rfl

theorem putUint16_uint16Of_byteSlice {l : List UInt8} {a : ℕ} (h : a + 2 ≤ l.length) :
    putUint16 (uint16Of (byteSlice l a 2)) = byteSlice l a 2 :=
  putUint16_uint16Of (length_byteSlice h)

theorem putUint32_uint32Of_byteSlice {l : List UInt8} {a : ℕ} (h : a + 4 ≤ l.length) :
    putUint32 (uint32Of (byteSlice l a 4)) = byteSlice l a 4 :=
  putUint32_uint32Of (length_byteSlice h)

theorem putUint64_uint64Of_byteSlice {l : List UInt8} {a : ℕ} (h : a + 8 ≤ l.length) :
    putUint64 (uint64Of (byteSlice l a 8)) = byteSlice l a 8 :=
  putUint64_uint64Of (length_byteSlice h)

theorem goCopy_byteSlice {l : List UInt8} {a n : ℕ} (h : a + n ≤ l.length) :
    goCopy (List.replicate n 0) (byteSlice l a n) = byteSlice l a n :=
  goCopy_replicate_of_length (length_byteSlice h)

theorem copyFrom_byteSlice {l : List UInt8} {a n : ℕ} (h : a + n ≤ l.length) :
    (FixedBytes.copyFrom n (byteSlice l a n)).toList = byteSlice l a n :=
  goCopy_byteSlice h

/-- The signature the parser copies out of the bytes after offset `o`: all of them. -/
theorem signature_eq_drop (l : List UInt8) (o : ℕ) :
    (if l.length > o then goCopy (List.replicate (l.length - o) 0) (l.drop o) else []) =
      l.drop o := by
  split_ifs with h
  · exact goCopy_replicate_of_length (by simp)
  · exact (List.drop_eq_nil_of_le (by omega)).symm

/-- A check that returns an error on failure passed, if the function succeeded. -/
theorem ite_error_eq_ok {ε α : Type} {c : Prop} [Decidable c] {e : ε} {r : Except ε α} {a : α} :
    (if c then .error e else r) = .ok a ↔ ¬c ∧ r = .ok a := by
  split_ifs <;> simp [*]

/-- Writing an accepted input's quote back gives the input, with the flag word rewritten. -/
theorem serializeQuote_eq_of_parse {data : List UInt8} {q : NVTrustQuote}
    (h : parseNVTrustQuote data = .ok q) :
    serializeQuote q =
      data.take 144 ++ putUint16 (quoteFlags q.ccEnabled q.teeIOEnabled) ++ data.drop 146 := by
  simp only [parseNVTrustQuote, nvTrustMinQuoteSize, nvTrustHeaderSize, Nat.reduceAdd,
    ite_error_eq_ok] at h
  obtain ⟨h₀, -, -, -, -, -, -, -, -, -, -, -, -, hlen, h⟩ := h
  cases h
  simp (disch := omega) only [serializeQuote, putUint16_uint16Of_byteSlice,
    putUint32_uint32Of_byteSlice, putUint64_uint64Of_byteSlice, copyFrom_byteSlice,
    goCopy_byteSlice, length_byteSlice, length_goCopy, List.length_replicate, uint16_ofNat_toNat,
    uint32_ofNat_toNat, signature_eq_drop, List.append_assoc, List.cons_append, List.nil_append,
    byteSlice_append_drop, byteSlice_append_byteSlice, byteSlice_append_getD]
  rfl


/-! ## The flag word -/

section Flags

variable {data : List UInt8} {w : UInt16}

theorem length_take_putUint16 (hl : 146 ≤ data.length) :
    (data.take 144 ++ putUint16 w).length = 146 := by
  simp [length_putUint16]
  omega

theorem length_withFlags (hl : 146 ≤ data.length) :
    (data.take 144 ++ putUint16 w ++ data.drop 146).length = data.length := by
  rw [List.length_append, length_take_putUint16 hl, List.length_drop]
  omega

theorem drop_withFlags {a : ℕ} (hl : 146 ≤ data.length) (ha : 146 ≤ a) :
    (data.take 144 ++ putUint16 w ++ data.drop 146).drop a = data.drop a := by
  rw [List.drop_append_eq_append_drop, length_take_putUint16 hl,
    List.drop_eq_nil_of_le (by rw [length_take_putUint16 hl]; exact ha), List.nil_append,
    List.drop_drop, Nat.add_sub_cancel' ha]

theorem byteSlice_withFlags_of_ge {a n : ℕ} (hl : 146 ≤ data.length) (ha : 146 ≤ a) :
    byteSlice (data.take 144 ++ putUint16 w ++ data.drop 146) a n = byteSlice data a n := by
  rw [byteSlice, drop_withFlags hl ha, byteSlice]

theorem byteSlice_withFlags_of_le {a n : ℕ} (hl : 146 ≤ data.length) (h : a + n ≤ 144) :
    byteSlice (data.take 144 ++ putUint16 w ++ data.drop 146) a n = byteSlice data a n := by
  rw [byteSlice, List.append_assoc, List.drop_append_of_le_length (by simp; omega),
    List.take_append_of_le_length (by simp; omega), List.drop_take, List.take_take,
    Nat.min_eq_left (by omega), byteSlice]

theorem getD_withFlags_of_lt {i : ℕ} (hl : 146 ≤ data.length) (h : i < 144) :
    (data.take 144 ++ putUint16 w ++ data.drop 146).getD i 0 = data.getD i 0 := by
  rw [List.append_assoc, List.getD_append _ _ _ _ (by simp; omega), List.getD_eq_getElem?_getD,
    List.getD_eq_getElem?_getD, List.getElem?_take_of_lt h]

theorem byteSlice_withFlags_flags (hl : 146 ≤ data.length) :
    byteSlice (data.take 144 ++ putUint16 w ++ data.drop 146) 144 2 = putUint16 w := by
  rw [byteSlice, List.append_assoc, List.drop_append_of_le_length (by simp; omega)]
  simp [List.drop_eq_nil_of_le (show (data.take 144).length ≤ 144 by simp), length_putUint16]

/-- The parser reads the flag word through its two low bits only. -/
theorem parseNVTrustQuote_withFlags (hl : 146 ≤ data.length) (w : UInt16) :
    parseNVTrustQuote (data.take 144 ++ putUint16 w ++ data.drop 146) =
      (parseNVTrustQuote data).map fun q =>
        { q with ccEnabled := w &&& 0x0001 ≠ 0, teeIOEnabled := w &&& 0x0002 ≠ 0 } := by
  have h146 := byteSlice_withFlags_of_ge (w := w) (n := 2) hl le_rfl
  have h148 : ∀ n, byteSlice (data.take 144 ++ putUint16 w ++ data.drop 146) 148 n =
      byteSlice data 148 n := fun n => byteSlice_withFlags_of_ge hl (by norm_num)
  have hhi : ∀ b n, byteSlice (data.take 144 ++ putUint16 w ++ data.drop 146) (148 + b) n =
      byteSlice data (148 + b) n := fun b n => byteSlice_withFlags_of_ge hl (by omega)
  have hdrop : ∀ b, (data.take 144 ++ putUint16 w ++ data.drop 146).drop (148 + b) =
      data.drop (148 + b) := fun b => drop_withFlags hl (by omega)
  have h2 := getD_withFlags_of_lt (w := w) hl (by norm_num : 2 < 144)
  have h3 := getD_withFlags_of_lt (w := w) hl (by norm_num : 3 < 144)
  unfold parseNVTrustQuote
  simp only [length_withFlags hl, byteSlice_withFlags_of_le hl, h2, h3,
    byteSlice_withFlags_flags hl, uint16Of_putUint16, h146, h148, hhi, hdrop, nvTrustHeaderSize,
    nvTrustMinQuoteSize, Nat.reduceAdd, Nat.reduceLeDiff, Nat.add_assoc]
  simp only [apply_ite (Except.map _)]
  rfl

end Flags

/-- **`SerializeQuote` undoes `ParseNVTrustQuote`.** For every input the parser accepts,
writing the quote back gives the input, except the flag word at offset 144, which is written
with only the two bits the parser read: `CCEnabled` and `TEEIOEnabled`. Those are all it reads
of the word: with any other word in its place, the input parses to the same quote with the new
word's two bits. -/
theorem serializeQuote_parseNVTrustQuote {data : List UInt8} {q : NVTrustQuote}
    (h : parseNVTrustQuote data = .ok q) :
    serializeQuote q =
        data.take 144 ++ putUint16 (quoteFlags q.ccEnabled q.teeIOEnabled) ++ data.drop 146 ∧
      ∀ w : UInt16, parseNVTrustQuote (data.take 144 ++ putUint16 w ++ data.drop 146) =
        .ok { q with ccEnabled := w &&& 0x0001 ≠ 0, teeIOEnabled := w &&& 0x0002 ≠ 0 } := by
  have hs := serializeQuote_eq_of_parse h
  have hl : 146 ≤ data.length := by
    have := congrArg List.length hs
    simp only [length_serializeQuote, List.length_append, List.length_take, length_putUint16,
      List.length_drop] at this
    omega
  refine ⟨hs, fun w => ?_⟩
  rw [parseNVTrustQuote_withFlags hl, h]
  rfl

set_option maxRecDepth 8000 in
theorem serializeQuote_parseNVTrustQuote_of_flags :
    let data : List UInt8 :=
      [0, 1, 1, 0] ++ List.replicate 140 0 ++ [0xFF, 0x01] ++ List.replicate 8 0
    let q : NVTrustQuote := ⟨1, quoteTypeLocal, 0, 0, 0, .zero 32, .zero 32, .zero 32, .zero 32,
      true, false, [], [], [], []⟩
    parseNVTrustQuote data = .ok q ∧
      (serializeQuote q = data.take 144 ++ putUint16 (quoteFlags q.ccEnabled q.teeIOEnabled) ++
          data.drop 146 ∧
        ∀ w : UInt16, parseNVTrustQuote (data.take 144 ++ putUint16 w ++ data.drop 146) =
          .ok { q with ccEnabled := w &&& 0x0001 ≠ 0, teeIOEnabled := w &&& 0x0002 ≠ 0 }) := by
  intro data q
  have h : parseNVTrustQuote data = .ok q := by
    have hd : (parseNVTrustQuote data).toOption = some q := by decide
    revert hd
    cases parseNVTrustQuote data <;> simp [Except.toOption]
  exact ⟨h, serializeQuote_parseNVTrustQuote h⟩

set_option maxRecDepth 8000 in
/-- The flag word `0xFF01` is read as `CCEnabled` alone and written back as `0x0001`. -/
example : serializeQuote ⟨1, quoteTypeLocal, 0, 0, 0, .zero 32, .zero 32, .zero 32, .zero 32,
      true, false, [], [], [], []⟩ ≠
    [0, 1, 1, 0] ++ List.replicate 140 0 ++ [0xFF, 0x01] ++ List.replicate 8 0 := by
  decide

end Precompiles.Gpu
