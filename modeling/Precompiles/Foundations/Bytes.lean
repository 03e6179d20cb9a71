import Mathlib

/-!
# Byte strings

The byte-level vocabulary the Go sources share: fixed-size byte arrays (`common.Address`,
`common.Hash`, `[32]byte`), Go's `copy` into a slice, `common.LeftPadBytes`, the big-endian
words of `encoding/binary`, and the two `math/big` conversions `(*big.Int).Bytes` and
`(*big.Int).SetBytes`. A Go `string` is a byte string, and is a `List UInt8` here.

* `beNat_beBytes`: reading back the `k` big-endian bytes of `n` gives `n mod 256 ^ k`. The
  `binary.BigEndian` round trips at 2, 4 and 8 bytes (`uint16Of_putUint16`, ...) are its
  instances.
* `beNat_natBytes`: `SetBytes` undoes `Bytes`.
* `beNat_append_zeros`: trailing zero bytes scale the value, which is what a left-aligned
  `copy` into a wider word does to it.
* `drop_eq_take_append_pair`, `eq_getD_cons_drop_three`: a byte list cut at the offsets a parser
  computes, for the proofs that an input a parser accepts is the frame of what it read.
-/

namespace Precompiles

/-- A Go byte array `[n]byte`. -/
@[ext] structure FixedBytes (n : ℕ) where
  toList : List UInt8
  length_toList : toList.length = n
  deriving DecidableEq

/-- `common.Address`. -/
abbrev Address := FixedBytes 20

/-- `common.Hash`, a 32-byte storage key or word. -/
abbrev Hash := FixedBytes 32

/-- The bytes of a Go string literal (all literals of the sources are ASCII). -/
def strBytes (s : String) : List UInt8 := s.toList.map fun c => c.toNat.toUInt8

/-! ## Big-endian words -/

/-- The `k` big-endian bytes of `n mod 256 ^ k`: the most significant first, each byte the
truncation `byte(v)` of the shifted value. -/
def beBytes : ℕ → ℕ → List UInt8
  | 0, _ => []
  | k + 1, n => beBytes k (n / 256) ++ [UInt8.ofNat (n % 256)]

/-- The number a big-endian byte string denotes; `(*big.Int).SetBytes`. -/
def beNat (l : List UInt8) : ℕ := l.foldl (fun acc b => acc * 256 + b.toNat) 0

@[simp] theorem length_beBytes (k n : ℕ) : (beBytes k n).length = k := by
  induction k generalizing n with
  | zero => rfl
  | succ k ih => simp [beBytes, ih]

@[simp] theorem beNat_nil : beNat [] = 0 := rfl

@[simp] theorem beNat_singleton (b : UInt8) : beNat [b] = b.toNat := by simp [beNat]

theorem foldl_beNat (a : ℕ) (l : List UInt8) :
    l.foldl (fun acc b => acc * 256 + b.toNat) a = a * 256 ^ l.length + beNat l := by
  induction l generalizing a with
  | nil => simp
  | cons b l ih =>
    simp only [beNat, List.foldl_cons, List.length_cons]
    rw [ih, ih]
    ring

theorem beNat_append (l m : List UInt8) : beNat (l ++ m) = beNat l * 256 ^ m.length + beNat m := by
  rw [beNat, List.foldl_append, foldl_beNat]
  rfl

theorem beNat_lt (l : List UInt8) : beNat l < 256 ^ l.length := by
  induction l using List.reverseRecOn with
  | nil => simp
  | append_singleton l b ih =>
    have hb : b.toNat < 256 := b.toNat_lt
    rw [beNat_append, beNat_singleton, List.length_append, List.length_singleton, pow_succ]
    omega

theorem beNat_cons (a : UInt8) (l : List UInt8) :
    beNat (a :: l) = a.toNat * 256 ^ l.length + beNat l := by
  simpa using beNat_append [a] l

/-- A larger leading byte makes a larger value, whatever the bytes after it. -/
theorem beNat_cons_lt_of_lt {a b : UInt8} {as bs : List UInt8} (hl : as.length = bs.length)
    (h : a.toNat < b.toNat) : beNat (a :: as) < beNat (b :: bs) := by
  have ha := beNat_lt as
  rw [beNat_cons, beNat_cons, ← hl]
  calc a.toNat * 256 ^ as.length + beNat as < (a.toNat + 1) * 256 ^ as.length := by
        rw [Nat.succ_mul]; omega
    _ ≤ b.toNat * 256 ^ as.length := Nat.mul_le_mul_right _ h
    _ ≤ b.toNat * 256 ^ as.length + beNat bs := Nat.le_add_right _ _

theorem beNat_beBytes (k n : ℕ) : beNat (beBytes k n) = n % 256 ^ k := by
  induction k generalizing n with
  | zero => simp [beBytes, Nat.mod_one]
  | succ k ih =>
    have hb : (UInt8.ofNat (n % 256)).toNat = n % 256 :=
      UInt8.toNat_ofNat_of_lt (Nat.mod_lt _ (by norm_num))
    rw [beBytes, beNat_append, ih, beNat_singleton, hb, List.length_singleton, pow_one, pow_succ',
      Nat.mod_mul]
    ring

/-- Conversely, writing back the value of `l` in `len(l)` bytes gives `l`. -/
theorem beBytes_beNat (l : List UInt8) : beBytes l.length (beNat l) = l := by
  induction l using List.reverseRecOn with
  | nil => rfl
  | append_singleton l b ih =>
    have hb : b.toNat < 256 := b.toNat_lt
    have hq : (beNat l * 256 + b.toNat) / 256 = beNat l := by omega
    have hr : (beNat l * 256 + b.toNat) % 256 = b.toNat := by omega
    rw [List.length_append, List.length_singleton, beBytes, beNat_append, beNat_singleton,
      List.length_singleton, pow_one, hq, hr, ih]
    exact congrArg (l ++ [·]) (UInt8.toNat.inj (UInt8.toNat_ofNat_of_lt hb))

@[simp] theorem beNat_zeros (m : ℕ) : beNat (List.replicate m 0) = 0 := by
  induction m with
  | zero => rfl
  | succ m ih => rw [List.replicate_succ', beNat_append, ih, beNat_singleton]; rfl

/-- Trailing zero bytes multiply the value by a power of 256. -/
theorem beNat_append_zeros (l : List UInt8) (m : ℕ) :
    beNat (l ++ List.replicate m 0) = beNat l * 256 ^ m := by
  rw [beNat_append, beNat_zeros, List.length_replicate, Nat.add_zero]

/-- `binary.BigEndian.PutUint16`. -/
def putUint16 (v : UInt16) : List UInt8 := beBytes 2 v.toNat

/-- `binary.BigEndian.PutUint32`. -/
def putUint32 (v : UInt32) : List UInt8 := beBytes 4 v.toNat

/-- `binary.BigEndian.PutUint64`. -/
def putUint64 (v : UInt64) : List UInt8 := beBytes 8 v.toNat

/-- `binary.BigEndian.Uint16`, applied to a 2-byte slice. -/
def uint16Of (b : List UInt8) : UInt16 := UInt16.ofNat (beNat b)

/-- `binary.BigEndian.Uint32`, applied to a 4-byte slice. -/
def uint32Of (b : List UInt8) : UInt32 := UInt32.ofNat (beNat b)

/-- `binary.BigEndian.Uint64`, applied to an 8-byte slice. -/
def uint64Of (b : List UInt8) : UInt64 := UInt64.ofNat (beNat b)

@[simp] theorem length_putUint16 (v : UInt16) : (putUint16 v).length = 2 := length_beBytes ..

@[simp] theorem length_putUint32 (v : UInt32) : (putUint32 v).length = 4 := length_beBytes ..

@[simp] theorem length_putUint64 (v : UInt64) : (putUint64 v).length = 8 := length_beBytes ..

@[simp] theorem uint16Of_putUint16 (v : UInt16) : uint16Of (putUint16 v) = v := by
  apply UInt16.toNat.inj
  rw [uint16Of, putUint16, beNat_beBytes, Nat.mod_eq_of_lt (by simpa using v.toNat_lt)]
  exact UInt16.toNat_ofNat_of_lt v.toNat_lt_size

@[simp] theorem uint32Of_putUint32 (v : UInt32) : uint32Of (putUint32 v) = v := by
  apply UInt32.toNat.inj
  rw [uint32Of, putUint32, beNat_beBytes, Nat.mod_eq_of_lt (by simpa using v.toNat_lt)]
  exact UInt32.toNat_ofNat_of_lt v.toNat_lt_size

@[simp] theorem uint64Of_putUint64 (v : UInt64) : uint64Of (putUint64 v) = v := by
  apply UInt64.toNat.inj
  rw [uint64Of, putUint64, beNat_beBytes, Nat.mod_eq_of_lt (by simpa using v.toNat_lt)]
  exact UInt64.toNat_ofNat_of_lt v.toNat_lt_size

/-- Reading a word from bytes of its length and writing it back gives the bytes. -/
theorem putUint16_uint16Of {l : List UInt8} (h : l.length = 2) : putUint16 (uint16Of l) = l := by
  have hl : beNat l < UInt16.size := by simpa [h] using beNat_lt l
  rw [putUint16, uint16Of, UInt16.toNat_ofNat_of_lt hl, ← h, beBytes_beNat]

theorem putUint32_uint32Of {l : List UInt8} (h : l.length = 4) : putUint32 (uint32Of l) = l := by
  have hl : beNat l < UInt32.size := by simpa [h] using beNat_lt l
  rw [putUint32, uint32Of, UInt32.toNat_ofNat_of_lt hl, ← h, beBytes_beNat]

theorem putUint64_uint64Of {l : List UInt8} (h : l.length = 8) : putUint64 (uint64Of l) = l := by
  have hl : beNat l < UInt64.size := by simpa [h] using beNat_lt l
  rw [putUint64, uint64Of, UInt64.toNat_ofNat_of_lt hl, ← h, beBytes_beNat]

theorem uint16_ofNat_toNat (x : UInt16) : UInt16.ofNat x.toNat = x :=
  UInt16.toNat.inj (UInt16.toNat_ofNat_of_lt x.toNat_lt_size)

theorem uint32_ofNat_toNat (x : UInt32) : UInt32.ofNat x.toNat = x :=
  UInt32.toNat.inj (UInt32.toNat_ofNat_of_lt x.toNat_lt_size)

theorem putUint16_injective : Function.Injective putUint16 := fun a b h => by
  simpa using congrArg uint16Of h

theorem putUint32_injective : Function.Injective putUint32 := fun a b h => by
  simpa using congrArg uint32Of h

theorem putUint64_injective : Function.Injective putUint64 := fun a b h => by
  simpa using congrArg uint64Of h

/-- `x<<8 | y` of a byte `y` is `256 * x + y`. -/
theorem shiftLeft_or_eq {a b : ℕ} (hb : b < 2 ^ 8) : a <<< 8 ||| b = 2 ^ 8 * a + b := by
  refine Nat.eq_of_testBit_eq fun j => ?_
  rw [Nat.testBit_or, Nat.testBit_shiftLeft, Nat.testBit_mul_pow_two_add a hb]
  by_cases hj : j < 8
  · simp [hj]
  · have hbj : b < 2 ^ j := lt_of_lt_of_le hb (Nat.pow_le_pow_right (by norm_num) (not_lt.1 hj))
    simp [hj, Nat.testBit_lt_two_pow hbj]
    omega

/-- `int(b1)<<8 | int(b2)`, how the sources read a 2-byte big-endian length, is `beNat`. -/
theorem toNat_shiftLeft_or (b₁ b₂ : UInt8) : b₁.toNat <<< 8 ||| b₂.toNat = beNat [b₁, b₂] := by
  rw [shiftLeft_or_eq b₂.toNat_lt]
  simp [beNat]
  ring

theorem beNat_pair_lt (a b : UInt8) : beNat [a, b] < 2 ^ 16 := by
  have := beNat_lt [a, b]
  simp only [List.length_cons, List.length_nil] at this
  omega

/-- A 2-byte length prefix is the `PutUint16` of the length it denotes. -/
theorem putUint16_ofNat_beNat (a b : UInt8) : putUint16 (.ofNat (beNat [a, b])) = [a, b] := by
  rw [putUint16, UInt16.toNat_ofNat_of_lt (beNat_pair_lt a b)]
  exact beBytes_beNat [a, b]

theorem beNat_putUint16_ofNat {n : ℕ} (h : n < 2 ^ 16) : beNat (putUint16 (.ofNat n)) = n := by
  rw [putUint16, beNat_beBytes, UInt16.toNat_ofNat_of_lt h]
  exact Nat.mod_eq_of_lt h

/-- A fixed-size array holding the big-endian bytes of `v`, as `common.HexToAddress` builds
an address from its hex digits. -/
def FixedBytes.ofNat (n v : ℕ) : FixedBytes n := ⟨beBytes n v, length_beBytes n v⟩

/-- The zero array, `common.Hash{}`. -/
def FixedBytes.zero (n : ℕ) : FixedBytes n := ⟨List.replicate n 0, List.length_replicate n 0⟩

instance (n : ℕ) : Inhabited (FixedBytes n) := ⟨FixedBytes.zero n⟩

/-! ## `math/big` byte conversions -/

/-- The number of bytes of the minimal big-endian encoding of `n`. -/
def byteLen (n : ℕ) : ℕ := if n = 0 then 0 else Nat.log 256 n + 1

/-- `(*big.Int).Bytes` on a natural: its minimal big-endian encoding, empty for zero. -/
def natBytes (n : ℕ) : List UInt8 := beBytes (byteLen n) n

/-- `(*big.Int).Bytes`: the minimal big-endian encoding of the absolute value. -/
def intBytes (x : ℤ) : List UInt8 := natBytes x.natAbs

theorem lt_pow_byteLen (n : ℕ) : n < 256 ^ byteLen n := by
  unfold byteLen
  split_ifs with h
  · simp [h]
  · exact Nat.lt_pow_succ_log_self (by norm_num) n

@[simp] theorem length_natBytes (n : ℕ) : (natBytes n).length = byteLen n := length_beBytes ..

@[simp] theorem beNat_natBytes (n : ℕ) : beNat (natBytes n) = n := by
  rw [natBytes, beNat_beBytes, Nat.mod_eq_of_lt (lt_pow_byteLen n)]

theorem byteLen_le_iff (n k : ℕ) : byteLen n ≤ k ↔ n < 256 ^ k := by
  unfold byteLen
  split_ifs with h
  · simp [h, Nat.pos_pow_of_pos]
  · rw [Nat.add_one_le_iff, ← Nat.lt_pow_iff_log_lt (by norm_num) h]

/-- A positive `n` needs fewer than `k` bytes exactly when it is below `256 ^ (k - 1)`. -/
theorem pow_le_of_byteLen_eq {n k : ℕ} (h : byteLen n = k + 1) : 256 ^ k ≤ n := by
  unfold byteLen at h
  split_ifs at h with hn
  have hk : Nat.log 256 n = k := by omega
  exact hk ▸ Nat.pow_log_le_self 256 hn

/-! ## Go's `copy` -/

/-- `copy(dst, src)`: overwrite the first `min(len(dst), len(src))` bytes of `dst`. -/
def goCopy (dst src : List UInt8) : List UInt8 := src.take dst.length ++ dst.drop src.length

@[simp] theorem length_goCopy (dst src : List UInt8) : (goCopy dst src).length = dst.length := by
  simp only [goCopy, List.length_append, List.length_take, List.length_drop]
  omega

theorem goCopy_zeros {src : List UInt8} {m : ℕ} (h : src.length ≤ m) :
    goCopy (List.replicate m 0) src = src ++ List.replicate (m - src.length) 0 := by
  simp [goCopy, List.take_of_length_le (h.trans_eq (List.length_replicate m 0).symm),
    List.drop_replicate, h]

/-- `copy` into a zeroed slice of the source's own length, as Go copies a byte slice into a
fresh `make([]byte, len(src))`, gives the source. -/
@[simp] theorem goCopy_replicate_length (src : List UInt8) :
    goCopy (List.replicate src.length 0) src = src := by
  simp [goCopy_zeros le_rfl]

theorem goCopy_replicate_of_length {src : List UInt8} {n : ℕ} (h : src.length = n) :
    goCopy (List.replicate n 0) src = src :=
  h ▸ goCopy_replicate_length src

/-- `common.LeftPadBytes`: `slice` itself when it has at least `l` bytes, else `slice` copied to
the end of `l` zero bytes. -/
def leftPadBytes (slice : List UInt8) (l : ℕ) : List UInt8 :=
  if l ≤ slice.length then slice else List.replicate (l - slice.length) 0 ++ slice

theorem length_leftPadBytes {slice : List UInt8} {l : ℕ} (h : slice.length ≤ l) :
    (leftPadBytes slice l).length = l := by
  unfold leftPadBytes
  split_ifs
  · omega
  · simp only [List.length_append, List.length_replicate]
    omega

/-- Leading zero bytes do not change the value. -/
@[simp] theorem beNat_leftPadBytes (slice : List UInt8) (l : ℕ) :
    beNat (leftPadBytes slice l) = beNat slice := by
  unfold leftPadBytes
  split_ifs
  · rfl
  · rw [beNat_append, beNat_zeros, Nat.zero_mul, Nat.zero_add]

/-! ## Cutting a byte list

A Go parser reads a byte slice at offsets it computes; these lemmas cut a list at such offsets,
with `getD l i 0` for the byte `l[i]` read in range. -/

theorem getD_add_eq_getD_drop (l : List UInt8) (n i : ℕ) :
    l.getD (n + i) 0 = (l.drop n).getD i 0 := by
  simp [List.getD_eq_getElem?_getD, List.getElem?_drop]

theorem drop_eq_getD_cons {l : List UInt8} {i : ℕ} (h : i < l.length) :
    l.drop i = l.getD i 0 :: l.drop (i + 1) := by
  rw [List.drop_eq_getElem_cons h, List.getD_eq_getElem _ _ h]

theorem drop_eq_take_append_drop (l : List UInt8) (i k : ℕ) :
    l.drop i = (l.drop i).take k ++ l.drop (i + k) := by
  rw [← List.drop_drop, List.take_append_drop]

/-- The bytes from `i` on are the `j` bytes of a field, two bytes, and the rest. -/
theorem drop_eq_take_append_pair {l : List UInt8} {i j : ℕ} (h : i + j + 2 ≤ l.length) :
    l.drop i = (l.drop i).take j ++ l.getD (i + j) 0 :: l.getD (i + j + 1) 0 :: l.drop (i + j + 2) := by
  rw [← drop_eq_getD_cons (by omega), ← drop_eq_getD_cons (by omega), ← drop_eq_take_append_drop]

theorem eq_getD_cons_drop_one {l : List UInt8} (h : 1 ≤ l.length) : l = l.getD 0 0 :: l.drop 1 := by
  match l, h with
  | _ :: _, _ => rfl

theorem eq_getD_cons_drop_three {l : List UInt8} (h : 3 ≤ l.length) :
    l = l.getD 0 0 :: l.getD 1 0 :: l.getD 2 0 :: l.drop 3 := by
  match l, h with
  | _ :: _ :: _ :: _, _ => rfl

end Precompiles
