import Mathlib.Algebra.Order.Ring.Nat
import Mathlib.Tactic.Ring
import Vlink.Lib.Outcome

set_option autoImplicit false

/-!
# Byte strings, fixed-width blocks and endian codes

Buffers of the code (`Vec<u8>`, `&[u8]`) are lists of bytes; arrays `[u8; n]` are blocks, byte
strings that carry their length. Taking a sub-slice of a buffer, and turning a slice into an
array with `try_into().unwrap()`, panic when the ranges do not fit, so both are `Outcome`s.

## Main definitions

* `Bytes`, `Block n` — buffers and arrays of `n` bytes.
* `Bytes.slice`, `Bytes.toBlock`, `Bytes.block` — sub-slices and their conversion to arrays.
* `leBytes`, `leNat` — the little-endian code of a number in `w` bytes and its inverse;
  `beBytes`, `beNat` — the big-endian code.
* `Bytes.cmp` — the order of slices.

## Main results

* `leNat_leBytes`, `leBytes_leNat` — the two directions of the endian round trip.
* `Bytes.cmp_eq_compare` — byte strings of one length are ordered as their big-endian values are.
* `Bytes.block_eq_ret`, `Bytes.block_append_left`, `Bytes.block_append_right` — which array a
  field of a buffer is, and how fields of a concatenation are found.
-/

/-- A buffer of bytes. -/
abbrev Bytes := List UInt8

/-- An array of exactly `n` bytes. -/
abbrev Block (n : ℕ) := { b : Bytes // b.length = n }

/-- The length of a block. -/
@[simp] lemma Block.length_val {n : ℕ} (b : Block n) : b.val.length = n := b.2

/-- The array of `n` zero bytes. -/
def Block.zero (n : ℕ) : Block n := ⟨List.replicate n 0, List.length_replicate⟩

namespace Bytes

/-! ## Sub-slices -/

/-- `b[lo..hi]`: panics unless `lo ≤ hi ≤ b.length`. -/
def slice (b : Bytes) (lo hi : ℕ) : Outcome Bytes :=
  if lo ≤ hi ∧ hi ≤ b.length then .ret ((b.drop lo).take (hi - lo)) else .panic

/-- `b.try_into().unwrap()` at the type `[u8; n]`: panics unless `b` has `n` bytes. -/
def toBlock (n : ℕ) (b : Bytes) : Outcome (Block n) :=
  if h : b.length = n then .ret ⟨b, h⟩ else .panic

/-- `b[lo..lo + n].try_into().unwrap()`: the array of the `n` bytes from position `lo`. -/
def block (b : Bytes) (lo n : ℕ) : Outcome (Block n) := do
  let s ← slice b lo (lo + n)
  toBlock n s

/-- A sub-slice within the buffer is returned. -/
lemma slice_of_le {b : Bytes} {lo hi : ℕ} (h₁ : lo ≤ hi) (h₂ : hi ≤ b.length) :
    slice b lo hi = .ret ((b.drop lo).take (hi - lo)) := if_pos ⟨h₁, h₂⟩

/-- A sub-slice that runs past the end of the buffer panics. -/
lemma slice_of_lt {b : Bytes} {lo hi : ℕ} (h : b.length < hi) : slice b lo hi = .panic :=
  if_neg (by omega)

/-- Converting a slice of the right length succeeds. -/
@[simp] lemma toBlock_of_length {n : ℕ} {b : Bytes} (h : b.length = n) :
    toBlock n b = .ret ⟨b, h⟩ := dif_pos h

/-- An array converts to itself. -/
@[simp] lemma toBlock_val {n : ℕ} (b : Block n) : toBlock n b.val = .ret b := dif_pos b.2

/-- The array at `lo` of a buffer that is long enough. -/
theorem block_eq_ret {b : Bytes} {lo n : ℕ} (h : lo + n ≤ b.length) :
    block b lo n = .ret ⟨(b.drop lo).take n, by
      rw [List.length_take, List.length_drop]; omega⟩ := by
  have hl : ((b.drop lo).take n).length = n := by simp; omega
  simp [block, slice_of_le (Nat.le_add_right lo n) h, hl]

/-- The array at `lo` of a buffer that is too short. -/
lemma block_eq_panic {b : Bytes} {lo n : ℕ} (h : b.length < lo + n) :
    block b lo n = .panic := by
  simp [block, slice_of_lt h]

/-- Which sub-slices, conversions and fields come back. -/
lemma slice_returns_iff {b : Bytes} {lo hi : ℕ} :
    (slice b lo hi).Returns ↔ lo ≤ hi ∧ hi ≤ b.length := by
  unfold slice
  split_ifs with h <;> simp [h]

/-- Only bytes of that length are a block. -/
lemma toBlock_returns_iff {b : Bytes} {n : ℕ} : (toBlock n b).Returns ↔ b.length = n := by
  unfold toBlock
  split_ifs with h <;> simp [h]

/-- Only what is there is a block. -/
lemma block_returns_iff {b : Bytes} {lo n : ℕ} :
    (block b lo n).Returns ↔ lo + n ≤ b.length := by
  by_cases h : lo + n ≤ b.length
  · rw [block_eq_ret h]
    exact iff_of_true (Outcome.returns_ret _) h
  · rw [block_eq_panic (by omega)]
    exact iff_of_false Outcome.not_returns_panic h

/-- A field that lies at the front of a concatenation. -/
theorem block_append_left {n : ℕ} (f : Block n) (b : Bytes) :
    block (f.val ++ b) 0 n = .ret f := by
  rw [block_eq_ret (by simp)]
  congr 1
  exact Subtype.ext (List.take_left' f.2)

/-- A field that lies behind the first part of a concatenation. -/
theorem block_append_right {a b : Bytes} {lo n : ℕ} (h : a.length ≤ lo) :
    block (a ++ b) lo n = block b (lo - a.length) n := by
  by_cases hb : lo + n ≤ (a ++ b).length
  · have hb' : lo - a.length + n ≤ b.length := by simp at hb; omega
    rw [block_eq_ret hb, block_eq_ret hb']
    simp [List.drop_append, List.drop_eq_nil_of_le h]
  · have hb' : ¬ lo - a.length + n ≤ b.length := by simp at hb; omega
    rw [block_eq_panic (by omega), block_eq_panic (by omega)]

end Bytes

/-! ## Endian codes -/

/-- The little-endian code of `v` in `w` bytes; higher digits of `v` are dropped. -/
def leBytes : ℕ → ℕ → Bytes
  | 0, _ => []
  | w + 1, v => UInt8.ofNat v :: leBytes w (v / 256)

/-- The number with little-endian code `b`. -/
def leNat : Bytes → ℕ
  | [] => 0
  | b :: bs => b.toNat + 256 * leNat bs

/-- The big-endian code of `v` in `w` bytes. -/
def beBytes (w v : ℕ) : Bytes := (leBytes w v).reverse

/-- The number of bytes. -/
@[simp] lemma length_leBytes (w v : ℕ) : (leBytes w v).length = w := by
  induction w generalizing v with
  | zero => rfl
  | succ w ih => simp [leBytes, ih]

/-- The number of bytes. -/
@[simp] lemma length_beBytes (w v : ℕ) : (beBytes w v).length = w := by
  simp [beBytes]

/-- The number with big-endian code `b`. -/
def beNat (b : Bytes) : ℕ := leNat b.reverse

/-- A code of `b.length` bytes reads as a number below `256 ^ b.length`. -/
lemma leNat_lt (b : Bytes) : leNat b < 256 ^ b.length := by
  induction b with
  | nil => simp [leNat]
  | cons x b ih =>
    have hx : x.toNat < 256 := x.toNat_lt
    simp only [leNat, List.length_cons, pow_succ]
    omega

/-- Decoding a code gives the number back, up to the width of the code. -/
theorem leNat_leBytes (w v : ℕ) : leNat (leBytes w v) = v % 256 ^ w := by
  induction w generalizing v with
  | zero => simp [leBytes, leNat, Nat.mod_one]
  | succ w ih =>
    have hp : 256 ^ (w + 1) = 256 * 256 ^ w := by rw [pow_succ, Nat.mul_comm]
    simp only [leBytes, leNat, ih, UInt8.toNat_ofNat', hp, Nat.mod_mul]

/-- Decoding a big-endian code gives the number back, up to the width of the code. -/
@[simp] lemma beNat_beBytes (w v : ℕ) : beNat (beBytes w v) = v % 256 ^ w := by
  rw [beNat, beBytes, List.reverse_reverse, leNat_leBytes]

/-- The first bytes are the lowest. -/
lemma leNat_append (a b : Bytes) : leNat (a ++ b) = leNat a + 256 ^ a.length * leNat b := by
  induction a with
  | nil => simp [leNat]
  | cons x a ih =>
    simp only [List.cons_append, leNat, ih, List.length_cons, pow_succ]
    ring

/-- The big-endian value of a concatenation. -/
lemma beNat_append (a b : Bytes) : beNat (a ++ b) = beNat a * 256 ^ b.length + beNat b := by
  rw [beNat, List.reverse_append, leNat_append, List.length_reverse, beNat, beNat]
  ring

/-- The first byte counts most. -/
lemma beNat_cons (x : UInt8) (b : Bytes) :
    beNat (x :: b) = x.toNat * 256 ^ b.length + beNat b := by
  rw [← List.singleton_append, beNat_append]
  simp [beNat, leNat]

/-- The bound on the number. -/
lemma beNat_lt (b : Bytes) : beNat b < 256 ^ b.length := by
  simpa [beNat] using leNat_lt b.reverse

/-- Encoding a decoded code gives the code back. -/
theorem leBytes_leNat (b : Bytes) : leBytes b.length (leNat b) = b := by
  induction b with
  | nil => rfl
  | cons x b ih =>
    have hx : x.toNat < 256 := x.toNat_lt
    have hd : (x.toNat + 256 * leNat b) / 256 = leNat b := by omega
    have hm : UInt8.ofNat (x.toNat + 256 * leNat b) = x := by
      apply UInt8.toNat_inj.mp
      rw [UInt8.toNat_ofNat']
      omega
    simp only [List.length_cons, leBytes, leNat, hd, hm, ih]

/-! ## Order -/

/-- `Ord::cmp` of slices: the first different byte decides, and a beginning comes before the
whole. -/
def Bytes.cmp : Bytes → Bytes → Ordering
  | [], [] => .eq
  | [], _ :: _ => .lt
  | _ :: _, [] => .gt
  | a :: as, b :: bs => if a < b then .lt else if a = b then Bytes.cmp as bs else .gt

/-- Byte strings of one length are ordered as their big-endian values are.

**Proof sketch.** The first byte counts `256 ^ w`, and the value of the `w` bytes after it is less
than that. -/
theorem Bytes.cmp_eq_compare {a b : Bytes} (h : a.length = b.length) :
    Bytes.cmp a b = compare (beNat a) (beNat b) := by
  induction a generalizing b with
  | nil =>
    obtain rfl : b = [] := List.length_eq_zero_iff.mp h.symm
    rfl
  | cons x a ih =>
    obtain ⟨y, b, rfl⟩ := List.exists_cons_of_length_eq_add_one h.symm
    have hlen : a.length = b.length := by simpa using h
    have ha : beNat a < 256 ^ b.length := hlen ▸ beNat_lt a
    have hb := beNat_lt b
    rw [Bytes.cmp, beNat_cons, beNat_cons, hlen]
    rcases Nat.lt_trichotomy x.toNat y.toNat with hlt | heq | hgt
    · have := Nat.mul_le_mul_right (256 ^ b.length) (Nat.succ_le_of_lt hlt)
      rw [Nat.succ_mul] at this
      rw [if_pos (UInt8.lt_iff_toNat_lt.mpr hlt), eq_comm, Nat.compare_eq_lt]
      omega
    · have hxy : x = y := UInt8.toNat_inj.mp heq
      rw [if_neg (by simp [hxy]), if_pos hxy, ih hlen, hxy]
      simp only [Nat.compare_eq_ite_lt, Nat.add_lt_add_iff_left]
    · have := Nat.mul_le_mul_right (256 ^ b.length) (Nat.succ_le_of_lt hgt)
      rw [Nat.succ_mul] at this
      have hne : x ≠ y := fun h => by simp [h] at hgt
      rw [if_neg (by simp [UInt8.lt_iff_toNat_lt]; omega), if_neg hne, eq_comm, Nat.compare_eq_gt]
      omega

/-- `u32::to_le_bytes`. -/
def le32 (v : UInt32) : Block 4 := ⟨leBytes 4 v.toNat, length_leBytes 4 _⟩

/-- `u32::from_le_bytes`. -/
def ofLe32 (b : Block 4) : UInt32 := UInt32.ofNat (leNat b.val)

/-- `u64::to_le_bytes`. -/
def le64 (v : UInt64) : Block 8 := ⟨leBytes 8 v.toNat, length_leBytes 8 _⟩

/-- `u64::from_le_bytes`. -/
def ofLe64 (b : Block 8) : UInt64 := UInt64.ofNat (leNat b.val)

/-- A word is read back. -/
@[simp] lemma ofLe32_le32 (v : UInt32) : ofLe32 (le32 v) = v := by
  have hv : v.toNat < 2 ^ 32 := v.toNat_lt
  apply UInt32.toNat_inj.mp
  simp only [ofLe32, le32, leNat_leBytes, UInt32.toNat_ofNat']
  omega

/-- A word is read back. -/
@[simp] lemma ofLe64_le64 (v : UInt64) : ofLe64 (le64 v) = v := by
  have hv : v.toNat < 2 ^ 64 := v.toNat_lt
  apply UInt64.toNat_inj.mp
  simp only [ofLe64, le64, leNat_leBytes, UInt64.toNat_ofNat']
  omega

/-- A block is written back. -/
@[simp] lemma le32_ofLe32 (b : Block 4) : le32 (ofLe32 b) = b := by
  obtain ⟨b, h⟩ := b
  have hb : leNat b < 256 ^ 4 := h ▸ leNat_lt b
  have hn : (ofLe32 ⟨b, h⟩).toNat = leNat b := by
    simp only [ofLe32, UInt32.toNat_ofNat']
    omega
  apply Subtype.ext
  simp only [le32, hn]
  exact h ▸ leBytes_leNat b

/-- A block is written back. -/
@[simp] lemma le64_ofLe64 (b : Block 8) : le64 (ofLe64 b) = b := by
  obtain ⟨b, h⟩ := b
  have hb : leNat b < 256 ^ 8 := h ▸ leNat_lt b
  have hn : (ofLe64 ⟨b, h⟩).toNat = leNat b := by
    simp only [ofLe64, UInt64.toNat_ofNat']
    omega
  apply Subtype.ext
  simp only [le64, hn]
  exact h ▸ leBytes_leNat b
