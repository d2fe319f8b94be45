import Mathlib.Tactic.Common
import Vlink.Lib.Outcome

set_option autoImplicit false

/-!
# Bitmaps in 64-bit words, and ring positions

A bitmap of `64 m` flags is kept in `m` machine words. The operations address a flag by its
word and its bit in the word, and panic when either is out of range. `Bitmap.flag` is the flat
view of the same data, in which the operations are described.

A bitmap used as a ring of `n` flags is addressed by the distance back from a moving head:
`ringSlot n h o` is the position `o` places before the head position `h`.

## Main definitions

* `Bitmap m`, `Bitmap.flag` — the words, and flag `k` of them.
* `Bitmap.test`, `Bitmap.set`, `Bitmap.clear` — the word operations.
* `ringSlot` — the position at a distance from the head of a ring.

## Main results

* `Bitmap.test_eq`, `Bitmap.set_spec`, `Bitmap.clear_spec` — the operations on flag `k`, each
  in terms of `Bitmap.flag`.
* `ringSlot_succ` — moving the head by one place moves every distance by one.
* `ringSlot_inj` — distances from `1` to `n` are different positions.
-/

/-- A bitmap of `64 m` flags in `m` words. -/
abbrev Bitmap (m : ℕ) := Vector (BitVec 64) m

namespace Bitmap

variable {m : ℕ}

/-- The bitmap with no flag set. -/
def empty (m : ℕ) : Bitmap m := Vector.replicate m 0#64

/-- Flag `k`: bit `k % 64` of word `k / 64`. -/
def flag (b : Bitmap m) (k : ℕ) : Bool := (b[k / 64]?.getD 0#64).getLsbD (k % 64)

/-- `b[w] & (1 << i) != 0`. -/
def test (b : Bitmap m) (w i : ℕ) : Outcome Bool :=
  if h : w < m then
    if i < 64 then .ret (b[w] &&& (1#64 <<< i) != 0#64) else .panic
  else .panic

/-- `b[w] |= 1 << i`. -/
def set (b : Bitmap m) (w i : ℕ) : Outcome (Bitmap m) :=
  if h : w < m then
    if i < 64 then .ret (Vector.set b w (b[w] ||| (1#64 <<< i)) h) else .panic
  else .panic

/-- `b[w] &= !(1 << i)`. -/
def clear (b : Bitmap m) (w i : ℕ) : Outcome (Bitmap m) :=
  if h : w < m then
    if i < 64 then .ret (Vector.set b w (b[w] &&& ~~~(1#64 <<< i)) h) else .panic
  else .panic

/-- No flag of the empty bitmap is set. -/
@[simp] lemma flag_empty (k : ℕ) : (empty m).flag k = false := by
  unfold flag empty
  by_cases h : k / 64 < m <;> simp [h]

/-- The bit test of a word with a one-bit mask. -/
lemma and_mask_ne_zero (x : BitVec 64) {i : ℕ} (h : i < 64) :
    (x &&& (1#64 <<< i) != 0#64) = x.getLsbD i := by
  rw [Bool.eq_iff_iff, bne_iff_ne]
  constructor
  · intro hne
    by_contra hb
    apply hne
    ext j hj
    by_cases hji : j = i
    · subst hji
      simpa [hj] using hb
    · simp
      omega
  · intro hb h0
    have := congrArg (fun y => y.getLsbD i) h0
    simp [h] at this
    simp [BitVec.getLsbD_eq_getElem h, this] at hb

/-- Flags after one word is replaced. -/
lemma flag_set_word (b : Bitmap m) {w : ℕ} (hw : w < m) (y : BitVec 64) (k : ℕ) :
    flag (Vector.set b w y hw) k = if k / 64 = w then y.getLsbD (k % 64) else b.flag k := by
  unfold flag
  by_cases h : k / 64 = w
  · subst h
    simp [hw]
  · rw [if_neg h, Vector.getElem?_set_ne hw (Ne.symm h)]

/-- Testing flag `k` by its word and bit. -/
theorem test_eq (b : Bitmap m) {k : ℕ} (hk : k < 64 * m) :
    b.test (k / 64) (k % 64) = .ret (b.flag k) := by
  have hw : k / 64 < m := by omega
  have hi : k % 64 < 64 := by omega
  simp only [test, hw, hi, ↓reduceDIte, ↓reduceIte, and_mask_ne_zero _ hi]
  simp [flag, hw]

/-- Setting flag `k` by its word and bit sets that flag and no other. -/
theorem set_spec (b : Bitmap m) {k : ℕ} (hk : k < 64 * m) :
    ∃ b', b.set (k / 64) (k % 64) = .ret b' ∧ ∀ j, b'.flag j = (decide (j = k) || b.flag j) := by
  have hw : k / 64 < m := by omega
  have hi : k % 64 < 64 := by omega
  refine ⟨Vector.set b (k / 64) (b[k / 64] ||| (1#64 <<< (k % 64))) hw,
    by simp only [set, hw, hi, ↓reduceDIte, ↓reduceIte], fun j => ?_⟩
  rw [flag_set_word]
  by_cases hj : j / 64 = k / 64
  · have hb : (decide (j % 64 = k % 64)) = decide (j = k) := decide_eq_decide.mpr (by omega)
    have hji : j % 64 < 64 := by omega
    rw [if_pos hj, ← hb]
    simp [flag, hj, hw, hji, Bool.or_comm]
    grind
  · have hne : j ≠ k := fun h => hj (h ▸ rfl)
    simp [hj, hne]

/-- Clearing flag `k` by its word and bit clears that flag and no other. -/
theorem clear_spec (b : Bitmap m) {k : ℕ} (hk : k < 64 * m) :
    ∃ b', b.clear (k / 64) (k % 64) = .ret b' ∧
      ∀ j, b'.flag j = (!decide (j = k) && b.flag j) := by
  have hw : k / 64 < m := by omega
  have hi : k % 64 < 64 := by omega
  refine ⟨Vector.set b (k / 64) (b[k / 64] &&& ~~~(1#64 <<< (k % 64))) hw,
    by simp only [clear, hw, hi, ↓reduceDIte, ↓reduceIte], fun j => ?_⟩
  rw [flag_set_word]
  by_cases hj : j / 64 = k / 64
  · have hb : (decide (j % 64 = k % 64)) = decide (j = k) := decide_eq_decide.mpr (by omega)
    have hji : j % 64 < 64 := by omega
    rw [if_pos hj, ← hb]
    simp [flag, hj, hw, hji, Bool.and_comm]
    grind
  · have hne : j ≠ k := fun h => hj (h ▸ rfl)
    simp [hj, hne]

end Bitmap

/-! ## Ring positions -/

/-- The position `o` places before the head `h` of a ring of `n` positions. -/
def ringSlot (n h o : ℕ) : ℕ := if o ≤ h then h - o else n + h - o

/-- A distance of at least `1` and at most `n` is a position of the ring. -/
lemma ringSlot_lt {n h o : ℕ} (hh : h < n) (ho : 1 ≤ o) : ringSlot n h o < n := by
  unfold ringSlot
  split_ifs <;> omega

/-- After the head moves on by one place, what was at distance `o` is at distance `o + 1`. -/
theorem ringSlot_succ {n h o : ℕ} (hh : h < n) (ho : 1 ≤ o) (hn : o < n) :
    ringSlot n ((h + 1) % n) (o + 1) = ringSlot n h o := by
  unfold ringSlot
  by_cases hw : h + 1 = n
  · simp only [hw, Nat.mod_self]
    split_ifs <;> omega
  · rw [Nat.mod_eq_of_lt (by omega)]
    split_ifs <;> omega

/-- After the head moves on by one place, the old head is at distance `1`, and it was at
distance `n` before. -/
lemma ringSlot_one {n h : ℕ} (hh : h < n) :
    ringSlot n ((h + 1) % n) 1 = ringSlot n h n := by
  unfold ringSlot
  by_cases hw : h + 1 = n
  · simp only [hw, Nat.mod_self]
    split_ifs <;> omega
  · rw [Nat.mod_eq_of_lt (by omega)]
    split_ifs <;> omega

/-- Different distances from `1` to `n` are different positions. -/
theorem ringSlot_inj {n h o o' : ℕ} (ho : 1 ≤ o) (hn : o ≤ n) (ho' : 1 ≤ o')
    (hn' : o' ≤ n) (he : ringSlot n h o = ringSlot n h o') : o = o' := by
  unfold ringSlot at he
  split_ifs at he <;> omega
