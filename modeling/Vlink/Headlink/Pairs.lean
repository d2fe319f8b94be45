import Mathlib.Data.Set.Insert
import Vlink.Headlink.Server

set_option autoImplicit false

/-!
# Keys of pairs of peers

`union_pub_key` puts the smaller of two strings before the larger, with nothing in between. The
first of the two is the registered key of a client, the other is whatever the client wrote in
`target_pub_key`. If a piece of the larger string moves to the end of the smaller one, the key stays
the same.

## Main definitions

* `Vlink.Headlink.lowerKey`, `upperKey` — the smaller and the larger of two strings.
* `Vlink.Headlink.Moved` — a piece was moved from one string of a pair to the other.
* `Vlink.Headlink.Identifies` — the key tells two pairs apart, and the flag tells the order.

## Main results

* `Vlink.Headlink.append_eq_append` — when two concatenations are equal.
* `Vlink.Headlink.identifies_iff` — the key tells two pairs apart if and only if neither is the
  other with a piece moved.
* `Vlink.Headlink.not_moved_of_length` — which is so for keys of one length.
* `Vlink.Headlink.pairs_collide` — two registered keys and two targets with the same key.
-/

namespace Vlink.Headlink

/-! ## The two strings in order -/

/-- The smaller of two strings. -/
def lowerKey (a b : String) : String := if a < b then a else b

/-- The larger of two strings. -/
def upperKey (a b : String) : String := if a < b then b else a

/-- The lower key comes first. -/
lemma unionPubKey_eq (a b : String) :
    unionPubKey a b = (lowerKey a b ++ upperKey a b, decide (a < b)) := by
  unfold unionPubKey lowerKey upperKey
  by_cases h : a < b <;> simp [h]

/-- The order in which two strings are given does not matter. -/
lemma lowerKey_upperKey_comm (a b : String) :
    lowerKey a b = lowerKey b a ∧ upperKey a b = upperKey b a := by
  unfold lowerKey upperKey
  by_cases hab : a < b
  · simp [hab, String.lt_asymm hab]
  by_cases hba : b < a
  · simp [hab, hba]
  · obtain rfl := String.le_antisymm (String.not_lt.mp hba) (String.not_lt.mp hab)
    simp

/-- The two strings of a pair are the smaller and the larger one. -/
lemma pair_eq (a b : String) : ({a, b} : Set String) = {lowerKey a b, upperKey a b} := by
  unfold lowerKey upperKey
  by_cases h : a < b
  · simp [h]
  · simp [h, Set.pair_comm]

/-- Two pairs are the same if their smaller and their larger strings are. -/
lemma pair_eq_pair_iff_lower_upper (a b c d : String) :
    ({a, b} : Set String) = {c, d} ↔ lowerKey a b = lowerKey c d ∧ upperKey a b = upperKey c d := by
  constructor
  · rw [Set.pair_eq_pair_iff]
    rintro (⟨rfl, rfl⟩ | ⟨rfl, rfl⟩)
    · exact ⟨rfl, rfl⟩
    · exact lowerKey_upperKey_comm _ _
  · rintro ⟨hlower, hupper⟩
    rw [pair_eq a b, pair_eq c d, hlower, hupper]

/-- For different strings, the flags of the two orders are opposite. -/
lemma flag_swap {a b : String} (h : a ≠ b) : (unionPubKey b a).2 = !(unionPubKey a b).2 := by
  rw [unionPubKey_eq, unionPubKey_eq]
  by_cases hab : a < b
  · simp [hab, String.lt_asymm hab]
  · have hba : b < a := by
      by_contra hba
      exact h (String.le_antisymm (String.not_lt.mp hba) (String.not_lt.mp hab))
    simp [hab, hba]

/-! ## Equal concatenations -/

/-- `x ++ y` and `z ++ w` are the same string because the non-empty piece `m` at the beginning of
`y` is the end of `z`. -/
def Moved (x y z w : String) : Prop := ∃ m, m ≠ "" ∧ z = x ++ m ∧ y = m ++ w

/-- Two concatenations are equal if and only if their parts are, or a piece was moved. -/
theorem append_eq_append {x y z w : String} :
    x ++ y = z ++ w ↔ x = z ∧ y = w ∨ Moved x y z w ∨ Moved z w x y := by
  have shift : ∀ {x y z w : String} {l : List Char}, z.toList = x.toList ++ l →
      y.toList = l ++ w.toList → x = z ∧ y = w ∨ Moved x y z w := by
    intro x y z w l hz hy
    by_cases hl : l = []
    · subst hl
      rw [List.append_nil] at hz
      rw [List.nil_append] at hy
      exact .inl ⟨(String.toList_inj.mp hz).symm, String.toList_inj.mp hy⟩
    · refine .inr ⟨String.ofList l, fun hm => hl ?_, ?_, ?_⟩
      · rw [← String.toList_eq_nil_iff, String.toList_ofList] at hm
        exact hm
      · rw [← String.toList_inj, String.toList_append, String.toList_ofList, hz]
      · rw [← String.toList_inj, String.toList_append, String.toList_ofList, hy]
  constructor
  · intro h
    rw [← String.toList_inj, String.toList_append, String.toList_append,
      List.append_eq_append_iff] at h
    rcases h with ⟨l, hz, hy⟩ | ⟨l, hx, hw⟩
    · exact (shift hz hy).imp_right .inl
    · rcases shift hx hw with ⟨rfl, rfl⟩ | hm
      · exact .inl ⟨rfl, rfl⟩
      · exact .inr (.inr hm)
  · rintro (⟨rfl, rfl⟩ | ⟨m, -, rfl, rfl⟩ | ⟨m, -, rfl, rfl⟩)
    · rfl
    · rw [String.append_assoc]
    · rw [String.append_assoc]

/-- A piece that moves makes the first string longer. -/
lemma Moved.length_lt {x y z w : String} (h : Moved x y z w) : x.length < z.length := by
  obtain ⟨m, hm, rfl, -⟩ := h
  have hpos : m.length ≠ 0 := by
    rw [← String.length_toList, ne_eq, List.length_eq_zero_iff, String.toList_eq_nil_iff]
    exact hm
  rw [String.length_append]
  omega

/-! ## What the key tells -/

/-- The keys of two pairs are equal if and only if the pairs are the same, and the flag of a pair of
different strings tells their order. -/
def Identifies (a b c d : String) : Prop :=
  ((unionPubKey a b).1 = (unionPubKey c d).1 ↔ ({a, b} : Set String) = {c, d}) ∧
    (a ≠ b → (unionPubKey b a).2 = !(unionPubKey a b).2)

/-- **The key tells two pairs apart if and only if neither is the other with a piece moved** from
the larger to the smaller string.

**Proof sketch.** The key is the concatenation of the smaller and the larger string. Equal
concatenations of different parts overlap, and the overlap is the piece. -/
theorem identifies_iff (a b c d : String) :
    Identifies a b c d ↔
      ¬ Moved (lowerKey a b) (upperKey a b) (lowerKey c d) (upperKey c d) ∧
      ¬ Moved (lowerKey c d) (upperKey c d) (lowerKey a b) (upperKey a b) := by
  unfold Identifies
  rw [and_iff_left fun h => flag_swap h, unionPubKey_eq, unionPubKey_eq,
    pair_eq_pair_iff_lower_upper, append_eq_append]
  constructor
  · intro h
    constructor
    · intro hm
      have heq := (h.mp (.inr (.inl hm))).1
      exact absurd hm.length_lt (by rw [heq]; exact lt_irrefl _)
    · intro hm
      have heq := (h.mp (.inr (.inr hm))).1
      exact absurd hm.length_lt (by rw [heq]; exact lt_irrefl _)
  · rintro ⟨h₁, h₂⟩
    exact ⟨fun h => h.resolve_right fun hm => hm.elim h₁ h₂, .inl⟩

/-- Between strings of one length no piece can move. -/
theorem not_moved_of_length {a b c d : String} {n : ℕ} (ha : a.length = n) (hb : b.length = n)
    (hc : c.length = n) (hd : d.length = n) :
    ¬ Moved (lowerKey a b) (upperKey a b) (lowerKey c d) (upperKey c d) := by
  intro hm
  have hlength : ∀ x y : String, x.length = n → y.length = n → (lowerKey x y).length = n := by
    intro x y hx hy
    unfold lowerKey
    split_ifs
    · exact hx
    · exact hy
  have := hm.length_lt
  rw [hlength a b ha hb, hlength c d hc hd] at this
  exact lt_irrefl _ this

open Sample in
/-- The first client reports a connection to `z` and the third key, the third one to the first key
and `z`. The two reports have the same key. -/
theorem pairs_collide :
    (unionPubKey keyA ("z" ++ keyC)).1 = (unionPubKey keyC (keyA ++ "z")).1 ∧
      ¬ Identifies keyA ("z" ++ keyC) keyC (keyA ++ "z") := by
  have hkeys : (unionPubKey keyA ("z" ++ keyC)).1 = (unionPubKey keyC (keyA ++ "z")).1 := by
    decide +kernel
  refine ⟨hkeys, fun h => ?_⟩
  rcases Set.pair_eq_pair_iff.mp (h.1.mp hkeys) with ⟨hac, -⟩ | ⟨hz, -⟩
  · exact absurd hac (by decide +kernel)
  · exact absurd hz (by decide +kernel)

end Vlink.Headlink
