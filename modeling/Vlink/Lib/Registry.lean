import Mathlib.Algebra.Order.Ring.Nat
import Mathlib.Data.List.Nodup
import Mathlib.Logic.Function.Basic
import Mathlib.Tactic.SplitIfs
import Mathlib.Tactic.TypeStar

set_option autoImplicit false

/-!
# Items in places, and a table of the listed ones

Items with a key sit in places, at most one in a place. Some places are *listed*: a shared
table maps the key of each item in a listed place to the item. `Registry` says that the table
and the places agree, and that no two places hold items with the same key. The lemmas below are
the moves that keep it so; an operation that changes several places is a chain of moves.

## Main definitions

* `Registry key listed at table` — the table lists exactly the items in listed places, and keys
  are not shared.
* `tickets` — keys that a wrapping counter hands out.

## Main results

* `Registry.hold`, `Registry.release` — fill and empty a place that is not listed.
* `Registry.put`, `Registry.drop` — fill and empty a listed place, with the table entry.
* `Registry.move` — from one listed place to another.
* `nodup_tickets` — a counter of 32 bits hands out `2 ^ 32` different keys.
-/

/-! ## Keys -/

/-- The first `n` values of a counter that starts at `start` and wraps. -/
def tickets (start : UInt32) (n : ℕ) : List UInt32 :=
  (List.range n).map fun k => start + UInt32.ofNat k

/-- One more ticket. -/
lemma tickets_succ (start : UInt32) (n : ℕ) :
    tickets start (n + 1) = tickets start n ++ [start + UInt32.ofNat n] := by
  simp [tickets, List.range_succ]

/-- No value comes twice before the counter has gone round. -/
theorem nodup_tickets (start : UInt32) {n : ℕ} (h : n ≤ 2 ^ 32) : (tickets start n).Nodup := by
  refine List.nodup_range.map_on fun i hi j hj heq => ?_
  have hi' : i < 2 ^ 32 := Nat.lt_of_lt_of_le (List.mem_range.mp hi) h
  have hj' : j < 2 ^ 32 := Nat.lt_of_lt_of_le (List.mem_range.mp hj) h
  have hval := congrArg UInt32.toNat ((UInt32.add_right_inj start).mp heq)
  rwa [UInt32.toNat_ofNat_of_lt' hi', UInt32.toNat_ofNat_of_lt' hj'] at hval

/-! ## Places -/

variable {ι κ σ : Type*}

/-- The places `at_` and the table agree: keys are not shared between places, and the table
maps a key to an item iff a listed place holds the item and the key is its key. -/
structure Registry (key : σ → ι) (listed : κ → Prop) (at_ : κ → Option σ)
    (table : ι → Option σ) : Prop where
  /-- Different places hold items with different keys. -/
  place_unique : ∀ {k k' s s'}, at_ k = some s → at_ k' = some s' → key s = key s' → k = k'
  /-- The entries of the table are the items in listed places. -/
  table_iff : ∀ {i s}, table i = some s ↔ ∃ k, listed k ∧ at_ k = some s ∧ key s = i

namespace Registry

variable {key : σ → ι} {listed : κ → Prop} {at_ : κ → Option σ} {table : ι → Option σ}
  {k k' : κ} {s s' : σ}

/-- The entry of an item in a listed place. -/
lemma lookup (h : Registry key listed at_ table) (hl : listed k) (hs : at_ k = some s) :
    table (key s) = some s :=
  h.table_iff.mpr ⟨k, hl, hs, rfl⟩

variable [DecidableEq κ]

/-- Filling a place with an item whose key no place has keeps keys apart. -/
private lemma place_unique_update (h : Registry key listed at_ table)
    (hfresh : ∀ k' s', at_ k' = some s' → key s' ≠ key s) {k₁ k₂ : κ} {s₁ s₂ : σ}
    (h₁ : Function.update at_ k (some s) k₁ = some s₁)
    (h₂ : Function.update at_ k (some s) k₂ = some s₂) (hk : key s₁ = key s₂) : k₁ = k₂ := by
  rw [Function.update_apply] at h₁ h₂
  split_ifs at h₁ h₂ with e₁ e₂ e₂
  · exact e₁.trans e₂.symm
  · cases h₁
    exact absurd hk.symm (hfresh k₂ s₂ h₂)
  · cases h₂
    exact absurd hk (hfresh k₁ s₁ h₁)
  · exact h.place_unique h₁ h₂ hk

/-- Emptying a place keeps keys apart. -/
private lemma place_unique_erase (h : Registry key listed at_ table) {k₁ k₂ : κ} {s₁ s₂ : σ}
    (h₁ : Function.update at_ k none k₁ = some s₁) (h₂ : Function.update at_ k none k₂ = some s₂)
    (hk : key s₁ = key s₂) : k₁ = k₂ := by
  rw [Function.update_apply] at h₁ h₂
  split_ifs at h₁ h₂
  exact h.place_unique h₁ h₂ hk

/-- A place that is not listed may be filled with an item whose key is new. -/
theorem hold (h : Registry key listed at_ table) (hl : ¬ listed k)
    (hfresh : ∀ k' s', at_ k' = some s' → key s' ≠ key s) :
    Registry key listed (Function.update at_ k (some s)) table where
  place_unique := h.place_unique_update hfresh
  table_iff := by
    intro i s'
    rw [h.table_iff]
    refine exists_congr fun k' => and_congr_right fun hl' => ?_
    have hne : k' ≠ k := fun e => hl (e ▸ hl')
    rw [Function.update_of_ne hne]

/-- A place that is not listed may be emptied. -/
theorem release (h : Registry key listed at_ table) (hl : ¬ listed k) :
    Registry key listed (Function.update at_ k none) table where
  place_unique := h.place_unique_erase
  table_iff := by
    intro i s'
    rw [h.table_iff]
    refine exists_congr fun k' => and_congr_right fun hl' => ?_
    have hne : k' ≠ k := fun e => hl (e ▸ hl')
    rw [Function.update_of_ne hne]

variable [DecidableEq ι]

/-- An empty listed place may be filled with an item whose key is new, if the item is entered
in the table. -/
theorem put (h : Registry key listed at_ table) (hl : listed k) (he : at_ k = none)
    (hfresh : ∀ k' s', at_ k' = some s' → key s' ≠ key s) :
    Registry key listed (Function.update at_ k (some s))
      (Function.update table (key s) (some s)) where
  place_unique := h.place_unique_update hfresh
  table_iff := by
    intro i s'
    rw [Function.update_apply]
    constructor
    · split_ifs with hi
      · rintro ⟨⟩
        exact ⟨k, hl, Function.update_self .., hi.symm⟩
      · intro ht
        obtain ⟨k', hl', hk', rfl⟩ := h.table_iff.mp ht
        refine ⟨k', hl', ?_, rfl⟩
        rwa [Function.update_of_ne]
        rintro rfl
        simp [he] at hk'
    · rintro ⟨k', hl', hk', rfl⟩
      rw [Function.update_apply] at hk'
      split_ifs at hk' with e
      · cases hk'
        simp
      · rw [if_neg (hfresh k' s' hk')]
        exact h.lookup hl' hk'

/-- A listed place may be emptied, if the entry of its item is removed. -/
theorem drop (h : Registry key listed at_ table) (hs : at_ k = some s) :
    Registry key listed (Function.update at_ k none)
      (Function.update table (key s) none) where
  place_unique := h.place_unique_erase
  table_iff := by
    intro i s'
    rw [Function.update_apply]
    constructor
    · split_ifs with hi
      · simp
      · intro ht
        obtain ⟨k', hl', hk', rfl⟩ := h.table_iff.mp ht
        refine ⟨k', hl', ?_, rfl⟩
        rwa [Function.update_of_ne]
        rintro rfl
        rw [hs] at hk'
        cases hk'
        exact hi rfl
    · rintro ⟨k', hl', hk', rfl⟩
      rw [Function.update_apply] at hk'
      split_ifs at hk' with e
      rw [if_neg (fun hkey => e (h.place_unique hk' hs hkey))]
      exact h.lookup hl' hk'

/-- An item may move from one listed place to another one that is empty. -/
theorem move (h : Registry key listed at_ table) (hl : listed k) (hl' : listed k')
    (hs : at_ k = some s) (he : at_ k' = none) :
    Registry key listed (Function.update (Function.update at_ k none) k' (some s)) table := by
  have hne : k' ≠ k := by
    rintro rfl
    simp [he] at hs
  have emptied := h.drop hs
  have filled := emptied.put (k := k') (s := s) hl'
    (by rw [Function.update_of_ne hne]; exact he)
    (by
      intro k₁ s₁ h₁ hk
      rw [Function.update_apply] at h₁
      split_ifs at h₁ with e
      exact e (h.place_unique h₁ hs hk))
  have entry : Function.update table (key s) (some s) = table :=
    Function.update_eq_self_iff.mpr (h.lookup hl hs).symm
  rwa [Function.update_idem, entry] at filled

end Registry
