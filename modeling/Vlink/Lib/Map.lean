import Mathlib.Data.List.AList
import Mathlib.Data.List.Induction

set_option autoImplicit false

/-!
# Finite maps

Association lists without repeated keys, as a map: what `insert`, a change in place and the
collection of a list do to a look-up.

## Main definitions

* `Map κ α` — a map from keys to values.
* `Map.modify` — change the value of a key that is present.
* `Map.ofList` — the map of a list of pairs, in which a later pair replaces an earlier one.

## Main results

* `Map.lookup_set` — look-up after an insertion.
* `Map.lookup_modify` — look-up after a change.
* `Map.lookup_ofList` — the pairs of a list without repeated keys.
* `Map.perm_ofList_iff` — a map has all pairs of a list if and only if no key is repeated.
-/

/-- A map from keys to values. -/
abbrev Map (κ α : Type*) := AList fun _ : κ => α

namespace Map

variable {κ α : Type*} [DecidableEq κ]

/-- Look-up after an insertion. -/
theorem lookup_set (m : Map κ α) (k k' : κ) (a : α) :
    (m.insert k a).lookup k' = if k' = k then some a else m.lookup k' := by
  split_ifs with h
  · rw [h]
    exact AList.lookup_insert m
  · exact AList.lookup_insert_ne h

/-- Change the value of a key, if it is there. -/
def modify (m : Map κ α) (k : κ) (f : α → α) : Map κ α :=
  match m.lookup k with
  | some a => m.insert k (f a)
  | none => m

/-- Look-up after a change. -/
theorem lookup_modify (m : Map κ α) (k k' : κ) (f : α → α) :
    (m.modify k f).lookup k' = if k' = k then (m.lookup k).map f else m.lookup k' := by
  unfold modify
  cases hk : m.lookup k with
  | some a => exact lookup_set m k k' (f a)
  | none =>
    split_ifs with h
    · rw [h, hk]
      rfl
    · rfl

/-- The map of a list of pairs. -/
def ofList (l : List (κ × α)) : Map κ α := l.foldl (fun m e => m.insert e.1 e.2) ∅

/-- A list without repeated keys lists the entries of its map. -/
theorem lookup_ofList {l : List (κ × α)} (h : (l.map Prod.fst).Nodup) {k : κ} {a : α} :
    (ofList l).lookup k = some a ↔ (k, a) ∈ l := by
  induction l using List.reverseRecOn with
  | nil => simp [ofList]
  | append_singleton l e ih =>
    obtain ⟨k', a'⟩ := e
    rw [List.map_append, List.nodup_append] at h
    obtain ⟨hl, -, hdisj⟩ := h
    have snoc : ofList (l ++ [(k', a')]) = (ofList l).insert k' a' := by
      simp [ofList, List.foldl_append]
    rw [snoc, lookup_set, List.mem_append, List.mem_singleton, Prod.mk.injEq]
    split_ifs with hk
    · -- the new key is not among the earlier ones
      have fresh : (k, a) ∉ l := fun hmem =>
        hdisj k (List.mem_map_of_mem hmem) k' (by simp) hk
      rw [Option.some.injEq, eq_comm]
      exact ⟨fun ha => .inr ⟨hk, ha⟩, fun h => h.elim (absurd · fresh) (·.2)⟩
    · simp [hk, ih hl]

/-- The pairs of a map. -/
def pairs (m : Map κ α) : List (κ × α) := m.entries.map fun e => (e.1, e.2)

omit [DecidableEq κ] in
/-- The keys of the pairs. -/
lemma keys_pairs (m : Map κ α) : m.pairs.map Prod.fst = m.keys := by
  simp [pairs, AList.keys, List.keys, Function.comp_def]

/-- The pairs are what is found. -/
lemma mem_pairs (m : Map κ α) {k : κ} {a : α} : (k, a) ∈ m.pairs ↔ m.lookup k = some a := by
  rw [← Option.mem_def, AList.mem_lookup_iff, pairs, List.mem_map]
  constructor
  · rintro ⟨⟨k', a'⟩, h, heq⟩
    cases heq
    exact h
  · exact fun h => ⟨⟨k, a⟩, h, rfl⟩

/-- A map has all pairs of a list if and only if no key is repeated in the list. -/
theorem perm_ofList_iff {l : List (κ × α)} : (ofList l).pairs.Perm l ↔ (l.map Prod.fst).Nodup := by
  have hkeys : ((ofList l).pairs.map Prod.fst).Nodup := by
    rw [keys_pairs]
    exact AList.keys_nodup _
  constructor
  · intro h
    exact (h.map Prod.fst).nodup_iff.mp hkeys
  · intro h
    rw [List.perm_ext_iff_of_nodup hkeys.of_map h.of_map]
    rintro ⟨k, a⟩
    rw [mem_pairs, lookup_ofList h]

end Map
