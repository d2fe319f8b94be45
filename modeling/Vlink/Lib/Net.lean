import Mathlib.Order.Basic
import Vlink.Lib.Bytes

set_option autoImplicit false

/-!
# Network addresses

Addresses of the two IP versions as bit strings, socket addresses, and networks: the addresses
that share a prefix of a given length. The table of networks follows the documentation of the crate
`ip_network_table`: `insert` replaces the value of a network that is there already, and
`longest_match` finds the entry with the longest prefix that contains an address.

## Main definitions

* `IpAddr`, `SocketAddr` — addresses, with their octets in network order.
* `IpNetwork`, `IpNetwork.contains` — an address prefix, and the addresses in it.
* `IpNetwork.Table` — a map from networks, looked up by the longest matching prefix.

## Main results

* `IpNetwork.eq_of_contains` — an address lies in one network of each length.
* `IpNetwork.Table.longestMatch_eq_some`, `IpNetwork.Table.longestMatch_eq_none` — what a look-up
  finds.
-/

/-- An IP address of either version. -/
inductive IpAddr where
  | v4 (a : BitVec 32)
  | v6 (a : BitVec 128)
deriving DecidableEq

namespace IpAddr

/-- The address with the given four octets. -/
def ofOctets4 (b : Block 4) : IpAddr := v4 (BitVec.ofNat 32 (leNat b.val.reverse))

/-- The address with the given sixteen octets. -/
def ofOctets16 (b : Block 16) : IpAddr := v6 (BitVec.ofNat 128 (leNat b.val.reverse))

/-- The octets of an address in network order. -/
def octets : IpAddr → Bytes
  | v4 a => beBytes 4 a.toNat
  | v6 a => beBytes 16 a.toNat

end IpAddr

/-- An address and a port. -/
structure SocketAddr where
  ip : IpAddr
  port : UInt16
deriving DecidableEq

/-- A network: an address and the number of its leading bits that count. -/
structure IpNetwork where
  address : IpAddr
  netmask : ℕ
deriving DecidableEq

namespace IpNetwork

/-- The network of the first `mask` bits of an address; the other bits are set to zero. -/
def newTruncate (ip : IpAddr) (mask : ℕ) : IpNetwork :=
  match ip with
  | .v4 a => ⟨.v4 (a >>> (32 - mask) <<< (32 - mask)), mask⟩
  | .v6 a => ⟨.v6 (a >>> (128 - mask) <<< (128 - mask)), mask⟩

/-- An address lies in a network if both are of one version and agree on the leading bits. -/
def contains (n : IpNetwork) (ip : IpAddr) : Bool :=
  match n.address, ip with
  | .v4 a, .v4 b => a >>> (32 - n.netmask) == b >>> (32 - n.netmask)
  | .v6 a, .v6 b => a >>> (128 - n.netmask) == b >>> (128 - n.netmask)
  | _, _ => false

/-- A network as `newTruncate` makes them: the mask fits the version, and the bits behind it are
zero. -/
def isTruncated (n : IpNetwork) : Bool :=
  match n.address with
  | .v4 a => decide (n.netmask ≤ 32) && decide (a >>> (32 - n.netmask) <<< (32 - n.netmask) = a)
  | .v6 a => decide (n.netmask ≤ 128) && decide (a >>> (128 - n.netmask) <<< (128 - n.netmask) = a)

/-- The leading bits of an address are all that counts. -/
lemma shift_shift_shift {w : ℕ} (a : BitVec w) (k : ℕ) :
    a >>> k <<< k >>> k <<< k = a >>> k <<< k := by
  ext i hi
  simp only [BitVec.getElem_shiftLeft]
  by_cases hik : i < k
  · simp [hik]
  · simp only [hik, decide_false, Bool.not_false, Bool.true_and]
    have hk : k + (i - k) = i := by omega
    simp [hk, hik, hi]

/-- `newTruncate` makes such networks. -/
lemma isTruncated_newTruncate_v4 (a : BitVec 32) {mask : ℕ} (h : mask ≤ 32) :
    (newTruncate (.v4 a) mask).isTruncated = true := by
  simp [isTruncated, newTruncate, h, shift_shift_shift]

/-- A truncated address of version 6. -/
lemma isTruncated_newTruncate_v6 (a : BitVec 128) {mask : ℕ} (h : mask ≤ 128) :
    (newTruncate (.v6 a) mask).isTruncated = true := by
  simp [isTruncated, newTruncate, h, shift_shift_shift]

/-- Two networks of one length that contain the same address are the same. -/
theorem eq_of_contains {n n' : IpNetwork} {ip : IpAddr} (hn : n.isTruncated = true)
    (hn' : n'.isTruncated = true) (hmask : n.netmask = n'.netmask) (hc : n.contains ip = true)
    (hc' : n'.contains ip = true) : n = n' := by
  obtain ⟨addr, mask⟩ := n
  obtain ⟨addr', mask'⟩ := n'
  cases hmask
  cases addr with
  | v4 a =>
    cases addr' with
    | v4 a' =>
      cases ip with
      | v4 b =>
        simp only [contains, beq_iff_eq] at hc hc'
        simp only [isTruncated, Bool.and_eq_true, decide_eq_true_eq] at hn hn'
        rw [← hn.2, ← hn'.2, hc, hc']
      | v6 b => simp [contains] at hc
    | v6 a' => cases ip <;> simp [contains] at hc hc'
  | v6 a =>
    cases addr' with
    | v4 a' => cases ip <;> simp [contains] at hc hc'
    | v6 a' =>
      cases ip with
      | v4 b => simp [contains] at hc
      | v6 b =>
        simp only [contains, beq_iff_eq] at hc hc'
        simp only [isTruncated, Bool.and_eq_true, decide_eq_true_eq] at hn hn'
        rw [← hn.2, ← hn'.2, hc, hc']

/-- A map from networks, in insertion order with the latest entry in front. -/
abbrev Table (α : Type) := List (IpNetwork × α)

namespace Table

variable {α : Type}

/-- Insert an entry, replacing the one of the same network. -/
def insert (t : Table α) (n : IpNetwork) (a : α) : Table α :=
  (n, a) :: t.filter fun e => e.1 ≠ n

/-- The entry of the longest prefix that contains the address. -/
def longestMatch (t : Table α) (ip : IpAddr) : Option (IpNetwork × α) :=
  t.foldr (fun e best =>
    if e.1.contains ip then
      match best with
      | none => some e
      | some b => if b.1.netmask < e.1.netmask then some e else some b
    else best) none

/-- The value of a network. -/
def get (t : Table α) (n : IpNetwork) : Option α := (t.find? fun e => e.1 = n).map Prod.snd

/-- Each network has at most one entry. -/
def Distinct (t : Table α) : Prop := (t.map Prod.fst).Nodup

variable {t : Table α} {n m : IpNetwork} {a : α} {ip : IpAddr} {e : IpNetwork × α}

/-- The empty table. -/
lemma distinct_nil : Distinct ([] : Table α) := List.nodup_nil

/-- Inserting keeps networks distinct. -/
lemma Distinct.insert (h : t.Distinct) : (t.insert n a).Distinct := by
  refine List.nodup_cons.mpr ⟨?_, ?_⟩
  · simp
  · exact h.sublist (List.filter_sublist.map _)

/-- What is found after an insertion. -/
lemma get_insert : (t.insert n a).get m = if m = n then some a else t.get m := by
  unfold get insert
  by_cases hm : m = n
  · simp [hm]
  · rw [if_neg hm, List.find?_cons_of_neg (by simpa using Ne.symm hm), List.find?_filter]
    congr 2
    funext e
    by_cases he : e.1 = m
    · simp [he, hm]
    · simp [he]

/-- Several networks get one value. -/
lemma get_foldl_insert (ns : List IpNetwork) (t : Table α) :
    (ns.foldl (fun t n => t.insert n a) t).get m = if m ∈ ns then some a else t.get m := by
  induction ns generalizing t with
  | nil => simp
  | cons n ns ih =>
    rw [List.foldl_cons, ih, get_insert]
    by_cases hmem : m ∈ ns
    · simp [hmem]
    · simp [hmem]

/-- So do several insertions. -/
lemma Distinct.foldl_insert (ns : List IpNetwork) (h : t.Distinct) :
    (ns.foldl (fun t n => t.insert n a) t).Distinct := by
  induction ns generalizing t with
  | nil => exact h
  | cons n ns ih => exact ih h.insert

/-- The entries of a table are its values. -/
lemma Distinct.get_eq_some_iff (h : t.Distinct) : t.get n = some a ↔ (n, a) ∈ t := by
  induction t with
  | nil => simp [get]
  | cons e t ih =>
    obtain ⟨m, b⟩ := e
    obtain ⟨hnew, hrest⟩ := List.nodup_cons.mp h
    have hcons : get ((m, b) :: t) n = if m = n then some b else get t n := by
      unfold get
      by_cases hm : m = n
      · rw [if_pos hm, List.find?_cons_of_pos (by simpa using hm)]
        rfl
      · rw [if_neg hm, List.find?_cons_of_neg (by simpa using hm)]
    rw [hcons, List.mem_cons, Prod.mk.injEq]
    by_cases hm : m = n
    · subst hm
      have hold : (m, a) ∉ t := fun hmem => hnew (List.mem_map.mpr ⟨(m, a), hmem, rfl⟩)
      simp [hold, eq_comm]
    · rw [if_neg hm, ih hrest]
      simp [Ne.symm hm]

/-- No entry contains the address. -/
theorem longestMatch_eq_none : t.longestMatch ip = none ↔ ∀ e ∈ t, e.1.contains ip = false := by
  induction t with
  | nil => simp [longestMatch]
  | cons e t ih =>
    unfold longestMatch at ih ⊢
    rw [List.foldr_cons]
    by_cases he : e.1.contains ip = true
    · simp only [he, if_true]
      split
      · simp [he]
      · split_ifs <;> simp [he]
    · simp [he, ih]

/-- The entry that is found contains the address, and no other entry that does is longer. -/
theorem longestMatch_eq_some (h : t.longestMatch ip = some e) :
    e ∈ t ∧ e.1.contains ip = true ∧
      ∀ e' ∈ t, e'.1.contains ip = true → e'.1.netmask ≤ e.1.netmask := by
  induction t generalizing e with
  | nil => simp [longestMatch] at h
  | cons x t ih =>
    have hcons : longestMatch (x :: t) ip = if x.1.contains ip then
        match longestMatch t ip with
        | none => some x
        | some b => if b.1.netmask < x.1.netmask then some x else some b
      else longestMatch t ip := rfl
    rw [hcons] at h
    by_cases hx : x.1.contains ip = true
    · rw [if_pos hx] at h
      cases hb : longestMatch t ip with
      | none =>
        rw [hb] at h
        cases h
        refine ⟨List.mem_cons_self, hx, fun e' he' hc => ?_⟩
        rcases List.mem_cons.mp he' with rfl | he'
        · exact le_refl _
        · rw [longestMatch_eq_none.mp hb e' he'] at hc
          cases hc
      | some b =>
        obtain ⟨hmem, hcontains, hmax⟩ := ih hb
        rw [hb] at h
        dsimp only at h
        split_ifs at h with hlt
        · cases h
          refine ⟨List.mem_cons_self, hx, fun e' he' hc => ?_⟩
          rcases List.mem_cons.mp he' with rfl | he'
          · exact le_refl _
          · exact le_trans (hmax e' he' hc) (le_of_lt hlt)
        · cases h
          refine ⟨List.mem_cons_of_mem _ hmem, hcontains, fun e' he' hc => ?_⟩
          rcases List.mem_cons.mp he' with rfl | he'
          · exact Nat.not_lt.mp hlt
          · exact hmax e' he' hc
    · rw [if_neg hx] at h
      obtain ⟨hmem, hcontains, hmax⟩ := ih h
      refine ⟨List.mem_cons_of_mem _ hmem, hcontains, fun e' he' hc => ?_⟩
      rcases List.mem_cons.mp he' with rfl | he'
      · exact absurd hc hx
      · exact hmax e' he' hc

end Table

end IpNetwork
