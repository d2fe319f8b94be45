import Vlink.Headlink.Registry

set_option autoImplicit false

/-!
# The address that a new peer gets

`generate_ip` of `client/handler/req_config.rs` goes through the addresses of a network in order. It
skips the network address and the first host address, and takes the first address that no peer has.
The broadcast address comes last and is not skipped. So it is handed out when all other addresses
are taken, where there should have been an error.

## Main definitions

* `Vlink.Headlink.Usable` — an address that a peer can be given.
* `Vlink.Headlink.GivesUsable` — `generate_ip` gives a usable address, or an error if there is none.

## Main results

* `Vlink.Headlink.generateIp_least` — `generate_ip` gives the least free address after the first
  two.
* `Vlink.Headlink.givesUsable_iff` — when `generate_ip` does what it should.
* `Vlink.Headlink.broadcast_given` — a network with one peer whose next peer gets the broadcast
  address.
-/

namespace Vlink.Headlink

/-- A peer has the address. -/
def Assigned (peers : Peers) (ip : Ipv4Addr) : Prop :=
  ∃ k p, peers.lookup k = some p ∧ p.model.ip = some ip.toText

/-- An address that a peer can be given: one of the network, but not the network address, the first
host address or the broadcast address, that no peer has. -/
structure Usable (network : Ipv4Network) (peers : Peers) (ip : Ipv4Addr) : Prop where
  contains : network.contains ip = true
  ne_network : ip ≠ network.address
  ne_first : ip.toNat ≠ network.address.toNat + 1
  ne_broadcast : ip ≠ network.broadcast
  free : ¬ Assigned peers ip

/-- `generate_ip` gives a usable address, and an error only if there is none. -/
def GivesUsable (network : Ipv4Network) (peers : Peers) : Prop :=
  (∀ ip, generateIp network peers = .ok ip → Usable network peers ip) ∧
    ∀ e, generateIp network peers = .error e → ¬ ∃ ip, Usable network peers ip

section

variable {network : Ipv4Network} {peers : Peers} {ip a : Ipv4Addr}

/-- The comparison of texts finds the addresses that no peer has. -/
lemma free_iff : ((peers.entries.filterMap fun e => e.2.model.ip).all fun p => p ≠ ip.toText) =
    true ↔ ¬ Assigned peers ip := by
  simp only [List.all_eq_true, List.mem_filterMap, decide_eq_true_eq]
  constructor
  · rintro h ⟨k, p, hp, hip⟩
    exact h _ ⟨⟨k, p⟩, AList.mem_lookup_iff.mp hp, hip⟩ rfl
  · rintro h x ⟨⟨k, p⟩, hmem, hip⟩ rfl
    exact h ⟨k, p, AList.mem_lookup_iff.mpr hmem, hip⟩

/-- The usable addresses are among those that `generate_ip` goes through. -/
lemma Usable.mem (h : Usable network peers ip) : ip ∈ network.addresses.drop 2 := by
  rw [Ipv4Network.mem_drop_addresses]
  have hlo := (Ipv4Network.contains_iff.mp h.contains).1
  have hne : ip.toNat ≠ network.address.toNat := fun heq =>
    h.ne_network (BitVec.eq_of_toNat_eq heq)
  have hne' := h.ne_first
  exact ⟨h.contains, by omega⟩

/-- An address that `generate_ip` goes through and that no peer has is usable, unless it is the
broadcast address. -/
lemma usable_of_mem (hmem : ip ∈ network.addresses.drop 2) (hfree : ¬ Assigned peers ip)
    (hne : ip ≠ network.broadcast) : Usable network peers ip := by
  obtain ⟨hcontains, hle⟩ := Ipv4Network.mem_drop_addresses.mp hmem
  refine ⟨hcontains, ?_, by omega, hne, hfree⟩
  rintro rfl
  omega

/-- `generate_ip` gives the least free address after the first two. -/
theorem generateIp_least (h : generateIp network peers = .ok ip) :
    ip ∈ network.addresses.drop 2 ∧ ¬ Assigned peers ip ∧
      ∀ a ∈ network.addresses.drop 2, a.toNat < ip.toNat → Assigned peers a := by
  unfold generateIp at h
  dsimp only at h
  split at h
  · next i hi =>
    cases h
    obtain ⟨hfree, before, after, hsplit, hbefore⟩ := List.find?_eq_some_iff_append.mp hi
    refine ⟨List.mem_of_find?_eq_some hi, free_iff.mp hfree, fun a ha hlt => ?_⟩
    -- the addresses are in order, so the smaller ones come before
    have hsorted : (before ++ ip :: after).Pairwise fun a b => a.toNat < b.toNat := by
      rw [← hsplit]
      exact network.pairwise_addresses.sublist (List.drop_sublist _ _)
    rw [hsplit] at ha
    rcases List.mem_append.mp ha with ha | ha
    · by_contra hnot
      have := hbefore a ha
      simp only [free_iff.mpr hnot] at this
      cases this
    · rcases List.mem_cons.mp ha with rfl | ha
      · omega
      · have hgt := List.rel_of_pairwise_cons (List.pairwise_append.mp hsorted).2.1 ha
        omega
  · cases h

/-- `generate_ip` fails exactly if all addresses after the first two are taken. -/
lemma generateIp_error : (∃ e, generateIp network peers = .error e) ↔
    ∀ a ∈ network.addresses.drop 2, Assigned peers a := by
  unfold generateIp
  dsimp only
  split
  · next i hi =>
    constructor
    · rintro ⟨e, h⟩
      cases h
    · intro h
      have hfree := List.find?_some hi
      exact absurd (h i (List.mem_of_find?_eq_some hi)) (free_iff.mp hfree)
  · next hnone =>
    refine iff_of_true ⟨_, rfl⟩ fun a ha => ?_
    by_contra hnot
    exact List.find?_eq_none.mp hnone a ha (free_iff.mpr hnot)

/-- The broadcast address comes after the first two, unless the prefix leaves at most one bit. -/
lemma broadcast_mem : network.broadcast ∈ network.addresses.drop 2 ↔ network.netmask < 31 := by
  rw [Ipv4Network.mem_drop_addresses, Ipv4Network.contains_iff, Ipv4Network.toNat_broadcast]
  have hle := network.netmask_le
  constructor
  · rintro ⟨-, hlen⟩
    by_contra hbig
    have hpow : 2 ^ (32 - network.netmask) ≤ 2 ^ 1 := Nat.pow_le_pow_right two_pos (by omega)
    omega
  · intro hlt
    have hpow : 2 ^ 2 ≤ 2 ^ (32 - network.netmask) := Nat.pow_le_pow_right two_pos (by omega)
    omega

/-- **When `generate_ip` does what it should**: for every network and all peers, exactly if there is
a usable address, or a peer has the broadcast address, or the network has at most two addresses.

**Proof sketch.** `generate_ip` returns the least free address that it looks at, and fails if there
is none. The broadcast address is the last that it looks at. -/
theorem givesUsable_iff (network : Ipv4Network) (peers : Peers) :
    GivesUsable network peers ↔ (∃ ip, Usable network peers ip) ∨
      Assigned peers network.broadcast ∨ 31 ≤ network.netmask := by
  constructor
  · rintro ⟨hok, -⟩
    by_contra hnot
    simp only [not_or, not_exists, not_le] at hnot
    obtain ⟨hnone, hfree, hmask⟩ := hnot
    cases h : generateIp network peers with
    | ok ip => exact hnone ip (hok ip h)
    | error e =>
      -- the broadcast address is free, so the search cannot fail
      exact hfree (generateIp_error.mp ⟨e, h⟩ _ (broadcast_mem.mpr (by omega)))
  · intro h
    constructor
    · intro ip hip
      obtain ⟨hmem, hfree, hleast⟩ := generateIp_least hip
      refine usable_of_mem hmem hfree ?_
      rintro rfl
      rcases h with ⟨a, ha⟩ | h | h
      · -- a usable address comes before the broadcast address
        have hle := (Ipv4Network.contains_iff.mp ha.contains).2
        have hne : a.toNat ≠ network.broadcast.toNat := fun heq =>
          ha.ne_broadcast (BitVec.eq_of_toNat_eq heq)
        exact ha.free (hleast a ha.mem (by omega))
      · exact hfree h
      · have := broadcast_mem.mp hmem
        omega
    · rintro e he ⟨a, ha⟩
      exact ha.free (generateIp_error.mp ⟨e, he⟩ a ha.mem)

/-- A peer that has the only address of a small network that is neither skipped nor the broadcast
address. -/
def onlyPeer : Peers :=
  .new [.ofModel ⟨1, "a", some "10.0.0.2", none, none, 1, false⟩]

/-- In the network `10.0.0.0/30` one peer has `10.0.0.2`. The next one gets the broadcast address.
-/
theorem broadcast_given : ∃ network, Ipv4Network.parse "10.0.0.0/30" = some network ∧
    generateIp network onlyPeer = .ok network.broadcast ∧ ¬ GivesUsable network onlyPeer := by
  let network : Ipv4Network := ⟨0x0A000000#32, 30, by decide, by decide⟩
  have hgiven : generateIp network onlyPeer = .ok network.broadcast := by decide +kernel
  refine ⟨network, by decide +kernel, hgiven, fun h => ?_⟩
  exact (h.1 _ hgiven).ne_broadcast rfl

end

end Vlink.Headlink
