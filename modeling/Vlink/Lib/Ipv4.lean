import Mathlib.Algebra.Order.Ring.Nat

set_option autoImplicit false

/-!
# Addresses of IP version 4 and their text

Addresses in dotted decimal notation, and networks: the addresses that share a prefix. Texts are
read strictly: four numbers below 256, without leading zeros, as documented for `Ipv4Addr` in the
standard library. `Ipv4Network` follows the documentation of the crate `ip_network`: `new` refuses a
mask of more than 32 bits and an address with bits behind the mask, and the text of a network is an
address, a slash and the mask.

## Main definitions

* `Ipv4Addr.toText`, `Ipv4Addr.parse` — an address as text, and back.
* `Ipv4Network` — an address all of whose bits after the prefix are zero.
* `Ipv4Network.addresses` — the addresses of a network in order, from the network address to the
  broadcast address.
* `Ipv4Network.contains`, `Ipv4Network.broadcast` — the addresses with the prefix of a network, and
  the last of them.
* `Ipv4Network.parse` — a network from its text, such as `10.0.0.0/24`.

## Main results

* `Ipv4Addr.parse_toText` — reading the text of an address gives the address back.
* `Ipv4Network.mem_drop_addresses` — which addresses come after the first few of a network.
* `Ipv4Network.pairwise_addresses` — the addresses of a network are in order.
-/

/-- An address of IP version 4. -/
abbrev Ipv4Addr := BitVec 32

namespace Ipv4Addr

/-! ## Octets -/

/-- The address with the given octets. -/
def ofOctets (a b c d : ℕ) : Ipv4Addr :=
  BitVec.ofNat 32 (((a * 256 + b) * 256 + c) * 256 + d)

/-- The octets of an address in network order. -/
def octets (ip : Ipv4Addr) : List ℕ :=
  [ip.toNat / 16777216, ip.toNat / 65536 % 256, ip.toNat / 256 % 256, ip.toNat % 256]

/-- An octet is a byte. -/
lemma lt_of_mem_octets {ip : Ipv4Addr} {n : ℕ} (h : n ∈ ip.octets) : n < 256 := by
  have hip := ip.isLt
  simp only [octets, List.mem_cons, List.not_mem_nil, or_false] at h
  omega

/-- An address from its octets. -/
lemma ofOctets_octets (ip : Ipv4Addr) :
    ofOctets (ip.toNat / 16777216) (ip.toNat / 65536 % 256) (ip.toNat / 256 % 256)
      (ip.toNat % 256) = ip := by
  have hsum : ((ip.toNat / 16777216 * 256 + ip.toNat / 65536 % 256) * 256 +
      ip.toNat / 256 % 256) * 256 + ip.toNat % 256 = ip.toNat := by omega
  rw [ofOctets, hsum, BitVec.ofNat_toNat, BitVec.setWidth_eq]

/-! ## Text -/

/-- The number that a list of digits stands for. -/
def readDigits (cs : List Char) : ℕ := cs.foldl (fun n c => 10 * n + (c.toNat - 48)) 0

/-- Read an octet: one to three digits, no leading zero, below 256. -/
def parseOctet (cs : List Char) : Option ℕ :=
  if cs ≠ [] ∧ cs.length ≤ 3 ∧ cs.all Char.isDigit ∧ (cs.head? = some '0' → cs.length = 1) ∧
      readDigits cs < 256 then some (readDigits cs)
  else none

/-- What is written for an octet is read back, and contains no dot. -/
lemma parseOctet_toDigits : ∀ n : Fin 256,
    parseOctet (Nat.toDigits 10 n) = some n.val ∧ '.' ∉ Nat.toDigits 10 n.val := by
  decide +kernel

/-- `Ipv4Addr::to_string`. -/
def toText (ip : Ipv4Addr) : String :=
  String.ofList (['.'].intercalate (ip.octets.map (Nat.toDigits 10)))

/-- `Ipv4Addr::from_str`. -/
def parse (s : String) : Option Ipv4Addr :=
  match s.toList.splitOn '.' with
  | [a, b, c, d] => do
    return ofOctets (← parseOctet a) (← parseOctet b) (← parseOctet c) (← parseOctet d)
  | _ => none

/-- Reading the text of an address gives the address back. -/
theorem parse_toText (ip : Ipv4Addr) : parse ip.toText = some ip := by
  have hsplit : ip.toText.toList.splitOn '.' = ip.octets.map (Nat.toDigits 10) := by
    rw [toText, String.toList_ofList]
    refine List.splitOn_intercalate '.' (fun cs hcs => ?_) (by simp [octets])
    obtain ⟨n, hn, rfl⟩ := List.mem_map.mp hcs
    exact (parseOctet_toDigits ⟨n, lt_of_mem_octets hn⟩).2
  have hread : ∀ n ∈ ip.octets, parseOctet (Nat.toDigits 10 n) = some n := fun n hn =>
    (parseOctet_toDigits ⟨n, lt_of_mem_octets hn⟩).1
  simp only [octets, List.mem_cons, List.not_mem_nil, or_false, forall_eq_or_imp,
    forall_eq] at hread
  obtain ⟨ha, hb, hc, hd⟩ := hread
  rw [parse, hsplit]
  simp only [octets, List.map_cons, List.map_nil, ha, hb, hc, hd]
  exact congrArg some (ofOctets_octets ip)

end Ipv4Addr

/-! ## Networks -/

/-- A network: its first address and the length of the prefix. -/
structure Ipv4Network where
  address : Ipv4Addr
  netmask : ℕ
  netmask_le : netmask ≤ 32
  /-- The bits after the prefix are zero. -/
  aligned : address.toNat % 2 ^ (32 - netmask) = 0
deriving DecidableEq

namespace Ipv4Network

/-- `Ipv4Network::new`. -/
def new (address : Ipv4Addr) (netmask : ℕ) : Option Ipv4Network :=
  if h : netmask ≤ 32 ∧ address.toNat % 2 ^ (32 - netmask) = 0 then
    some ⟨address, netmask, h.1, h.2⟩
  else none

/-- The addresses of a network in order. -/
def addresses (n : Ipv4Network) : List Ipv4Addr :=
  (List.range (2 ^ (32 - n.netmask))).map fun i => n.address + BitVec.ofNat 32 i

/-- `Ipv4Network::contains`: the address has the prefix of the network. -/
def contains (n : Ipv4Network) (ip : Ipv4Addr) : Bool :=
  ip.toNat / 2 ^ (32 - n.netmask) == n.address.toNat / 2 ^ (32 - n.netmask)

/-- `Ipv4Network::broadcast_address`: the last address of the network. -/
def broadcast (n : Ipv4Network) : Ipv4Addr :=
  n.address + BitVec.ofNat 32 (2 ^ (32 - n.netmask) - 1)

section Addresses

variable {n : Ipv4Network} {ip : Ipv4Addr} {i k : ℕ}

/-- No address of a network is too large. -/
lemma toNat_add_le (n : Ipv4Network) : n.address.toNat + 2 ^ (32 - n.netmask) ≤ 2 ^ 32 := by
  have hdvd : 2 ^ (32 - n.netmask) ∣ 2 ^ 32 - n.address.toNat := by
    refine Nat.dvd_sub (Nat.pow_dvd_pow 2 (Nat.sub_le _ _)) (Nat.dvd_of_mod_eq_zero n.aligned)
  have hpos : 0 < 2 ^ 32 - n.address.toNat := by
    have := n.address.isLt
    omega
  have := Nat.le_of_dvd hpos hdvd
  omega

/-- The addresses of a network follow the first one. -/
lemma toNat_host (h : i < 2 ^ (32 - n.netmask)) :
    (n.address + BitVec.ofNat 32 i).toNat = n.address.toNat + i := by
  have hle := n.toNat_add_le
  rw [BitVec.toNat_add, BitVec.toNat_ofNat, Nat.mod_eq_of_lt (by omega : i < 2 ^ 32),
    Nat.mod_eq_of_lt (by omega)]

/-- The last address of a network. -/
lemma toNat_broadcast (n : Ipv4Network) :
    n.broadcast.toNat = n.address.toNat + (2 ^ (32 - n.netmask) - 1) :=
  toNat_host (Nat.sub_lt (Nat.two_pow_pos _) Nat.one_pos)

/-- The addresses with the prefix of a network lie between the first and the last. -/
lemma contains_iff :
    n.contains ip = true ↔ n.address.toNat ≤ ip.toNat ∧ ip.toNat ≤ n.broadcast.toNat := by
  have hpos : 0 < 2 ^ (32 - n.netmask) := Nat.two_pow_pos _
  obtain ⟨q, hq⟩ := Nat.dvd_of_mod_eq_zero n.aligned
  rw [contains, beq_iff_eq, toNat_broadcast, hq, Nat.mul_div_cancel_left q hpos,
    Nat.div_eq_iff hpos, Nat.mul_comm q]
  omega

/-- Which addresses come after the first few. -/
theorem mem_drop_addresses :
    ip ∈ n.addresses.drop k ↔ n.contains ip = true ∧ n.address.toNat + k ≤ ip.toNat := by
  have hpos : 0 < 2 ^ (32 - n.netmask) := Nat.two_pow_pos _
  rw [addresses, ← List.map_drop, List.mem_map, contains_iff, toNat_broadcast]
  constructor
  · rintro ⟨i, hi, rfl⟩
    obtain ⟨j, hj, rfl⟩ := List.mem_iff_getElem.mp hi
    simp only [List.getElem_drop, List.getElem_range, List.length_drop, List.length_range] at hj ⊢
    rw [toNat_host (by omega)]
    omega
  · rintro ⟨⟨hlo, hhi⟩, hk⟩
    have hi : ip.toNat - n.address.toNat < 2 ^ (32 - n.netmask) := by omega
    refine ⟨ip.toNat - n.address.toNat, ?_, BitVec.eq_of_toNat_eq ?_⟩
    · rw [List.mem_iff_getElem]
      refine ⟨ip.toNat - n.address.toNat - k, ?_, ?_⟩
      · simp only [List.length_drop, List.length_range]
        omega
      · simp only [List.getElem_drop, List.getElem_range]
        omega
    · rw [toNat_host hi]
      omega

/-- The addresses of a network are in order. -/
theorem pairwise_addresses (n : Ipv4Network) :
    n.addresses.Pairwise fun a b => a.toNat < b.toNat := by
  rw [addresses, List.pairwise_map]
  refine List.pairwise_lt_range.imp_of_mem fun ha hb hab => ?_
  rw [List.mem_range] at ha hb
  rw [toNat_host ha, toNat_host hb]
  omega

end Addresses

/-- `u8::from_str`: digits after an optional sign. -/
def parseMask (cs : List Char) : Option ℕ :=
  let digits := if cs.head? = some '+' then cs.tail else cs
  if digits ≠ [] ∧ digits.all Char.isDigit ∧ Ipv4Addr.readDigits digits < 256 then
    some (Ipv4Addr.readDigits digits)
  else none

/-- `Ipv4Network::from_str`. -/
def parse (s : String) : Option Ipv4Network := do
  let (ip, rest) := s.toList.span (· ≠ '/')
  new (← Ipv4Addr.parse (String.ofList ip)) (← parseMask (rest.drop 1))

example : (parse "10.0.0.0/24").map (·.netmask) = some 24 := by decide +kernel

end Ipv4Network
