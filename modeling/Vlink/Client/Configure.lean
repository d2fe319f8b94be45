import Vlink.Device.Networks
import Vlink.Headlink.Broadcasts

set_option autoImplicit false

/-!
# From a configuration to a device

`vlinkd/src/handler` and `device/mod.rs`: when a client is connected for the first time, it asks the
server for its configuration, and starts a device with the peers that are listed there. After that
no peer is inserted. So the device routes the addresses that the peers of its network had at one
moment, and a peer that gets its address later is unknown to it as long as the program runs.

## Main definitions

* `Vlink.Client.bcPeerEnter2peerConfig` — the configuration of a peer.
* `Vlink.Client.requestForConfig` — what a client makes of the reply of the server.
* `Vlink.Client.DeviceConfig.start` — `Device::new`, with the peers in some order.
* `Vlink.Client.HasAddress` — a peer has an address in a network.

## Main results

* `Vlink.Client.requestForConfig_eq_ok` — what is accepted.
* `Vlink.Client.Listed.getByIp_iff` — the routes of a device that was started with a
  configuration.
* `Vlink.Client.routes_of_network` — in every run of the server, a configuration lists the peers of
  the network of the client at one moment, and the device routes their addresses.

## Design

Addresses are read by a function of the standard library. It is a parameter, of which only is known
that it reads the text of an address of version 4. A `HashMap` is gone through in an order that
nobody knows, so the order in which peers are inserted is a parameter too.
-/

namespace Vlink.Client

open Headlink

/-! ## Reading a configuration -/

/-- `str::parse::<IpAddr>`, which tries version 4 first. -/
structure IpReader where
  parse : String → Option IpAddr
  parse_v4 : ∀ t a, parse t = some (.v4 a) ↔ Ipv4Addr.parse t = some a

/-- The key that a text stands for, in base64. -/
def peerKey (text : String) : Option Key :=
  (Base64.decode text).bind fun b => if h : b.length = 32 then some ⟨b, h⟩ else none

/-- A key has one text. -/
lemma peerKey_injective {s t : String} {k : Key} (hs : peerKey s = some k)
    (ht : peerKey t = some k) : s = t := by
  have text : ∀ {s}, peerKey s = some k → Base64.encode k.val = s := by
    intro s h
    obtain ⟨b, hb, hk⟩ := Option.bind_eq_some_iff.mp h
    split_ifs at hk
    cases hk
    exact Base64.encode_of_decode hb
  rw [← text hs, text ht]

/-- Why a configuration is not accepted. -/
inductive ConfigError where
  /-- The reply is something else. -/
  | response
  /-- The network has a mask that is too long, or bits behind it. -/
  | network
  /-- A key is not in base64. -/
  | key
  /-- The address of an endpoint cannot be read. -/
  | endpoint
deriving DecidableEq

section Read

variable (R : IpReader)

/-- The endpoint of a peer, in `bc_peer_enter2peer_config`. The port is cut off to 16 bits. -/
def endpointOf (p : BcPeerEnter) : Except ConfigError (Option SocketAddr) :=
  match p.endpointAddr with
  | none => .ok none
  | some addr =>
    match R.parse addr with
    | none => .error .endpoint
    | some ip => .ok (some ⟨ip, p.port.toUInt16⟩)

/-- `bc_peer_enter2peer_config`. The address of the peer and the length of its key are unwrapped. -/
def bcPeerEnter2peerConfig (p : BcPeerEnter) : Outcome (Except ConfigError PeerConfig) :=
  match Base64.decode p.pubKey with
  | none => .ret (.error .key)
  | some pk =>
    match R.parse p.ip with
    | none => .panic
    | some ip =>
      if h : pk.length = 32 then
        Outcome.propagate (endpointOf R p) fun endpoint => .ret (.ok {
          publicKey := ⟨pk, h⟩
          allowedIps := [.newTruncate ip 32]
          endpoint
          presharedKey := none
          isOnline := p.isOnline
          persistentKeepalive := none
          ipAddr := p.ip })
      else .panic

end Read

/-- `DeviceConfig`. -/
structure DeviceConfig where
  privateKey : Key
  port : UInt16
  peers : Map Key PeerConfig
  address : Ipv4Addr
  network : Ipv4Network

/-- `DeviceConfig::peer`. -/
def DeviceConfig.peer (cfg : DeviceConfig) (p : PeerConfig) : DeviceConfig :=
  { cfg with peers := cfg.peers.insert p.publicKey p }

/-- `DEFAULT_PORT`. -/
def defaultPort : UInt16 := 51820

section Request

variable (R : IpReader)

/-- The loop of `request_for_config` over the peers. -/
def addPeers : List BcPeerEnter → DeviceConfig → Outcome (Except ConfigError DeviceConfig)
  | [], cfg => .ret (.ok cfg)
  | p :: ps, cfg => do
    Outcome.propagate (← bcPeerEnter2peerConfig R p) fun c => addPeers ps (cfg.peer c)

/-- `request_for_config`, with the reply of the server and the port of `ArgConfig`. -/
def requestForConfig (privateKey : Key) (port : Option UInt16) :
    ToClientData → Outcome (Except ConfigError DeviceConfig)
  | .respConfig resp =>
    -- the mask is cut off to 8 bits
    match Ipv4Network.new resp.network (resp.mask % 256) with
    | none => .ret (.error .network)
    | some network => addPeers R resp.peers {
        privateKey
        port := if 0 < resp.port then resp.port.toUInt16 else port.getD defaultPort
        peers := ∅
        address := resp.address
        network }
  | _ => .ret (.error .response)

end Request

/-- `Device::new`, with the peers in the order in which the map is gone through. -/
def DeviceConfig.start (C : Crypto) (cfg : DeviceConfig) (index : UInt32) (order : List PeerConfig)
    (now : Instant) : Device :=
  (Device.new C cfg.privateKey index).resetPeers C order now

/-! ## What is accepted -/

/-- The configuration `c` is made of the entry `p`. -/
structure MadeOf (R : IpReader) (p : BcPeerEnter) (c : PeerConfig) : Prop where
  key : peerKey p.pubKey = some c.publicKey
  address : ∃ ip, R.parse p.ip = some ip ∧ c.allowedIps = [.newTruncate ip 32]
  endpoint : endpointOf R p = .ok c.endpoint
  presharedKey : c.presharedKey = none
  isOnline : c.isOnline = p.isOnline
  persistentKeepalive : c.persistentKeepalive = none
  ipAddr : c.ipAddr = p.ip

section Accepted

variable {R : IpReader} {p : BcPeerEnter} {c : PeerConfig} {cfg cfg' : DeviceConfig}

/-- What an entry is made into. -/
lemma bcPeerEnter2peerConfig_eq_ok :
    bcPeerEnter2peerConfig R p = .ret (.ok c) ↔ MadeOf R p c := by
  unfold bcPeerEnter2peerConfig
  constructor
  · intro h
    split at h
    · cases h
    next pk hpk =>
    split at h
    · cases h
    next ip hip =>
    split_ifs at h with hlen
    cases hend : endpointOf R p with
    | error e =>
      rw [hend] at h
      cases h
    | ok endpoint =>
      rw [hend] at h
      cases h
      exact ⟨by simp [peerKey, hpk, hlen], ⟨ip, hip, rfl⟩, hend, rfl, rfl, rfl, rfl⟩
  · rintro ⟨hkey, ⟨ip, hip, hips⟩, hend, hpsk, honline, hkeep, htext⟩
    obtain ⟨pk, hpk, hk⟩ := Option.bind_eq_some_iff.mp hkey
    split_ifs at hk with hlen
    obtain ⟨k, ips, endpoint, psk, online, keep, text⟩ := c
    simp only at hk hips hend hpsk honline hkeep htext
    subst hips hpsk honline hkeep htext
    cases hk
    simp [hpk, hip, hlen, hend]

/-- The loop over the peers: each entry is made into a configuration, and these are inserted. -/
lemma addPeers_eq_ok {ps : List BcPeerEnter} :
    addPeers R ps cfg = .ret (.ok cfg') ↔
      ∃ cs, List.Forall₂ (MadeOf R) ps cs ∧ cfg' = cs.foldl DeviceConfig.peer cfg := by
  induction ps generalizing cfg with
  | nil => simp [addPeers, eq_comm]
  | cons p ps ih =>
    rw [addPeers, Outcome.bind_eq_ret]
    constructor
    · rintro ⟨r, hr, h⟩
      cases r with
      | error e => cases h
      | ok c =>
        obtain ⟨cs, hcs, rfl⟩ := ih.mp h
        exact ⟨c :: cs, .cons (bcPeerEnter2peerConfig_eq_ok.mp hr) hcs, rfl⟩
    · rintro ⟨cs, hcs, rfl⟩
      cases hcs with
      | @cons _ c _ cs hc hcs =>
        exact ⟨.ok c, bcPeerEnter2peerConfig_eq_ok.mpr hc, ih.mpr ⟨cs, hcs, rfl⟩⟩

/-- The peers of a configuration are collected in a map. -/
lemma foldl_peer (cs : List PeerConfig) (cfg : DeviceConfig) :
    cs.foldl DeviceConfig.peer cfg =
      { cfg with peers := cs.foldl (fun m c => m.insert c.publicKey c) cfg.peers } := by
  induction cs generalizing cfg with
  | nil => rfl
  | cons c cs ih => exact ih (cfg.peer c)

/-- **What is accepted**: a configuration with a proper network, if each entry can be read. -/
theorem requestForConfig_eq_ok {privateKey : Key} {port : Option UInt16} {resp : RespConfig}
    (h : requestForConfig R privateKey port (.respConfig resp) = .ret (.ok cfg)) :
    cfg.privateKey = privateKey ∧ ∃ cs, List.Forall₂ (MadeOf R) resp.peers cs ∧
      cfg.peers = Map.ofList (cs.map fun c => (c.publicKey, c)) := by
  unfold requestForConfig at h
  dsimp only at h
  split at h
  · cases h
  · obtain ⟨cs, hcs, rfl⟩ := addPeers_eq_ok.mp h
    rw [foldl_peer]
    refine ⟨rfl, cs, hcs, ?_⟩
    rw [Map.ofList, List.foldl_map]

end Accepted

/-! ## The peers of a network -/

/-- In the network, the peer with the key `k` has the address `ip`. -/
def HasAddress (R : IpReader) (net : VlinkNetwork) (k : Key) (ip : IpAddr) : Prop :=
  ∃ pubKey p t, net.peers.lookup pubKey = some p ∧ peerKey pubKey = some k ∧
    p.model.ip = some t ∧ R.parse t = some ip

/-- No two peers of the network have the same address. -/
def AddressesDistinct (R : IpReader) (net : VlinkNetwork) : Prop :=
  ∀ k k' ip, HasAddress R net k ip → HasAddress R net k' ip → k = k'

/-- The configurations `cs` are made of the peers of the network that have an address. -/
structure Listed (R : IpReader) (net : VlinkNetwork) (cs : List PeerConfig) : Prop where
  of_mem : ∀ c ∈ cs, ∃ p ∈ configEntries net.peers, MadeOf R p c
  mem : ∀ p ∈ configEntries net.peers, ∃ c ∈ cs, MadeOf R p c
  nodup : (cs.map PeerConfig.publicKey).Nodup

section Listed

variable {R : IpReader} {net : VlinkNetwork} {cs : List PeerConfig} {k : Key} {ip : IpAddr}

/-- The entries of a configuration come from the registry. -/
lemma mem_configEntries {p : BcPeerEnter} : p ∈ configEntries net.peers ↔
    ∃ pubKey v, net.peers.lookup pubKey = some v ∧ configEntry (pubKey, v) = some p := by
  simp only [configEntries, List.mem_filterMap, Sigma.exists, ← AList.mem_lookup_iff,
    Option.mem_def]

/-- An entry has the key and the address of its peer. -/
lemma pubKey_of_configEntry {e : String × VlinkPeer} {p : BcPeerEnter}
    (h : configEntry e = some p) : p.pubKey = e.1 ∧ e.2.model.ip = some p.ip := by
  obtain ⟨t, ht, rfl⟩ := Option.map_eq_some_iff.mp h
  exact ⟨rfl, ht⟩

/-- A peer has one entry at most. -/
lemma nodup_configEntries (peers : Peers) : ((configEntries peers).map (·.pubKey)).Nodup := by
  have hne : peers.entries.Pairwise fun e e' => e.1 ≠ e'.1 := List.pairwise_map.mp peers.keys_nodup
  refine List.pairwise_map.mpr (List.pairwise_filterMap.mpr (hne.imp ?_))
  intro e e' hne p hp p' hp'
  rw [(pubKey_of_configEntry hp).1, (pubKey_of_configEntry hp').1]
  exact hne

/-- What is related to a list entry by entry comes from its entries. -/
lemma exists_of_forall₂ {α β : Type*} {r : α → β → Prop} {l : List α} {l' : List β}
    (h : List.Forall₂ r l l') : (∀ a ∈ l, ∃ b ∈ l', r a b) ∧ ∀ b ∈ l', ∃ a ∈ l, r a b := by
  induction h with
  | nil => simp
  | cons hr _ ih =>
    simp only [List.forall_mem_cons, List.exists_mem_cons_iff]
    exact ⟨⟨.inl hr, fun a ha => .inr (ih.1 a ha)⟩, .inl hr, fun b hb => .inr (ih.2 b hb)⟩

/-- The peers that have an address are those with an entry. -/
lemma HasAddress.exists_entry (h : HasAddress R net k ip) : ∃ p ∈ configEntries net.peers,
    peerKey p.pubKey = some k ∧ R.parse p.ip = some ip := by
  obtain ⟨pubKey, v, t, hv, hk, ht, hip⟩ := h
  obtain ⟨p, hp⟩ : ∃ p, configEntry (pubKey, v) = some p := by simp [configEntry, ht]
  obtain ⟨hkey, haddr⟩ := pubKey_of_configEntry hp
  rw [ht, Option.some.injEq] at haddr
  exact ⟨p, mem_configEntries.mpr ⟨pubKey, v, hv, hp⟩, (congrArg peerKey hkey).trans hk,
    haddr ▸ hip⟩

/-- Entries of different peers have different addresses. -/
def apart (R : IpReader) (ps : List BcPeerEnter) : Bool :=
  ps.all fun p => ps.all fun p' =>
    decide (R.parse p.ip ≠ R.parse p'.ip) || decide (p.pubKey = p'.pubKey)

/-- The check for distinct addresses is enough. -/
lemma AddressesDistinct.of_apart (h : apart R (configEntries net.peers) = true) :
    AddressesDistinct R net := by
  intro k k' ip haddr haddr'
  obtain ⟨p, hp, hk, hip⟩ := haddr.exists_entry
  obtain ⟨p', hp', hk', hip'⟩ := haddr'.exists_entry
  have hor := List.all_eq_true.mp (List.all_eq_true.mp h p hp) p' hp'
  simp only [hip, hip', ne_eq, not_true_eq_false, decide_false, Bool.false_or,
    decide_eq_true_eq] at hor
  rw [hor, hk'] at hk
  exact (Option.some.inj hk).symm

/-- Entries of different peers are made into configurations of different peers. -/
lemma nodup_of_madeOf {ps : List BcPeerEnter} (h : List.Forall₂ (MadeOf R) ps cs)
    (hps : (ps.map (·.pubKey)).Nodup) : (cs.map PeerConfig.publicKey).Nodup := by
  induction h with
  | nil => exact List.nodup_nil
  | @cons p c ps cs hc hcs ih =>
    rw [List.map_cons, List.nodup_cons] at hps ⊢
    refine ⟨fun hmem => hps.1 ?_, ih hps.2⟩
    obtain ⟨c', hc', heq⟩ := List.mem_map.mp hmem
    obtain ⟨p', hp', hmade⟩ := (exists_of_forall₂ hcs).2 c' hc'
    have hkey : peerKey p'.pubKey = some c.publicKey := by rw [hmade.key, heq]
    exact List.mem_map.mpr ⟨p', hp', peerKey_injective hkey hc.key⟩

/-- The peers that a device is started with, in whatever order, are those that the server has
listed. -/
lemma Listed.of_request {privateKey : Key} {port : Option UInt16} {resp : RespConfig}
    {cfg : DeviceConfig} {order : List PeerConfig}
    (h : requestForConfig R privateKey port (.respConfig resp) = .ret (.ok cfg))
    (hresp : resp.peers = configEntries net.peers)
    (horder : order.Perm (cfg.peers.pairs.map Prod.snd)) : Listed R net order := by
  obtain ⟨-, cs, hcs, hpeers⟩ := requestForConfig_eq_ok h
  rw [hresp] at hcs
  have hnodup := nodup_of_madeOf hcs (nodup_configEntries net.peers)
  -- no entry is replaced in the map
  have hperm : order.Perm cs := by
    have hpairs : (Map.ofList (cs.map fun c => (c.publicKey, c))).pairs.Perm
        (cs.map fun c => (c.publicKey, c)) := by
      rw [Map.perm_ofList_iff, List.map_map]
      exact hnodup
    rw [hpeers] at horder
    simpa [Function.comp_def] using horder.trans (hpairs.map Prod.snd)
  obtain ⟨left, right⟩ := exists_of_forall₂ hcs
  refine ⟨fun c hc => right c (hperm.mem_iff.mp hc), fun p hp => ?_, ?_⟩
  · obtain ⟨c, hc, hmade⟩ := left p hp
    exact ⟨c, hperm.mem_iff.mpr hc, hmade⟩
  · exact (hperm.map _).nodup_iff.mpr hnodup

/-- The peers that have an address, by their configurations. -/
lemma Listed.hasAddress_iff (h : Listed R net cs) : HasAddress R net k ip ↔
    ∃ c ∈ cs, c.publicKey = k ∧ ∃ p ∈ configEntries net.peers, MadeOf R p c ∧
      R.parse p.ip = some ip := by
  constructor
  · intro haddr
    obtain ⟨p, hp, hk, hip⟩ := haddr.exists_entry
    obtain ⟨c, hc, hmade⟩ := h.mem p hp
    have hsame : some k = some c.publicKey := hk.symm.trans hmade.key
    exact ⟨c, hc, (Option.some.inj hsame).symm, p, hp, hmade, hip⟩
  · rintro ⟨c, -, rfl, p, hp, hmade, hip⟩
    obtain ⟨pubKey, v, hv, hentry⟩ := mem_configEntries.mp hp
    obtain ⟨hkey, haddr⟩ := pubKey_of_configEntry hentry
    exact ⟨pubKey, v, p.ip, hv, (congrArg peerKey hkey).symm.trans hmade.key, haddr, hip⟩

end Listed

/-! ## The routes of the device -/

section Routes

variable {R : IpReader} {net : VlinkNetwork} {cs : List PeerConfig} {k : Key} {ip : IpAddr}
  {C : Crypto} {d : Device}

/-- A network with one address. -/
lemma contains_newTruncate (ip : IpAddr) (a : Ipv4Addr) :
    (IpNetwork.newTruncate ip 32).contains (.v4 a) = true ↔ ip = .v4 a := by
  cases ip with
  | v4 b => simp [IpNetwork.newTruncate, IpNetwork.contains]
  | v6 b => simp [IpNetwork.newTruncate, IpNetwork.contains]

/-- A single address is a network. -/
lemma isTruncated_newTruncate (ip : IpAddr) :
    (IpNetwork.newTruncate ip 32).isTruncated = true := by
  cases ip with
  | v4 a => exact IpNetwork.isTruncated_newTruncate_v4 a (by decide)
  | v6 a => exact IpNetwork.isTruncated_newTruncate_v6 a (by decide)

/-- Each peer is configured once. -/
lemma latest_of_nodup (h : (cs.map PeerConfig.publicKey).Nodup) : latest cs = cs := by
  induction cs with
  | nil => rfl
  | cons c cs ih =>
    rw [List.map_cons, List.nodup_cons] at h
    rw [latest, ih h.2, List.filter_eq_self.mpr]
    intro c' hc'
    have hne : c'.publicKey ≠ c.publicKey := fun heq => h.1 (heq ▸ List.mem_map_of_mem hc')
    simpa using hne

/-- A device that was started with a configuration keeps its networks. -/
lemma Listed.steady (h : Listed R net cs) : Steady cs.reverse := by
  refine ⟨fun c hc n hn => ?_, fun c hc c' hc' hkey n => ?_⟩
  · obtain ⟨p, -, hmade⟩ := h.of_mem c (List.mem_reverse.mp hc)
    obtain ⟨ip, -, hips⟩ := hmade.address
    rw [hips, List.mem_singleton] at hn
    rw [hn]
    exact isTruncated_newTruncate ip
  · rw [List.inj_on_of_nodup_map h.nodup (List.mem_reverse.mp hc') (List.mem_reverse.mp hc) hkey]

/-- **Run lemma.** As long as no peer is inserted, the table is that of the configuration. -/
lemma tabled_of_run {cfg : DeviceConfig} {index : UInt32} {now : Instant} {tr : List Event}
    (run : Run (Device.step C) (fun _ a => a.inserted = []) (cfg.start C index cs now) tr d) :
    Tabled cs.reverse d := by
  refine run.invariant (I := fun _ => Tabled cs.reverse) (tabled_resetPeers _ cs now) ?_
  intro tr d a d' evs _ ih ok hstep
  simpa [ok] using ih.step hstep

/-- **The routes of a device** are the addresses that the peers of its network had when they were
listed, through every run. -/
theorem Listed.getByIp_iff (h : Listed R net cs) (hdistinct : AddressesDistinct R net)
    {cfg : DeviceConfig} {index : UInt32} {now : Instant} {tr : List Event}
    (run : Run (Device.step C) (fun _ a => a.inserted = []) (cfg.start C index cs now) tr d)
    (a : Ipv4Addr) : d.getByIp (.v4 a) = some k ↔ HasAddress R net k (.v4 a) := by
  have ht := tabled_of_run run
  have hlatest : latest cs.reverse = cs.reverse :=
    latest_of_nodup (by rw [List.map_reverse]; exact List.nodup_reverse.mpr h.nodup)
  have found : ∀ {k}, d.getByIp (.v4 a) = some k → HasAddress R net k (.v4 a) := by
    intro k hk
    obtain ⟨newer, c, older, n, hsplit, hkey, hn, hc, -⟩ := ht.isRoute h.steady hk
    have hmem : c ∈ cs := by
      rw [← List.mem_reverse, ← hlatest, hsplit]
      exact List.mem_append_right _ List.mem_cons_self
    obtain ⟨p, hp, hmade⟩ := h.of_mem c hmem
    obtain ⟨ip, hip, hips⟩ := hmade.address
    rw [hips, List.mem_singleton] at hn
    rw [hn, contains_newTruncate] at hc
    exact h.hasAddress_iff.mpr ⟨c, hmem, hkey, p, hp, hmade, hip.trans (congrArg some hc)⟩
  refine ⟨found, fun hk => ?_⟩
  cases hget : d.getByIp (.v4 a) with
  | some k' => rw [hdistinct k' k (.v4 a) (found hget) hk]
  | none =>
    obtain ⟨c, hc, -, p, -, hmade, hip⟩ := h.hasAddress_iff.mp hk
    obtain ⟨ip, hip', hips⟩ := hmade.address
    have hmem : c ∈ latest cs.reverse := by rwa [hlatest, List.mem_reverse]
    have hfalse := (ht.getByIp_eq_none h.steady).mp hget c hmem (.newTruncate ip 32)
      (by simp [hips])
    rw [hip, Option.some.injEq] at hip'
    rw [← hip', (contains_newTruncate _ a).mpr rfl] at hfalse
    cases hfalse

/-- **The peers of a device** are those that had an address, through every run. -/
lemma Listed.isSome_peers_iff (h : Listed R net cs) {cfg : DeviceConfig} {index : UInt32}
    {now : Instant} {tr : List Event}
    (run : Run (Device.step C) (fun _ a => a.inserted = []) (cfg.start C index cs now) tr d) :
    (d.peers k).isSome ↔ ∃ ip, HasAddress R net k ip := by
  have hentries := (tabled_of_run run).entries k
  have hsome : (d.peers k).isSome ↔ ∃ ns, entryNetworks cs.reverse k = some ns := by
    rw [← hentries, ← Option.isSome_iff_exists, Option.isSome_map]
  rw [hsome]
  constructor
  · rintro ⟨ns, hns⟩
    obtain ⟨c, hc, hkey, -⟩ := exists_of_entryNetworks hns
    obtain ⟨p, hp, hmade⟩ := h.of_mem c (List.mem_reverse.mp hc)
    obtain ⟨ip, hip, -⟩ := hmade.address
    exact ⟨ip, h.hasAddress_iff.mpr ⟨c, List.mem_reverse.mp hc, hkey, p, hp, hmade, hip⟩⟩
  · rintro ⟨ip, hip⟩
    obtain ⟨c, hc, rfl, -⟩ := h.hasAddress_iff.mp hip
    exact entryNetworks_isSome (List.mem_reverse.mpr hc)

end Routes

/-! ## What the server lists -/

section Server

variable {db : Database} {info : ServerInfo} {guard : Server → Headlink.Action → Prop}
  {tr : List Headlink.Event} {s : Server} {c : ConnId}

/-- At one moment of the run, the client of the connection had been admitted, and its network had
these peers. -/
def ListedAt (db : Database) (info : ServerInfo) (guard : Server → Headlink.Action → Prop)
    (tr : List Headlink.Event) (c : ConnId) (peers : List BcPeerEnter) : Prop :=
  ∃ tr₀ tr₁ s₀ id net, tr = tr₀ ++ tr₁ ∧ Server.Reaches s₀ db info guard tr₀ ∧
    .handshaken c (.ok id) ∈ tr₀ ∧ s₀.inner.networks.lookup id.networkId = some net ∧
    peers = configEntries net.peers

/-- More events change nothing. -/
lemma ListedAt.append {peers : List BcPeerEnter} (h : ListedAt db info guard tr c peers)
    (evs : List Headlink.Event) : ListedAt db info guard (tr ++ evs) c peers := by
  obtain ⟨tr₀, tr₁, s₀, id, net, rfl, h⟩ := h
  exact ⟨tr₀, tr₁ ++ evs, s₀, id, net, List.append_assoc .., h⟩

/-- **Run lemma.** The lists of peers that are on their way, and those that have been read. -/
lemma listedAt_of_run (run : s.Reaches db info guard tr) :
    (∀ c conn peers, s.conns c = some conn → conn.Taken peers →
      ListedAt db info guard tr c peers) ∧
    ∀ c m peers, .clientGot c m ∈ tr → m.toClientData.peers? = some peers →
      ListedAt db info guard tr c peers := by
  refine Run.invariant (I := fun tr s =>
    (∀ c conn peers, Server.conns s c = some conn → conn.Taken peers →
      ListedAt db info guard tr c peers) ∧
    ∀ c m peers, .clientGot c m ∈ tr → m.toClientData.peers? = some peers →
      ListedAt db info guard tr c peers) ⟨fun c conn peers h => (by cases h), by simp⟩ ?_ run
  rintro tr s a s' evs run ⟨taken, read⟩ ok hstep
  refine ⟨fun c conn' peers hconn' ht => ?_, fun c m peers hm hpeers => ?_⟩
  · obtain ⟨conn, hconn, ht | ⟨id, net, hid, -, hnet, hpeers⟩⟩ :=
      Server.Reaches.taken run hstep hconn' ht
    · exact (taken c conn peers hconn ht).append evs
    · have hshaken := (Server.Reaches.told run hconn).id id hid
      exact ⟨tr, evs, s, id, net, rfl, run, hshaken, hnet, hpeers⟩
  · rcases List.mem_append.mp hm with hm | hm
    · exact (read c m peers hm hpeers).append evs
    · -- what is read was on its way
      obtain ⟨c', act, conn, move, rfl, hconn, step, hmem⟩ :=
        Server.step_of_mem hstep hm (by simp) (by simp)
      obtain ⟨rfl, -⟩ := step.io hmem
      refine (taken c conn peers hconn (.inr ⟨m.toClientData, ?_, hpeers⟩)).append evs
      have hway := step.way
      generalize move.events = mevs at hway hmem
      cases hway with
      | same _ got _ => exact absurd hmem (got m)
      | read way _ =>
        cases List.mem_singleton.mp hmem
        rw [way]
        exact List.mem_cons_self
      | close _ => cases List.mem_singleton.mp hmem

/-- **A device routes its network.** In every run of the server, each configuration that a client
has read lists the peers of its network at one moment of the run, after the client was admitted. If
the client accepts it, and no two peers had the same address at that moment, then in every run of
the device that is started with it, in whatever order the peers are inserted: the device knows the
peers that had an address at that moment, and no others, and it routes each of these addresses to
the peer that had it, and no others. -/
theorem routes_of_network (run : s.Reaches db info guard tr) {m : ToClient} {resp : RespConfig}
    (hgot : .clientGot c m ∈ tr) (hresp : m.toClientData = .respConfig resp) :
    ∃ tr₀ tr₁ s₀ id net, tr = tr₀ ++ tr₁ ∧ Server.Reaches s₀ db info guard tr₀ ∧
      .handshaken c (.ok id) ∈ tr₀ ∧ s₀.inner.networks.lookup id.networkId = some net ∧
      resp.peers = configEntries net.peers ∧
      ∀ (C : Crypto) (R : IpReader) (privateKey : Key) (port : Option UInt16) (cfg : DeviceConfig)
        (index : UInt32) (order : List PeerConfig) (now : Instant) (tr' : List Event) (d : Device),
        requestForConfig R privateKey port m.toClientData = .ret (.ok cfg) →
        order.Perm (cfg.peers.pairs.map Prod.snd) → AddressesDistinct R net →
        Run (Device.step C) (fun _ a => a.inserted = []) (cfg.start C index order now) tr' d →
        (∀ k, (d.peers k).isSome ↔ ∃ ip, HasAddress R net k ip) ∧
        ∀ a k, d.getByIp (.v4 a) = some k ↔ HasAddress R net k (.v4 a) := by
  obtain ⟨tr₀, tr₁, s₀, id, net, htr, run₀, hshaken, hnet, hpeers⟩ :=
    (listedAt_of_run run).2 c m resp.peers hgot (by rw [hresp]; rfl)
  refine ⟨tr₀, tr₁, s₀, id, net, htr, run₀, hshaken, hnet, hpeers, ?_⟩
  intro C R privateKey port cfg index order now tr' d hcfg horder hdistinct hrun
  rw [hresp] at hcfg
  have listed : Listed R net order := .of_request hcfg hpeers horder
  exact ⟨fun k => listed.isSome_peers_iff hrun, fun a k => listed.getByIp_iff hdistinct hrun a⟩

end Server

section Examples

open Headlink.Sample

/-- A reader that knows no other version. -/
def v4Reader : IpReader where
  parse t := (Ipv4Addr.parse t).map .v4
  parse_v4 t a := by simp

/-- The configuration that the client of a connection has read. -/
def configRead (c : ConnId) (tr : List Headlink.Event) : Option RespConfig :=
  tr.findSome? fun
    | .clientGot c' ⟨_, .respConfig resp⟩ => if c' = c then some resp else none
    | _ => none

/-- What is found in the trace was read by the client. -/
lemma of_configRead {c : ConnId} {tr : List Headlink.Event} {resp : RespConfig}
    (h : configRead c tr = some resp) :
    ∃ m, .clientGot c m ∈ tr ∧ m.toClientData = .respConfig resp := by
  obtain ⟨e, he, hresp⟩ := List.exists_of_findSome?_eq_some h
  split at hresp
  · split_ifs at hresp with hc
    cases hc
    cases hresp
    exact ⟨_, he, rfl⟩
  · cases hresp

/-- The device of a client that accepts its configuration. -/
def deviceStarted (data : ToClientData) : Option (DeviceConfig × List PeerConfig × Device) :=
  match requestForConfig v4Reader Vlink.Sample.localKey none data with
  | .ret (.ok cfg) =>
    let order := cfg.peers.pairs.map Prod.snd
    some (cfg, order, cfg.start .sample Vlink.Sample.start order 0)
  | _ => none

/-- Two clients get their configurations, one after the other, and the second one reads its own. -/
def twoConfigured : List Headlink.Action :=
  admission 0 keyA ++ configuration 0 2 ++ admission 1 keyB ++ configuration 1 2 ++
    List.replicate 3 (.act 1 .clientRecv)

/-- The second client starts a device, and no two of its peers have the same address. -/
def routesFirst (tr : List Headlink.Event) : Bool :=
  (configRead 1 tr).any fun resp =>
    (deviceStarted (.respConfig resp)).any (fun x => decide
      (x.2.2.getByIp (.v4 (Ipv4Addr.ofOctets 10 0 0 2)) = peerKey keyA)) &&
    apart v4Reader resp.peers

/-- The second client has the first one as a peer, at the address that it was given. -/
theorem routes_of_network_sample : ∃ (s : Server) (tr : List Headlink.Event) (net : VlinkNetwork)
    (d : Device) (k : Key), s.Reaches Headlink.Sample.db Headlink.Sample.info (fun _ _ => True) tr ∧
    peerKey Headlink.Sample.keyA = some k ∧
    d.getByIp (.v4 (Ipv4Addr.ofOctets 10 0 0 2)) = some k ∧
    HasAddress v4Reader net k (.v4 (Ipv4Addr.ofOctets 10 0 0 2)) := by
  obtain ⟨s, tr, run, hcheck⟩ := exists_run_of_exec Server.step twoConfigured
    Headlink.Sample.start (fun r => routesFirst r.2) (by decide +kernel)
  obtain ⟨resp, hread, hcheck⟩ := (Option.any_eq_true _ _).mp hcheck
  rw [Bool.and_eq_true] at hcheck
  obtain ⟨hroute, hapart⟩ := hcheck
  obtain ⟨⟨cfg, order, d⟩, hstart, hfound⟩ := (Option.any_eq_true _ _).mp hroute
  obtain ⟨m, hgot, hresp⟩ := of_configRead hread
  obtain ⟨tr₀, tr₁, s₀, id, net, -, -, -, -, hpeers, routes⟩ := routes_of_network run hgot hresp
  have hdistinct : AddressesDistinct v4Reader net := .of_apart (hpeers ▸ hapart)
  unfold deviceStarted at hstart
  split at hstart
  · next cfg' hcfg =>
    cases hstart
    have hrun := (routes .sample v4Reader Vlink.Sample.localKey none cfg Vlink.Sample.start _ 0 [] _
      (by rw [hresp]; exact hcfg) (List.Perm.refl _) hdistinct .nil).2
    obtain ⟨k, hk⟩ : ∃ k, peerKey Headlink.Sample.keyA = some k :=
      Option.isSome_iff_exists.mp (by decide +kernel)
    have hfound' := (of_decide_eq_true hfound).trans hk
    exact ⟨s, tr, net, _, k, run, hk, hfound', (hrun _ k).mp hfound'⟩
  · cases hstart

end Examples

end Vlink.Client
