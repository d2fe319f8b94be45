import Vlink.Headlink.Database
import Vlink.Headlink.Secret
import Vlink.Lib.Map
import Vlink.Lib.Net

set_option autoImplicit false

/-!
# What the head server knows

`headlink/src/server.rs`, `network.rs` and `peer.rs`: the networks that have been loaded, with
their peers and with who is online, and the operations on them. Each operation below happens
under one lock, or is one query of the database, so it is one step of whoever carries it out.

## Main definitions

* `Vlink.Headlink.VlinkPeer`, `VlinkNetwork`, `ServerInner` — the shared state.
* `Vlink.Headlink.ServerInner.getNetwork` — a network from memory, or else from the database.
* `Vlink.Headlink.Peers.offline`, `Peers.refreshModel` — changes of a peer.
* `Vlink.Headlink.VlinkNetwork.targets` — whom a broadcast goes to.
* `Vlink.Headlink.generateIp`, `unionPubKey` — the address for a new peer, and the key of a pair.

## Main results

* `Vlink.Headlink.ServerInner.getNetwork_eq_ok` — a network that was there is handed out as it
  is; otherwise it is built from its rows, with nobody online.
* `Vlink.Headlink.generateIp_eq_ok` — the address that is found belongs to no peer.
-/

namespace Vlink.Headlink

/-! ## Data -/

/-- A connection of a client. Connections are numbered in the order in which they are accepted. -/
abbrev ConnId := ℕ

/-- `ClientId`. -/
structure ClientId where
  pubKey : String
  networkId : ℤ
deriving DecidableEq

/-- `OnlineInfo`. The map of extra endpoints is shared by all clones of the value, so it is a
reference into `ServerInner.endpoints`. -/
structure OnlineInfo where
  connect : ConnId
  port : UInt32
  endpointAddr : Option String
  extraEndpoints : ℕ
deriving DecidableEq

/-- `VlinkPeer`. -/
structure VlinkPeer where
  pubKey : String
  model : PeerModel
  onlineInfo : Option OnlineInfo
deriving DecidableEq

/-- `VlinkPeer::is_online`. -/
def VlinkPeer.isOnline (p : VlinkPeer) : Bool := p.onlineInfo.isSome

/-- `VlinkPeer::from(PeerModel)`. -/
def VlinkPeer.ofModel (m : PeerModel) : VlinkPeer := ⟨m.pubKey, m, none⟩

/-- `PeerConnect`. -/
structure PeerConnect where
  direction : Bool
  proto : String
deriving DecidableEq

/-- `Peers`. -/
abbrev Peers := Map String VlinkPeer

/-- `VlinkNetwork`. -/
structure VlinkNetwork where
  networkId : ℤ
  cidr : Ipv4Network
  peers : Peers
  connects : Map String PeerConnect

/-- `ServerInfo`. -/
structure ServerInfo where
  version : String
  secret : VlinkStaticSecret

/-- `ServerInner`, and the maps of extra endpoints that values of type `OnlineInfo` refer to. -/
structure ServerInner where
  clients : Map SocketAddr ConnId
  db : Database
  networks : Map ℤ VlinkNetwork
  info : ServerInfo
  endpoints : List (Map String String)

/-- What a step takes from outside: whether the database answers, the text of an error that a
library reports, and which message of a broadcast is sent next. -/
structure Env where
  dbFails : Bool := false
  text : String := ""
  pick : ℕ := 0

/-! ## Peers of a network -/

namespace Peers

/-- `Peers::new`. -/
def new (peers : List VlinkPeer) : Peers := Map.ofList (peers.map fun p => (p.model.pubKey, p))

/-- `Peers::offline`. -/
def offline (peers : Peers) (pubKey : String) : Peers :=
  peers.modify pubKey fun p => { p with onlineInfo := none }

/-- `Peers::refresh_model`. -/
def refreshModel (peers : Peers) (model : PeerModel) : Peers :=
  peers.modify model.pubKey fun p => { p with model }

end Peers

/-! ## Broadcasts -/

/-- Whom a broadcast is meant for: everyone but one peer (`broadcast`), or some peers
(`broadcast_to`). -/
inductive Audience where
  | except (pubKey : String)
  | only (pubKeys : List String)
deriving DecidableEq

/-- The predicate that `broadcast_by` is called with. -/
def Audience.includes : Audience → String → Bool
  | except pubKey, k => k ≠ pubKey
  | only pubKeys, k => k ∈ pubKeys

/-- `broadcast_by`, under the lock of the peers: the connections of the peers that the message
goes to. -/
def VlinkNetwork.targets (n : VlinkNetwork) (audience : Audience) : List ConnId :=
  n.peers.entries.filterMap fun e =>
    if audience.includes e.1 then e.2.onlineInfo.map (·.connect) else none

/-! ## Networks -/

/-- `union_pub_key`: the key of a pair, and whether the first key is the smaller one. -/
def unionPubKey (a b : String) : String × Bool :=
  if a < b then (a ++ b, true) else (b ++ a, false)

namespace ServerInner

variable (s : ServerInner)

/-- Build a network from its rows. -/
def loadNetwork (networkId : ℤ) (env : Env) : Except String VlinkNetwork :=
  if env.dbFails then .error env.text
  else
    match s.db.findNetwork networkId with
    | none => .error "网络id不存在"
    | some network =>
      match Ipv4Network.parse network.cidr with
      | none => .error env.text
      | some cidr => .ok {
          networkId := network.networkId
          cidr
          peers := .new ((s.db.peersOf network.networkId).map .ofModel)
          connects := ∅ }

/-- `ServerInner::get_network`. The lock of the networks is held during the queries. -/
def getNetwork (networkId : ℤ) (env : Env) : Except String (VlinkNetwork × ServerInner) :=
  match s.networks.lookup networkId with
  | some network => .ok (network, s)
  | none => do
    let network ← s.loadNetwork networkId env
    return (network, { s with networks := s.networks.insert networkId network })

/-- Change a network that has been loaded. -/
def modifyNetwork (networkId : ℤ) (f : VlinkNetwork → VlinkNetwork) : ServerInner :=
  { s with networks := s.networks.modify networkId f }

/-- Change a peer of a network that has been loaded. -/
def modifyPeer (id : ClientId) (f : VlinkPeer → VlinkPeer) : ServerInner :=
  s.modifyNetwork id.networkId fun n => { n with peers := n.peers.modify id.pubKey f }

/-- A peer of a network that has been loaded. -/
def peer? (id : ClientId) : Option VlinkPeer :=
  (s.networks.lookup id.networkId).bind fun n => n.peers.lookup id.pubKey

/-- Whether and how a peer is online. -/
def presence (id : ClientId) : Option OnlineInfo := (s.peer? id).bind (·.onlineInfo)

/-- An entry of the table of connections of a network. -/
def connect? (networkId : ℤ) (key : String) : Option PeerConnect :=
  (s.networks.lookup networkId).bind fun n => n.connects.lookup key

/-! ### What the changes do -/

/-- The networks after a change of one of them. -/
lemma lookup_modifyNetwork (n n' : ℤ) (f : VlinkNetwork → VlinkNetwork) :
    (s.modifyNetwork n f).networks.lookup n' =
      if n' = n then (s.networks.lookup n).map f else s.networks.lookup n' :=
  Map.lookup_modify s.networks n n' f

/-- The peers after a change of one of them. -/
lemma peer?_modifyPeer (id id' : ClientId) (f : VlinkPeer → VlinkPeer) :
    (s.modifyPeer id f).peer? id' = if id' = id then (s.peer? id).map f else s.peer? id' := by
  obtain ⟨k, n⟩ := id
  obtain ⟨k', n'⟩ := id'
  simp only [peer?, modifyPeer, lookup_modifyNetwork, ClientId.mk.injEq]
  by_cases hn : n' = n
  · subst hn
    cases hl : s.networks.lookup n' with
    | none => simp
    | some net => simp [Map.lookup_modify]
  · simp [hn]

/-- A change of peers leaves the table of connections alone. -/
lemma connect?_modifyPeer (id : ClientId) (f : VlinkPeer → VlinkPeer) (n : ℤ) (key : String) :
    (s.modifyPeer id f).connect? n key = s.connect? n key := by
  simp only [connect?, modifyPeer, lookup_modifyNetwork]
  by_cases hn : n = id.networkId
  · subst hn
    cases s.networks.lookup id.networkId <;> simp
  · simp [hn]

/-- Enter a pair in the table of connections. -/
def addConnect (id : ClientId) (target proto : String) : ServerInner :=
  s.modifyNetwork id.networkId fun n => { n with
    connects := n.connects.insert (unionPubKey id.pubKey target).1
      ⟨(unionPubKey id.pubKey target).2, proto⟩ }

/-- An entry in the table of connections leaves the peers alone. -/
lemma peer?_addConnect (id id' : ClientId) (target proto : String) :
    (s.addConnect id target proto).peer? id' = s.peer? id' := by
  simp only [peer?, addConnect, lookup_modifyNetwork]
  by_cases hn : id'.networkId = id.networkId
  · rw [hn]
    cases s.networks.lookup id.networkId <;> simp
  · simp [hn]

/-- The table of connections after an entry. -/
lemma connect?_addConnect (id : ClientId) (target proto : String) (n : ℤ) (key : String) :
    (s.addConnect id target proto).connect? n key =
      if n = id.networkId ∧ key = (unionPubKey id.pubKey target).1 then
        (s.networks.lookup n).map fun _ => ⟨(unionPubKey id.pubKey target).2, proto⟩
      else s.connect? n key := by
  simp only [connect?, addConnect, lookup_modifyNetwork]
  by_cases hn : n = id.networkId
  · subst hn
    cases s.networks.lookup id.networkId with
    | none => simp
    | some net =>
      simp only [if_true, Option.map_some, Option.bind_some, Map.lookup_set, true_and]
  · simp [hn]

/-! ### Loading a network -/

/-- A network that was there is handed out as it is; otherwise it is built from its rows. -/
theorem getNetwork_eq_ok {s s' : ServerInner} {networkId : ℤ} {env : Env} {n : VlinkNetwork}
    (h : s.getNetwork networkId env = .ok (n, s')) :
    (s.networks.lookup networkId = some n ∧ s' = s) ∨
      s.networks.lookup networkId = none ∧ s.loadNetwork networkId env = .ok n ∧
        s' = { s with networks := s.networks.insert networkId n } := by
  unfold getNetwork at h
  cases hn : s.networks.lookup networkId with
  | some network =>
    simp only [hn, Except.ok.injEq, Prod.mk.injEq] at h
    obtain ⟨rfl, rfl⟩ := h
    exact .inl ⟨rfl, rfl⟩
  | none =>
    simp only [hn] at h
    cases hl : s.loadNetwork networkId env with
    | error e =>
      rw [hl] at h
      cases h
    | ok network =>
      rw [hl] at h
      cases h
      exact .inr ⟨rfl, rfl, rfl⟩

/-- What a network is built from. -/
lemma loadNetwork_eq_ok {s : ServerInner} {networkId : ℤ} {env : Env} {n : VlinkNetwork}
    (h : s.loadNetwork networkId env = .ok n) :
    n.networkId = networkId ∧ n.connects = ∅ ∧
      n.peers = .new ((s.db.peersOf networkId).map .ofModel) := by
  unfold loadNetwork at h
  split_ifs at h
  cases hn : s.db.findNetwork networkId with
  | none =>
    rw [hn] at h
    cases h
  | some row =>
    have hid : row.networkId = networkId := by
      simpa using List.find?_some hn
    simp only [hn] at h
    cases hc : Ipv4Network.parse row.cidr with
    | none =>
      rw [hc] at h
      cases h
    | some cidr =>
      rw [hc] at h
      cases h
      exact ⟨hid, rfl, by rw [hid]⟩

end ServerInner

/-- The peers of a network that was built from its rows: one for each row, and nobody online. -/
lemma Database.lookup_new (db : Database) (n : ℤ) {k : String} {p : VlinkPeer} :
    (Peers.new ((db.peersOf n).map .ofModel)).lookup k = some p ↔
      ∃ m ∈ db.peers, m.networkId = n ∧ m.pubKey = k ∧ p = .ofModel m := by
  have hkeys : (((db.peersOf n).map VlinkPeer.ofModel).map
      fun p => (p.model.pubKey, p)).map Prod.fst = (db.peersOf n).map (·.pubKey) := by
    simp [Function.comp_def, VlinkPeer.ofModel]
  have hnodup : ((db.peersOf n).map (·.pubKey)).Nodup :=
    db.nodup_keys.sublist (List.filter_sublist.map _)
  rw [Peers.new, Map.lookup_ofList (hkeys ▸ hnodup)]
  simp only [List.mem_map, Database.peersOf, List.mem_filter, decide_eq_true_eq, Prod.mk.injEq]
  constructor
  · rintro ⟨q, ⟨m, ⟨hm, hn⟩, rfl⟩, hk, rfl⟩
    exact ⟨m, hm, hn, hk, rfl⟩
  · rintro ⟨m, hm, hn, hk, rfl⟩
    exact ⟨_, ⟨m, ⟨hm, hn⟩, rfl⟩, hk, rfl⟩

/-! ## Addresses -/

/-- `generate_ip`: the first address after the first two that belongs to no peer. -/
def generateIp (network : Ipv4Network) (peers : Peers) : Except String Ipv4Addr :=
  let peerIps := peers.entries.filterMap fun e => e.2.model.ip
  match (network.addresses.drop 2).find? fun i => peerIps.all fun p => p ≠ i.toText with
  | some i => .ok i
  | none => .error "ip地址不够"

/-- The address that is found belongs to no peer. -/
theorem generateIp_eq_ok {network : Ipv4Network} {peers : Peers} {ip : Ipv4Addr}
    (h : generateIp network peers = .ok ip) {k : String} {p : VlinkPeer}
    (hp : peers.lookup k = some p) : p.model.ip ≠ some ip.toText := by
  intro heq
  unfold generateIp at h
  dsimp only at h
  split at h
  · next i hi =>
    cases h
    have hfree := List.find?_some hi
    rw [List.all_eq_true] at hfree
    have hmem : ip.toText ∈ peers.entries.filterMap fun e => e.2.model.ip :=
      List.mem_filterMap.mpr ⟨⟨k, p⟩, AList.mem_lookup_iff.mp hp, heq⟩
    simpa using hfree _ hmem
  · cases h

end Vlink.Headlink
