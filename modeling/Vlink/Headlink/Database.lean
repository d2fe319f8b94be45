import Mathlib.Data.List.Nodup
import Vlink.Headlink.Abi

set_option autoImplicit false

/-!
# The tables of the head server

`headlink/src/db/entity`: the rows the server reads, and the queries it makes. Columns that the
server does not use are left out.

## Main definitions

* `Vlink.Headlink.PeerModel`, `NetworkTokenModel`, `NetworkModel`, `PeerExtraTransportModel` —
  rows.
* `Vlink.Headlink.Database` — the tables; no two peers share an id or a public key.
* `Vlink.Headlink.Database.updateIp` — record the address of a peer.
-/

namespace Vlink.Headlink

/-- A row of `peer`. -/
structure PeerModel where
  id : ℤ
  pubKey : String
  ip : Option String
  defaultProto : Option String
  port : Option Int32
  networkId : ℤ
  disabled : Bool
deriving DecidableEq

/-- A row of `network_token`. -/
structure NetworkTokenModel where
  token : String
  networkId : ℤ
  disabled : Bool
deriving DecidableEq

/-- A row of `network`. -/
structure NetworkModel where
  networkId : ℤ
  cidr : String
deriving DecidableEq

/-- A row of `peer_extra_transport`. -/
structure PeerExtraTransportModel where
  peerId : ℤ
  disabled : Bool
  proto : String
  params : String
deriving DecidableEq

/-- The tables. -/
structure Database where
  peers : List PeerModel
  tokens : List NetworkTokenModel
  networks : List NetworkModel
  transports : List PeerExtraTransportModel
  /-- The primary key of `peer`. -/
  nodup_ids : (peers.map (·.id)).Nodup
  /-- The column `pub_key` is unique. -/
  nodup_keys : (peers.map (·.pubKey)).Nodup

namespace Database

variable (db : Database)

/-- `NetworkTokenEntity::find()`, filtered by token. -/
def findToken (token : String) : Option NetworkTokenModel := db.tokens.find? (·.token = token)

/-- `PeerEntity::find()`, filtered by public key. -/
def findPeer (pubKey : String) : Option PeerModel := db.peers.find? (·.pubKey = pubKey)

/-- `NetworkEntity::find_by_id`. -/
def findNetwork (id : ℤ) : Option NetworkModel := db.networks.find? (·.networkId = id)

/-- `PeerEntity::find()`, filtered by network. -/
def peersOf (id : ℤ) : List PeerModel := db.peers.filter (·.networkId = id)

/-- `PeerExtraTransportEntity::find()`, filtered by peer, without the disabled ones. -/
def transportsOf (peerId : ℤ) : List PeerExtraTransportModel :=
  db.transports.filter fun t => t.peerId = peerId ∧ t.disabled = false

/-- Set the address in the row with the given id. -/
def withIp (id : ℤ) (ip : String) (p : PeerModel) : PeerModel :=
  if p.id = id then { p with ip := some ip } else p

/-- An address keeps the id. -/
@[simp] lemma id_withIp (id : ℤ) (ip : String) (p : PeerModel) : (withIp id ip p).id = p.id := by
  unfold withIp
  split_ifs <;> rfl

/-- An address keeps the key. -/
@[simp] lemma pubKey_withIp (id : ℤ) (ip : String) (p : PeerModel) :
    (withIp id ip p).pubKey = p.pubKey := by
  unfold withIp
  split_ifs <;> rfl

/-- An address keeps the network. -/
@[simp] lemma networkId_withIp (id : ℤ) (ip : String) (p : PeerModel) :
    (withIp id ip p).networkId = p.networkId := by
  unfold withIp
  split_ifs <;> rfl

/-- `PeerEntity::update` of the column `ip`; `none` if there is no such row. -/
def updateIp (id : ℤ) (ip : String) : Option Database :=
  if id ∈ db.peers.map (·.id) then
    some { db with
      peers := db.peers.map (withIp id ip)
      nodup_ids := by simpa [Function.comp_def] using db.nodup_ids
      nodup_keys := by simpa [Function.comp_def] using db.nodup_keys }
  else none

variable {db}

/-- The primary key. -/
lemma eq_of_id {m m' : PeerModel} (hm : m ∈ db.peers) (hm' : m' ∈ db.peers)
    (h : m.id = m'.id) : m = m' :=
  List.inj_on_of_nodup_map db.nodup_ids hm hm' h

/-- Public keys are unique. -/
lemma eq_of_pubKey {m m' : PeerModel} (hm : m ∈ db.peers) (hm' : m' ∈ db.peers)
    (h : m.pubKey = m'.pubKey) : m = m' :=
  List.inj_on_of_nodup_map db.nodup_keys hm hm' h

/-- The rows after an update. -/
lemma mem_updateIp {db' : Database} {id : ℤ} {ip : String} (h : db.updateIp id ip = some db')
    {m : PeerModel} : m ∈ db'.peers ↔ ∃ r ∈ db.peers, withIp id ip r = m := by
  unfold updateIp at h
  split_ifs at h
  cases h
  exact List.mem_map

end Database

end Vlink.Headlink
