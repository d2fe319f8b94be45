import Vlink.Client.Configure
import Vlink.Device.Delivery

set_option autoImplicit false

/-!
# The overlay network

Two clients that the server has listed for each other start their devices. The configurations are
all that they share, and it is enough: the devices find each other, shake hands, and from then on
each carries the packets for the address of the other one.

## Main definitions

* `Vlink.Device.entry` — the entry of a peer in a new device.
* `Vlink.Client.Member` — a client that has got its configuration, and starts a device with it.
* `Vlink.Client.started` — the devices of two members.

## Main results

* `Vlink.Client.started_reaches` — starting the devices is a run of the link.
* `Vlink.Client.overlay_conversation` — two members that are listed for each other can talk.
-/

namespace Vlink

/-! ## New entries -/

namespace Device

variable (C : Crypto)

/-- The entry of a peer that is inserted for the first time. -/
def entry (secret : LocalStaticSecret) (cfg : PeerConfig) (now : Instant) : PeerNode where
  peer := .new C
    (match cfg.presharedKey with
      | some psk => (secret.withPeer cfg.publicKey).setPsk psk
      | none => secret.withPeer cfg.publicKey)
    (cfg.endpoint.map endpointFor) cfg.persistentKeepalive cfg.isOnline cfg.ipAddr now
  allowedIps := cfg.allowedIps
  inbox := []
  outbox := []
  handshakeTask := .waiting
  inboundTask := .idle
  outboundTask := .idle

variable {C} {d : Device} {cfg : PeerConfig} {cfgs : List PeerConfig} {now : Instant} {k : Key}

/-- The peers after `insert_peer`. -/
lemma peers_insertPeer : (d.insertPeer C cfg now).peers = Function.update d.peers cfg.publicKey
    (some ((d.peers cfg.publicKey).getD (entry C d.secret cfg now))) := rfl

/-- Inserting peers leaves the others alone. -/
lemma peers_foldl_of_notMem (h : k ∉ cfgs.map PeerConfig.publicKey) :
    (cfgs.foldl (fun d cfg => d.insertPeer C cfg now) d).peers k = d.peers k := by
  induction cfgs generalizing d with
  | nil => rfl
  | cons cfg cfgs ih =>
    rw [List.map_cons, List.mem_cons, not_or] at h
    rw [List.foldl_cons, ih h.2, peers_insertPeer, Function.update_of_ne h.1]

/-- Each peer that is inserted once has a new entry. -/
lemma peers_foldl_of_mem (h : (cfgs.map PeerConfig.publicKey).Nodup) (hcfg : cfg ∈ cfgs)
    (hnew : d.peers cfg.publicKey = none) :
    (cfgs.foldl (fun d cfg => d.insertPeer C cfg now) d).peers cfg.publicKey =
      some (entry C d.secret cfg now) := by
  induction cfgs generalizing d with
  | nil => cases hcfg
  | cons cfg' cfgs ih =>
    rw [List.map_cons, List.nodup_cons] at h
    rw [List.foldl_cons]
    rcases List.mem_cons.mp hcfg with rfl | hmem
    · rw [peers_foldl_of_notMem h.1, peers_insertPeer, Function.update_self, hnew, Option.getD_none]
    · have hne : cfg.publicKey ≠ cfg'.publicKey := fun heq =>
        h.1 (heq ▸ List.mem_map_of_mem hmem)
      exact ih (d := d.insertPeer C cfg' now) h.2 hmem
        (by rw [peers_insertPeer, Function.update_of_ne hne, hnew])

/-- Inserting peers leaves the loops of the device alone. -/
lemma up_foldl : (cfgs.foldl (fun d cfg => d.insertPeer C cfg now) d).inboundUp = d.inboundUp ∧
    (cfgs.foldl (fun d cfg => d.insertPeer C cfg now) d).outboundUp = d.outboundUp := by
  induction cfgs generalizing d with
  | nil => exact ⟨rfl, rfl⟩
  | cons cfg cfgs ih => exact ih (d := d.insertPeer C cfg now)

end Device

namespace Link

variable {C : Crypto} {l : Link} {e : Side}

/-- Inserting peers in the device at one end. -/
lemma run_insertPeers (cfgs : List PeerConfig) :
    Run (step C) (fun _ _ => True) l []
      (l.put e ⟨cfgs.foldl (fun d cfg => d.insertPeer C cfg (l.node e).clock) (l.node e).device,
        (l.node e).clock⟩ []) := by
  induction cfgs using List.reverseRecOn with
  | nil =>
    have hput : l.put e ⟨(l.node e).device, (l.node e).clock⟩ [] = l := l.put_node e
    rw [List.foldl_nil, hput]
    exact .nil
  | append_singleton cfgs cfg ih =>
    rw [List.foldl_append]
    set now := (l.node e).clock
    set d := cfgs.foldl (fun d cfg => d.insertPeer C cfg now) (l.node e).device
    have htick : ((l.put e ⟨d, now⟩ []).node e).tick C (.insertPeer cfg now) =
        some (⟨d.insertPeer C cfg now, now⟩, []) := by
      rw [node_put_self]
      exact Timed.tick_eq_some.mpr ⟨le_rfl, rfl, rfl⟩
    have run := ih.snoc trivial (step_eq_some.mpr ⟨_, _, htick, rfl, rfl⟩)
    rwa [put_put] at run

end Link

namespace Client

open Headlink

/-! ## Members of a network -/

/-- A client that has got the peers of its network from the server, where no two of them have the
same address, and starts a device with them. -/
structure Member (R : IpReader) (privateKey : Key) (net : VlinkNetwork) (cfg : DeviceConfig)
    (order : List PeerConfig) : Prop where
  accepted : ∃ port resp, requestForConfig R privateKey port (.respConfig resp) = .ret (.ok cfg) ∧
    resp.peers = configEntries net.peers
  order : order.Perm (cfg.peers.pairs.map Prod.snd)
  distinct : AddressesDistinct R net

section Member

variable {R : IpReader} {privateKey : Key} {net : VlinkNetwork} {cfg : DeviceConfig}
  {order : List PeerConfig} {C : Crypto} {k : Key}

/-- A member has its own key. -/
lemma Member.privateKey_eq (h : Member R privateKey net cfg order) :
    cfg.privateKey = privateKey := by
  obtain ⟨port, resp, hcfg, -⟩ := h.accepted
  exact (requestForConfig_eq_ok hcfg).1

/-- A member has the peers of the network. -/
lemma Member.listed (h : Member R privateKey net cfg order) : Listed R net order := by
  obtain ⟨port, resp, hcfg, hpeers⟩ := h.accepted
  exact .of_request hcfg hpeers h.order

/-- The entry that a peer has in the device. -/
lemma Listed.peers_start (h : Listed R net order) {c : PeerConfig} (hc : c ∈ order)
    (index : UInt32) (now : Instant) : (cfg.start C index order now).peers c.publicKey =
      some (Device.entry C (.new C cfg.privateKey) c now) :=
  Device.peers_foldl_of_mem h.nodup hc rfl

end Member

/-- The devices of two clients, when they have just been started. -/
def started (C : Crypto) (cfg : Side → DeviceConfig) (index : Side → UInt32)
    (order : Side → List PeerConfig) (now : Side → Instant) : Vlink.Link where
  node e := ⟨(cfg e).start C (index e) (order e) (now e), now e⟩
  wire _ := []

section Started

variable {C : Crypto} {cfg : Side → DeviceConfig} {index : Side → UInt32}
  {order : Side → List PeerConfig} {now : Side → Instant}

/-- Starting the devices is a run of the link. -/
theorem started_reaches : (started C cfg index order now).Reaches C (fun e => (cfg e).privateKey)
    index now [] := by
  set l := Vlink.Link.new C (fun e => (cfg e).privateKey) index now with hl
  have left := Vlink.Link.run_insertPeers (C := C) (l := l) (e := .left) (order .left)
  have right := Vlink.Link.run_insertPeers (C := C) (l := l.put .left
    ⟨(order .left).foldl (fun d c => d.insertPeer C c (now .left)) (l.node .left).device,
      now .left⟩ []) (e := .right) (order .right)
  have hstarted : started C cfg index order now = (l.put .left
      ⟨(order .left).foldl (fun d c => d.insertPeer C c (now .left)) (l.node .left).device,
        now .left⟩ []).put .right
      ⟨(order .right).foldl (fun d c => d.insertPeer C c (now .right)) (l.node .right).device,
        now .right⟩ [] := by
    refine Vlink.Link.ext ?_ ?_
    · funext e
      cases e <;> rfl
    · funext e
      cases e <;> rfl
  rw [hstarted]
  exact left.trans right

/-- The other one is online, and its endpoint is known. -/
def Locates (R : IpReader) (net : VlinkNetwork) (k : Key) (addr : SocketAddr) : Prop :=
  ∃ pubKey p t info host, net.peers.lookup pubKey = some p ∧ peerKey pubKey = some k ∧
    p.model.ip = some t ∧ p.onlineInfo = some info ∧ info.endpointAddr = some host ∧
    R.parse host = some addr.ip ∧ info.port.toUInt16 = addr.port

/-- The configuration of a peer that is online, with its endpoint. -/
lemma Listed.exists_located {R : IpReader} {net : VlinkNetwork} {cs : List PeerConfig}
    (h : Listed R net cs) {k : Key} {addr : SocketAddr} (hk : Locates R net k addr) :
    ∃ c ∈ cs, c.publicKey = k ∧ c.isOnline = true ∧ c.endpoint = some addr := by
  obtain ⟨pubKey, v, t, info, host, hv, hkey, ht, hinfo, hhost, hip, hport⟩ := hk
  obtain ⟨p, hp⟩ : ∃ p, configEntry (pubKey, v) = some p := by simp [configEntry, ht]
  obtain ⟨c, hc, hmade⟩ := h.mem p (mem_configEntries.mpr ⟨pubKey, v, hv, hp⟩)
  rw [configEntry, ht, Option.map_some, Option.some.injEq] at hp
  subst hp
  refine ⟨c, hc, ?_, ?_, ?_⟩
  · have hsame : some c.publicKey = some k := hmade.key.symm.trans hkey
    exact Option.some.inj hsame
  · rw [hmade.isOnline]
    simp [hinfo]
  · have hend := hmade.endpoint
    simp only [endpointOf, hinfo, hhost, hip, hport, Option.bind_some, Option.map_some,
      Option.getD_some, Except.ok.injEq] at hend
    exact hend.symm

end Started

/-- **The overlay network.** Two clients have got their configurations from the server, each at a
time when the other one had an address, and one of them when the other one was online with an
endpoint that leads there. Then their devices can be brought to a handshake by their own tasks and a
network that carries packets; and after that every sequence of packets for the address of the other
one can be carried, and comes out there unchanged and in order.

**Proof sketch.** The configurations make the devices know each other, so they can be connected. The
routes stay what they were, and the packets are carried one after the other. -/
theorem overlay_conversation {C : Crypto} (hC : C.Lawful) {R : IpReader} {key : Side → Key}
    {net : Side → VlinkNetwork} {cfg : Side → DeviceConfig} {order : Side → List PeerConfig}
    (member : ∀ e, Member R (key e) (net e) (cfg e) (order e)) (index : Side → UInt32)
    (now : Side → Instant) {addr : Side → Ipv4Addr}
    (listed : ∀ e, HasAddress R (net e) (C.publicKey (key e.other)) (.v4 (addr e.other)))
    {e : Side} {dst : SocketAddr} (located : Locates R (net e) (C.publicKey (key e.other)) dst)
    {route : Side → OutboundSender → Prop} (hroute : route e (Device.endpointFor dst))
    (hback : ∃ ep, route e.other ep) (talk : List (Side × Bytes))
    (htalk : ∀ x ∈ talk, Device.destination x.2 = .ret (some (.v4 (addr x.1.other))) ∧
      x.2.length < maxPlaintext) (hlen : talk.length < rejectAfterMessages) :
    ∃ tr l tr' l', Run (Vlink.Link.step C) (Vlink.Link.Carried C route)
        (started C cfg index order now) tr l ∧
      Run (Vlink.Link.step C) (Vlink.Link.Used C route) l tr' l' ∧
      Vlink.Link.delivered tr' = talk.map fun x => (x.1.other, x.2) := by
  have hkey : (fun e => (cfg e).privateKey) = key := funext fun e => (member e).privateKey_eq
  -- each of them has the other one among its peers
  have hpeer : ∀ e, ∃ c ∈ order e, c.publicKey = C.publicKey (key e.other) ∧
      c.presharedKey = none := by
    intro e
    obtain ⟨c, hc, hk, p, -, hmade, -⟩ := (member e).listed.hasAddress_iff.mp (listed e)
    exact ⟨c, hc, hk, hmade.presharedKey⟩
  choose c hc hk hpsk using hpeer
  set l := started C cfg index order now with hl
  have introduced : l.Introduced C key fun e =>
      Device.entry C (.new C (cfg e).privateKey) (c e) (now e) := by
    refine ⟨fun e => ?_, fun e => ?_, fun e => Device.up_foldl.1, fun e => by simp [Device.entry]⟩
    · rw [← hk e]
      exact (member e).listed.peers_start (hc e) (index e) (now e)
    · simp only [Device.entry, hpsk]
      rfl
  -- one of them can reach the other
  obtain ⟨c', hc', hk', honline, hendpoint⟩ := (member e).listed.exists_located located
  have hsame : c' = c e :=
    List.inj_on_of_nodup_map (member e).listed.nodup hc' (hc e) (hk'.trans (hk e).symm)
  rw [hsame] at honline hendpoint
  obtain ⟨tr, l₁, n, sess, run, connected, hnonce⟩ := introduced.exists_connected hC
    (hkey ▸ started_reaches : l.Reaches C key index now []) e
    (show 0 + 0 + 2 < 2 ^ 32 by decide) honline
    (by simp [Device.entry, Peer.new, hendpoint])
    (fun ep hep => by
      simp only [PeerNode.mem_endpoints, Device.entry, Peer.new, hendpoint, Option.map_some,
        Option.some.injEq, InboundTask.endpoint?, reduceCtorEq, List.not_mem_nil, false_and,
        exists_false, or_false] at hep
      rwa [← hep]) hback
  -- the routes are still those of the configurations
  have same := Vlink.Link.SameRoutes.of_run run
  have hrouted : ∀ x ∈ talk, (l₁.node x.1).device.tickOutbound x.2 =
      .ret (some (C.publicKey (key x.1.other))) := by
    intro x hx
    have hroute : (l.node x.1).device.getByIp (.v4 (addr x.1.other)) =
        some (C.publicKey (key x.1.other)) :=
      ((member x.1).listed.getByIp_iff (member x.1).distinct .nil _).mpr (listed x.1)
    rw [same.tickOutbound, Device.tickOutbound, (htalk x hx).1, Outcome.ret_bind]
    exact congrArg Outcome.ret hroute
  obtain ⟨tr', l₂, n', run', -, hdelivered⟩ := connected.exists_conversation hC talk
    (fun e' => (same.up e').trans Device.up_foldl.2) hrouted (fun x hx => (htalk x hx).2)
    (fun e' => Vlink.Link.nonce_add_countP_le (hnonce e') hlen)
  exact ⟨tr, l₁, tr', l₂, run, run', hdelivered⟩

section Examples

/-- The two devices to run, as members of a network. -/
def sampleText (e : Side) : String := Base64.encode (Crypto.sample.publicKey (Sample.keys e)).val

/-- Their addresses. -/
def sampleAddress : Side → Ipv4Addr
  | .left => .ofOctets 10 0 0 1
  | .right => .ofOctets 10 0 0 2

/-- A peer that is online. -/
def samplePeer (e : Side) : VlinkPeer where
  pubKey := sampleText e
  model := {
    id := 1, pubKey := sampleText e, ip := some (sampleAddress e).toText, defaultProto := none,
    port := none, networkId := 1, disabled := false }
  onlineInfo := some {
    connect := 0, port := 51820, endpointAddr := some "192.0.2.1", extraEndpoints := 0 }

/-- The network of the two. -/
def sampleNetwork : VlinkNetwork where
  networkId := 1
  cidr := ⟨.ofOctets 10 0 0 0, 24, by decide, by decide⟩
  peers := Map.ofList [(sampleText .left, samplePeer .left), (sampleText .right, samplePeer .right)]
  connects := ∅

/-- The configuration that the server sends to both. -/
def sampleConfig : RespConfig where
  networkId := 1
  address := .ofOctets 10 0 0 1
  mask := 24
  network := .ofOctets 10 0 0 0
  port := 0
  ipv6Addr := none
  peers := configEntries sampleNetwork.peers
  extraTransports := []
  peerExtraTransports := []

/-- A client accepts it. -/
def sampleAccepted (e : Side) : Bool :=
  match requestForConfig v4Reader (Sample.keys e) none (.respConfig sampleConfig) with
  | .ret (.ok _) => true
  | _ => false

/-- Both clients are members. -/
lemma exists_sampleMember (e : Side) :
    ∃ cfg order, Member v4Reader (Sample.keys e) sampleNetwork cfg order := by
  have hok : sampleAccepted e = true := by
    cases e <;> decide +kernel
  unfold sampleAccepted at hok
  split at hok
  · next cfg hcfg =>
    exact ⟨cfg, _, ⟨none, sampleConfig, hcfg, rfl⟩, .refl _, .of_apart (by decide +kernel)⟩
  · cases hok

/-- Two clients are started, and each sends a packet to the other. -/
theorem overlay_conversation_sample : ∃ cfg order tr l tr' l',
    (∀ e, Member v4Reader (Sample.keys e) sampleNetwork (cfg e) (order e)) ∧
    Run (Vlink.Link.step .sample) (Vlink.Link.Carried .sample fun _ _ => True)
      (started .sample cfg (fun _ => Sample.start) order fun _ => 0) tr l ∧
    Run (Vlink.Link.step .sample) (Vlink.Link.Used .sample fun _ _ => True) l tr' l' ∧
    Vlink.Link.delivered tr' = [(.right, Sample.ipPacket [10, 0, 0, 1] [10, 0, 0, 2]),
      (.left, Sample.ipPacket [10, 0, 0, 2] [10, 0, 0, 1])] := by
  choose cfg order member using exists_sampleMember
  have listed : ∀ e : Side, HasAddress v4Reader sampleNetwork
      (Crypto.sample.publicKey (Sample.keys e.other)) (.v4 (sampleAddress e.other)) := by
    intro e
    refine ⟨sampleText e.other, samplePeer e.other, (sampleAddress e.other).toText, ?_, ?_, rfl, ?_⟩
    · cases e <;> decide +kernel
    · cases e <;> decide +kernel
    · cases e <;> decide +kernel
  have located : Locates v4Reader sampleNetwork (Crypto.sample.publicKey (Sample.keys .right))
      ⟨.v4 (Ipv4Addr.ofOctets 192 0 2 1), 51820⟩ := by
    refine ⟨sampleText .right, samplePeer .right, (sampleAddress .right).toText, _, _, ?_, ?_, rfl,
      rfl, rfl, ?_, rfl⟩
    · decide +kernel
    · decide +kernel
    · decide +kernel
  have talk : ∃ tr l tr' l',
      Run (Vlink.Link.step .sample) (Vlink.Link.Carried .sample fun _ _ => True)
        (started .sample cfg (fun _ => Sample.start) order fun _ => 0) tr l ∧
      Run (Vlink.Link.step .sample) (Vlink.Link.Used .sample fun _ _ => True) l tr' l' ∧
      Vlink.Link.delivered tr' = _ :=
    overlay_conversation Crypto.sample_lawful member (fun _ => Sample.start) (fun _ => 0) listed
      (e := .left) located trivial ⟨Sample.endpoint, trivial⟩
      [(.left, Sample.ipPacket [10, 0, 0, 1] [10, 0, 0, 2]),
        (.right, Sample.ipPacket [10, 0, 0, 2] [10, 0, 0, 1])] (by decide) (by decide)
  obtain ⟨tr, l, tr', l', run, run', hdelivered⟩ := talk
  exact ⟨cfg, order, tr, l, tr', l', member, run, run', hdelivered⟩

end Examples

end Client

end Vlink
