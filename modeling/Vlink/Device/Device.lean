import Vlink.Device.Peer

set_option autoImplicit false

/-!
# The device

`device/mod.rs`, `device/handle.rs` and `device/peer/peers.rs`: the peers of a device, how a
received datagram finds the peer it is for, and how a packet from the TUN device does.

## Main definitions

* `Vlink.PeerNode` — a peer with its channels and the places its three tasks have reached.
* `Vlink.Device` — the peers, the shared sessions and the routing table.
* `Vlink.Device.tickInbound`, `Vlink.Device.tickOutbound` — one datagram, one TUN packet.
* `Vlink.Device.insertPeer` — a new peer.
-/

namespace Vlink

/-! ## Tasks -/

/-- How far `loop_handshake` of a peer has come in its round. -/
inductive HandshakeTask where
  /-- At the head of the loop: waiting to be online, then asking the monitor. -/
  | waiting
  /-- The monitor said yes. -/
  | initiating
  /-- `initiate` has returned; the slots are next. -/
  | preparing (next : Session) (packet : Bytes)
  /-- The slots are done; the packet is sent next. -/
  | sending (packet : Bytes)
  /-- The packet is out; the monitor is next. -/
  | sent
  /-- About to compute the time to sleep until. -/
  | resting
  /-- Asleep. -/
  | sleeping (wake : Instant)
  /-- Gone after a panic. -/
  | dead

/-- How far `loop_inbound` of a peer has come with the event it handles. -/
inductive InboundTask where
  /-- Waiting for an event. -/
  | idle
  /-- `respond` has returned; the slots are next. -/
  | responded (endpoint : OutboundSender) (session : Session) (packet : Bytes)
  /-- `prepare_next` has returned; the endpoint is next. -/
  | prepared (endpoint : OutboundSender) (packet : Bytes)
  /-- The endpoint is set; the response is sent next. -/
  | replying (endpoint : OutboundSender) (packet : Bytes)
  /-- The response is out; the monitor is next. -/
  | replied
  /-- `finalize` has returned; the slots are next. -/
  | finalized (endpoint : OutboundSender) (session : Session)
  /-- `complete_uninit` has returned true; the monitor is next. -/
  | completed (endpoint : OutboundSender)
  /-- The monitor is done; the endpoint and the first packet are next. -/
  | confirming (endpoint : OutboundSender)
  /-- The slots are done; the replay check of a data packet is next. -/
  | checking (endpoint : OutboundSender) (packet : TransportData) (session : Session)
  /-- Gone after a panic. -/
  | dead

/-- How far `loop_outbound` of a peer has come with the data it sends. -/
inductive OutboundTask where
  /-- Waiting for data, or for the time of the next keepalive. -/
  | idle
  /-- The data is sealed; it is sent next. -/
  | sending (buf : Bytes)
  /-- Sent; the monitor is next. -/
  | sent (len : ℕ)

/-- `PeerEntry`: a peer with its two channels and its tasks. There is no limit to what waits in a
channel here. In the source a channel has 32 places, and who finds it full waits: `Vlink.Bounded`
is the device with these limits. -/
structure PeerNode where
  peer : Peer
  allowedIps : List IpNetwork
  inbox : List InboundEvent
  outbox : List Bytes
  handshakeTask : HandshakeTask
  inboundTask : InboundTask
  outboundTask : OutboundTask

/-- The part of `PeerConfig` that the device reads. -/
structure PeerConfig where
  publicKey : Key
  allowedIps : List IpNetwork
  endpoint : Option SocketAddr
  presharedKey : Option Key
  isOnline : Bool
  persistentKeepalive : Option Duration
  ipAddr : String

/-! ## The device -/

/-- `DeviceInner` with its `PeerList` and `Settings`, and whether its two loops are running. -/
structure Device where
  secret : LocalStaticSecret
  cookie : Cookie
  store : Store
  ips : IpNetwork.Table Key
  peers : Key → Option PeerNode
  inboundUp : Bool
  outboundUp : Bool

namespace Device

variable (C : Crypto)

/-- `Device::new`, before any peer is inserted: the private key, and the random first session
index. -/
def new (privateKey : Key) (start : UInt32) : Device where
  secret := .new C privateKey
  cookie := .new C (.new C privateKey)
  store := ⟨.new start, .empty⟩
  ips := []
  peers _ := none
  inboundUp := true
  outboundUp := true

/-- `PeerList::get_by_key`. -/
def getByKey (d : Device) (publicKey : Key) : Option PeerNode := d.peers publicKey

/-- `PeerList::get_by_ip`. -/
def getByIp (d : Device) (ip : IpAddr) : Option Key := (d.ips.longestMatch ip).map Prod.snd

/-- `PeerList::get_session_by_index`: the session, and the public key of its peer. -/
def getSessionByIndex (d : Device) (i : UInt32) : Option (Session × Key) :=
  match d.store.index.getByIndex i with
  | some session =>
    (d.getByKey session.secret.publicKey).map fun _ => (session, session.secret.publicKey)
  | none => none

/-- `Inbound::endpoint_for`. -/
def endpointFor (addr : SocketAddr) : OutboundSender := ⟨0, addr, "Udp"⟩

/-- `DeviceInner::insert_peer` with `PeerList::insert`: a peer that is already there stays, and
its networks are entered again. -/
def insertPeer (d : Device) (cfg : PeerConfig) (now : Instant) : Device :=
  let secret := d.secret.withPeer cfg.publicKey
  let secret := match cfg.presharedKey with
    | some psk => secret.setPsk psk
    | none => secret
  let entry := (d.peers cfg.publicKey).getD
    { peer := .new C secret (cfg.endpoint.map endpointFor) cfg.persistentKeepalive cfg.isOnline
        cfg.ipAddr now
      allowedIps := cfg.allowedIps
      inbox := []
      outbox := []
      handshakeTask := .waiting
      inboundTask := .idle
      outboundTask := .idle }
  { d with
    peers := Function.update d.peers cfg.publicKey (some entry)
    ips := entry.allowedIps.foldl (fun t cidr => t.insert cidr cfg.publicKey) d.ips }

/-- `RateLimiter::fetch_token`: the limit is commented out in the source. -/
def fetchToken : Bool := true

/-- The first half of `tick_inbound`: handshake packets must carry a valid code, and are
answered with a cookie when the rate limit is reached. The result is `none` if the packet is to
be handled, and else the cookie state and what was sent. -/
def screen (d : Device) (env : Env) (endpoint : OutboundSender) (payload : Bytes) :
    Outcome (Option (Cookie × List Event)) := do
  if !(← Message.isHandshake payload) then return none
  if !(← d.cookie.validateMac1 C payload) then return some (d.cookie, [])
  if fetchToken then return none
  if !(← d.cookie.validateMac2 C payload) then return some (d.cookie, [])
  let (cookie, reply) ←
    d.cookie.generateCookieReply C payload endpoint.dst env.rand24 env.rand32 env.now
  let sent ← Peer.sendUnwrap env endpoint reply
  return some (cookie, sent)

/-- The second half of `tick_inbound`: the peer that a packet is for, and the event to stage for
it. An initiation that cannot be decrypted reaches a `todo!`. -/
def dispatch (d : Device) (endpoint : OutboundSender) (payload : Bytes) :
    Outcome (Option (Key × InboundEvent)) := do
  match ← Message.parse payload with
  | .error _ => return none
  | .ok (.handshakeInitiation p) =>
    match ← IncomingInitiation.parse C d.secret p with
    | .error _ => .panic
    | .ok initiation =>
      return (d.getByKey initiation.staticPublicKey).map fun _ =>
        (initiation.staticPublicKey, .handshakeInitiation endpoint initiation)
  | .ok (.handshakeResponse packet) =>
    return (d.getSessionByIndex packet.receiverIndex).map fun (session, p) =>
      (p, .handshakeResponse endpoint packet session)
  | .ok (.cookieReply packet) =>
    return (d.getSessionByIndex packet.receiverIndex).map fun (session, p) =>
      (p, .cookieReply endpoint packet session)
  | .ok (.transportData packet) =>
    match d.getSessionByIndex packet.receiverIndex with
    | some (session, p) =>
      if rejectAfterMessages < packet.counter.toNat then return none
      else return some (p, .transportData endpoint packet session)
    | none => return none

/-- `tick_inbound`: the new cookie state, the event to stage and the peer it is for, and what
was sent. -/
def tickInbound (d : Device) (env : Env) (endpoint : OutboundSender) (payload : Bytes) :
    Outcome (Cookie × Option (Key × InboundEvent) × List Event) := do
  match ← d.screen C env endpoint payload with
  | some (cookie, sent) => return (cookie, none, sent)
  | none =>
    let staged ← d.dispatch C endpoint payload
    return (d.cookie, staged, [])

/-- The destination address of an IP packet, in `tick_outbound`: `none` for packets that are too
short or of another version; an empty packet panics. -/
def destination (buf : Bytes) : Outcome (Option IpAddr) :=
  match buf with
  | [] => .panic
  | b :: _ =>
    if b &&& 0xF0 = 0x40 then
      if buf.length < 20 then .ret none
      else do
        let addr ← buf.block 16 4
        return some (.ofOctets4 addr)
    else if b &&& 0xF0 = 0x60 then
      if buf.length < 40 then .ret none
      else do
        let addr ← buf.block 24 16
        return some (.ofOctets16 addr)
    else .ret none

/-- `tick_outbound`: the peer that a packet from the TUN device is staged for. -/
def tickOutbound (d : Device) (buf : Bytes) : Outcome (Option Key) := do
  match ← destination buf with
  | none => return none
  | some dst => return d.getByIp dst

/-! ## What the halves of `tick_inbound` hand back -/

section Specs

variable {C} {d : Device} {env : Env} {endpoint : OutboundSender} {payload : Bytes}

/-- A session is found under an index if it is registered there and its peer is known. -/
lemma getSessionByIndex_eq_some {i : UInt32} {s : Session} {p : Key} :
    d.getSessionByIndex i = some (s, p) ↔
      d.store.index.indexes i = some s ∧ s.secret.publicKey = p ∧ (d.peers p).isSome := by
  unfold getSessionByIndex SessionIndex.getByIndex getByKey
  cases d.store.index.indexes i with
  | none => simp
  | some s' =>
    simp only [Option.map_eq_some_iff, Prod.mk.injEq, Option.some.injEq, Option.isSome_iff_exists]
    constructor
    · rintro ⟨n, hn, rfl, rfl⟩
      exact ⟨rfl, rfl, n, hn⟩
    · rintro ⟨rfl, rfl, n, hn⟩
      exact ⟨n, hn, rfl, rfl⟩

/-- Since the rate limit is never reached, only the code of a handshake packet decides whether it
is handled. -/
lemma screen_eq : d.screen C env endpoint payload = (do
    if ← Message.isHandshake payload then
      if ← d.cookie.validateMac1 C payload then return none else return some (d.cookie, [])
    else return none) := by
  unfold screen fetchToken
  cases Message.isHandshake payload with
  | panic => rfl
  | ret b =>
    cases b with
    | false => rfl
    | true =>
      cases d.cookie.validateMac1 C payload with
      | panic => rfl
      | ret b => cases b <;> rfl

/-- A datagram that is not empty is turned away exactly if it is a handshake packet without a valid
code. -/
lemma screen_cases (C : Crypto) (d : Device) (env : Env) (endpoint : OutboundSender)
    (hne : payload ≠ []) :
    Message.isHandshake payload = .ret false ∧ d.screen C env endpoint payload = .ret none ∨
    Message.isHandshake payload = .ret true ∧ d.cookie.validateMac1 C payload = .ret true ∧
      d.screen C env endpoint payload = .ret none ∨
    Message.isHandshake payload = .ret true ∧ d.cookie.validateMac1 C payload = .ret false ∧
      d.screen C env endpoint payload = .ret (some (d.cookie, [])) := by
  rw [screen_eq]
  cases hb : Message.isHandshake payload with
  | panic =>
    cases payload with
    | nil => exact absurd rfl hne
    | cons ty rest => cases hb
  | ret b =>
    cases b with
    | false => exact .inl ⟨rfl, rfl⟩
    | true =>
      obtain ⟨valid, hv⟩ := d.cookie.validateMac1_returns C (Message.length_of_isHandshake hb)
      cases valid with
      | false => exact .inr (.inr ⟨rfl, hv, by simp [hv]⟩)
      | true => exact .inr (.inl ⟨rfl, hv, by simp [hv]⟩)

/-- A packet that is turned away leaves no trace. -/
lemma screen_eq_some {r : Cookie × List Event}
    (h : d.screen C env endpoint payload = .ret (some r)) : r = (d.cookie, []) := by
  rw [screen_eq] at h
  obtain ⟨b, -, h⟩ := Outcome.bind_eq_ret.mp h
  cases b with
  | false => cases h
  | true =>
    obtain ⟨b, -, h⟩ := Outcome.bind_eq_ret.mp h
    cases b <;> cases h
    rfl

/-- The events that a datagram can be staged as. -/
lemma dispatch_eq_some {p : Key} {e : InboundEvent}
    (h : d.dispatch C endpoint payload = .ret (some (p, e))) :
    (∃ packet inc, Message.parse payload = .ret (.ok (.handshakeInitiation packet)) ∧
      IncomingInitiation.parse C d.secret packet = .ret (.ok inc) ∧ inc.staticPublicKey = p ∧
      e = .handshakeInitiation endpoint inc) ∨
    (∃ packet s, Message.parse payload = .ret (.ok (.handshakeResponse packet)) ∧
      e = .handshakeResponse endpoint packet s) ∨
    (∃ packet s, e = .cookieReply endpoint packet s) ∨
    (∃ packet s, Message.parse payload = .ret (.ok (.transportData packet)) ∧
      d.getSessionByIndex packet.receiverIndex = some (s, p) ∧
      packet.counter.toNat ≤ rejectAfterMessages ∧ e = .transportData endpoint packet s) := by
  unfold dispatch at h
  obtain ⟨r, hr, h⟩ := Outcome.bind_eq_ret.mp h
  rcases r with err | msg
  · cases h
  cases msg with
  | handshakeInitiation packet =>
    obtain ⟨r, hi, h⟩ := Outcome.bind_eq_ret.mp h
    rcases r with err | inc
    · cases h
    · obtain ⟨n, -, hn⟩ := Option.map_eq_some_iff.mp (Outcome.ret.inj h)
      cases hn
      exact .inl ⟨packet, inc, hr, hi, rfl, rfl⟩
  | handshakeResponse packet =>
    obtain ⟨⟨s, q⟩, -, hn⟩ := Option.map_eq_some_iff.mp (Outcome.ret.inj h)
    cases hn
    exact .inr (.inl ⟨packet, s, hr, rfl⟩)
  | cookieReply packet =>
    obtain ⟨⟨s, q⟩, -, hn⟩ := Option.map_eq_some_iff.mp (Outcome.ret.inj h)
    cases hn
    exact .inr (.inr (.inl ⟨packet, s, rfl⟩))
  | transportData packet =>
    simp only at h
    split at h
    · next s q hs =>
      split_ifs at h with hc
      · cases h
      · cases h
        exact .inr (.inr (.inr ⟨packet, s, hr, hs, Nat.le_of_not_lt hc, rfl⟩))
    · cases h

/-- A datagram that is not staged leaves no trace. -/
lemma tickInbound_eq_none {cookie : Cookie} {sent : List Event}
    (h : d.tickInbound C env endpoint payload = .ret (cookie, none, sent)) :
    cookie = d.cookie ∧ sent = [] := by
  unfold tickInbound at h
  obtain ⟨r, hr, h⟩ := Outcome.bind_eq_ret.mp h
  cases r with
  | some r =>
    obtain rfl := screen_eq_some hr
    cases h
    exact ⟨rfl, rfl⟩
  | none =>
    obtain ⟨staged, -, h⟩ := Outcome.bind_eq_ret.mp h
    cases h
    exact ⟨rfl, rfl⟩

/-- What is staged was dispatched. -/
lemma tickInbound_eq_some {cookie : Cookie} {x : Key × InboundEvent} {sent : List Event}
    (h : d.tickInbound C env endpoint payload = .ret (cookie, some x, sent)) :
    d.dispatch C endpoint payload = .ret (some x) ∧ cookie = d.cookie ∧ sent = [] := by
  unfold tickInbound at h
  obtain ⟨r, -, h⟩ := Outcome.bind_eq_ret.mp h
  cases r with
  | some r => cases h
  | none =>
    obtain ⟨staged, hs, h⟩ := Outcome.bind_eq_ret.mp h
    cases h
    exact ⟨hs, rfl, rfl⟩

end Specs

end Device

end Vlink
