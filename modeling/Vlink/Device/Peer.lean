import Vlink.Device.Handshake
import Vlink.Device.Monitor
import Vlink.Lib.Net

set_option autoImplicit false

/-!
# A peer and its inbound handlers

`device/peer/mod.rs` and `device/peer/inbound.rs`: the data of a peer, and what it does with the
events that the device hands to it. A handler takes several locks one after the other; it is cut
here into its critical sections, one function each, so that the sections of different tasks can
interleave. The handlers themselves are the sections in sequence.

## Main definitions

* `Vlink.Peer` — the data that the tasks of a peer share.
* `Vlink.InboundEvent` — what the device stages for a peer.
* `Vlink.Event` — what an observer of the program sees of a step.
* `Vlink.Peer.handleHandshakeInitiation`, `handleHandshakeResponse`, `handleCookieReply`,
  `handleTransportData` — the handlers.
-/

namespace Vlink

/-- `Box<dyn OutboundSender>`: a way to reach a peer. `socket` tells apart the sockets and
connections that packets can be sent through. -/
structure OutboundSender where
  socket : ℕ
  dst : SocketAddr
  protocol : String
deriving DecidableEq

/-- `InboundEvent`. -/
inductive InboundEvent where
  | handshakeInitiation (endpoint : OutboundSender) (initiation : IncomingInitiation)
  | handshakeResponse (endpoint : OutboundSender) (packet : HandshakeResponse) (session : Session)
  | cookieReply (endpoint : OutboundSender) (packet : CookieReply) (session : Session)
  | transportData (endpoint : OutboundSender) (packet : TransportData) (session : Session)

/-- The part of `DeviceEvent` that the device publishes itself. -/
inductive DeviceEvent where
  | handshakeComplete (pubKey : Key) (proto : String)
  | noEndpoint (pubKey : Key) (ipAddr : String)
  | sessionFailed (pubKey : Key)
deriving DecidableEq

/-- What can be observed of a step of the peer with the public key `p`, in the order in which
it happens. -/
inductive Event where
  /-- `initiate` drew an ephemeral key and built the half-initialised session `s`. -/
  | initiated (p ephemeral : Key) (s : Session)
  /-- `respond` accepted an initiation, drew an ephemeral key and derived the session `s`. -/
  | responded (p : Key) (initiation : IncomingInitiation) (ephemeral : Key) (s : Session)
  /-- `finalize` accepted a response to the initiation with that ephemeral key and derived the
  session `s`. -/
  | finalized (p ephemeral : Key) (s : Session)
  /-- A data packet was staged with the session that its index is registered for. -/
  | staged (p : Key) (packet : TransportData) (s : Session)
  /-- The session became the current one. -/
  | installed (p : Key) (s : Session)
  /-- The counter of a data packet passed the replay check, and the endpoint of the peer was set
  to where the packet came from. -/
  | passed (p : Key) (s : Session) (counter : UInt64) (endpoint : OutboundSender)
  /-- A data packet was authenticated and decrypted. -/
  | opened (p : Key) (s : Session) (counter : UInt64) (data : Bytes)
  /-- Data was passed to `tun.send`. -/
  | tunSend (p : Key) (s : Session) (data : Bytes)
  /-- `encrypt_data` used a nonce of the session. -/
  | encrypted (p : Key) (s : Session) (nonce : UInt64)
  /-- A packet was sent. -/
  | sent (endpoint : OutboundSender) (packet : Bytes)
  /-- Data from the TUN device was handed to the peer. -/
  | routed (p : Key) (data : Bytes)
  /-- A device event was published. -/
  | published (e : DeviceEvent)
  /-- A task of the peer, or of the device, panicked. -/
  | panicked (p : Option Key)
deriving DecidableEq

/-- The packet that was sent, and where to. -/
def Event.sent? : Event → Option (OutboundSender × Bytes)
  | .sent endpoint packet => some (endpoint, packet)
  | _ => none

/-- Whether an event comes from a section of the inbound loop that draws no index and sends
nothing. -/
def Event.inner : Event → Bool
  | .finalized _ _ _ | .installed _ _ | .passed _ _ _ _ | .opened _ _ _ _ | .tunSend _ _ _
  | .published _ => true
  | _ => false

/-- `Peer`, without its channels. -/
structure Peer where
  pubKey : Key
  online : Bool
  monitor : PeerMonitor
  handshake : Handshake
  sessions : ActiveSession
  endpoint : Option OutboundSender
  ipAddr : String

namespace Peer

variable (C : Crypto)

/-- `Peer::new`. -/
def new (secret : PeerStaticSecret) (endpoint : Option OutboundSender)
    (persistentKeepaliveInterval : Option Duration) (isOnline : Bool) (ipAddr : String)
    (now : Instant) : Peer where
  pubKey := secret.publicKey
  online := isOnline
  monitor := .new persistentKeepaliveInterval now
  handshake := .new C secret
  sessions := .new
  endpoint := endpoint
  ipAddr := ipAddr

/-- `Peer::update_endpoint`. -/
def updateEndpoint (peer : Peer) (endpoint : OutboundSender) : Peer :=
  { peer with endpoint := some endpoint }

/-- `Peer::clear_endpoint`. -/
def clearEndpoint (peer : Peer) : Peer := { peer with endpoint := none }

/-- `Peer::set_online`. -/
def setOnline (peer : Peer) (val : Bool) : Peer := { peer with online := val }

/-- `peer.monitor.traffic().inbound(n)`. -/
def countInbound (peer : Peer) (n : ℕ) : Peer :=
  { peer with monitor := { peer.monitor with traffic := peer.monitor.traffic.inbound n } }

/-- `peer.monitor.traffic().outbound(n)`. -/
def countOutbound (peer : Peer) (n : ℕ) (now : Instant) : Peer :=
  { peer with monitor := { peer.monitor with traffic := peer.monitor.traffic.outbound n now } }

/-- `peer.monitor.handshake().initiated()`. -/
def initiated (peer : Peer) (now : Instant) : Peer :=
  { peer with monitor := { peer.monitor with handshake := peer.monitor.handshake.initiated now } }

/-- `peer.monitor.handshake().completed()`. -/
def completed (peer : Peer) (now : Instant) (wall : SystemTime) : Peer :=
  { peer with
    monitor := { peer.monitor with handshake := peer.monitor.handshake.completed now wall } }

/-! ## Critical sections of the handlers -/

/-- `handle_handshake_initiation`, under the lock of the handshake: count the packet and
respond. Hands back the new session and the response packet. -/
def respond (peer : Peer) (st : Store) (env : Env) (initiation : IncomingInitiation) :
    Outcome (Store × Peer × Option (Session × Bytes) × List Event) := do
  let peer := peer.countInbound handshakeInitiationPacketSize
  match ← peer.handshake.respond C st env initiation with
  | .ok (st, session, packet) =>
    return (st, peer, some (session, packet),
      [.responded peer.pubKey initiation env.ephemeral session])
  | .error _ => return (st, peer, none, [])

/-- `handle_handshake_initiation`, under the lock of the slots. -/
def prepareNext (peer : Peer) (st : Store) (session : Session) : Outcome (Store × Peer) := do
  let (index, sessions) ← peer.sessions.prepareNext st.index session
  return ({ st with index }, { peer with sessions })

/-- `endpoint.send(&packet).await.unwrap()`. -/
def sendUnwrap (env : Env) (endpoint : OutboundSender) (packet : Bytes) : Outcome (List Event) :=
  if env.sendOk then .ret [.sent endpoint packet] else .panic

/-- `handle_handshake_response`, under the lock of the handshake: count the packet and finalize.
Hands back the new session. -/
def finalize (peer : Peer) (st : Store) (packet : HandshakeResponse) :
    Store × Peer × Option Session × List Event :=
  let peer := peer.countInbound handshakeResponsePacketSize
  match peer.handshake.state, peer.handshake.finalize C st packet with
  | .initiation initiation, .ok (st, session) =>
    (st, peer, some session,
      [.finalized peer.pubKey initiation.ephemeralPrivateKey session])
  | _, _ => (st, peer, none, [])

/-- `handle_handshake_response`, under the lock of the slots. Hands back whether the session
was the half-initialised one. -/
def completeUninit (peer : Peer) (st : Store) (session : Session) :
    Outcome (Bool × Store × Peer × List Event) := do
  let (done, index, sessions) ← peer.sessions.completeUninit st.index session
  return (done, { st with index }, { peer with sessions },
    if done then [.installed peer.pubKey session] else [])

/-- `handle_cookie_reply`. -/
def handleCookieReply (peer : Peer) : Peer := peer.countInbound cookieReplyPacketSize

/-- `handle_transport_data`, under the lock of the slots: count the packet and promote its
session if it is the next one. -/
def promote (peer : Peer) (st : Store) (env : Env) (packet : TransportData) (session : Session) :
    Outcome (Store × Peer × List Event) := do
  let peer := peer.countInbound packet.packetLen
  let (done, index, sessions) ← peer.sessions.completeNext st.index session
  let peer := { peer with sessions }
  if done then
    return ({ st with index }, peer.completed env.now env.wall, [.installed peer.pubKey session])
  else
    return ({ st with index }, peer, [])

/-- `handle_transport_data`, the rest. Only the endpoint is shared with other tasks here: the
replay filter of a session is used by the inbound task of its peer alone. -/
def receive (peer : Peer) (st : Store) (endpoint : OutboundSender)
    (packet : TransportData) (session : Session) : Outcome (Store × Peer × List Event) := do
  if !(← session.canAccept st.heap packet.counter) then return (st, peer, [])
  let peer := peer.updateEndpoint endpoint
  let passed := Event.passed peer.pubKey session packet.counter endpoint
  match session.decryptData C packet with
  | .ok [] => return (st, peer, [passed, .opened peer.pubKey session packet.counter []])
  | .ok data =>
    -- whether the write to the TUN device succeeds makes no difference: a failure is logged
    let heap ← session.aceept st.heap packet.counter
    return ({ st with heap }, peer, [passed, .opened peer.pubKey session packet.counter data,
      .tunSend peer.pubKey session data])
  | .error _ => return (st, peer, [passed])

/-! ## The handlers -/

/-- `handle_handshake_initiation`. -/
def handleHandshakeInitiation (peer : Peer) (st : Store) (env : Env) (endpoint : OutboundSender)
    (initiation : IncomingInitiation) : Outcome (Store × Peer × List Event) := do
  match ← peer.respond C st env initiation with
  | (st, peer, some (session, packet), evs) =>
    let (st, peer) ← peer.prepareNext st session
    let peer := peer.updateEndpoint endpoint
    let sent ← sendUnwrap env endpoint packet
    return (st, peer.initiated env.now, evs ++ sent)
  | (st, peer, none, evs) => return (st, peer, evs)

/-- `handle_handshake_response`. Hands back whether an empty packet is to be staged for the
peer. -/
def handleHandshakeResponse (peer : Peer) (st : Store) (env : Env) (endpoint : OutboundSender)
    (packet : HandshakeResponse) : Outcome (Store × Peer × Bool × List Event) := do
  match peer.finalize C st packet with
  | (st, peer, some session, evs) =>
    let (done, st, peer, evs') ← peer.completeUninit st session
    if !done then return (st, peer, false, evs ++ evs')
    let peer := (peer.completed env.now env.wall).updateEndpoint endpoint
    return (st, peer, true,
      evs ++ evs' ++ [.published (.handshakeComplete peer.pubKey endpoint.protocol)])
  | (st, peer, none, evs) => return (st, peer, false, evs)

/-- `handle_transport_data`. -/
def handleTransportData (peer : Peer) (st : Store) (env : Env) (endpoint : OutboundSender)
    (packet : TransportData) (session : Session) : Outcome (Store × Peer × List Event) := do
  let (st, peer, evs) ← peer.promote st env packet session
  let (st, peer, evs') ← peer.receive C st endpoint packet session
  return (st, peer, evs ++ evs')

/-! ## What the sections hand back -/

section Specs

variable {C} {peer peer' : Peer} {st st' : Store} {env : Env} {evs : List Event}
  {session : Session} {packet : TransportData} {endpoint : OutboundSender}

/-- What the session of a response is. -/
lemma respond_eq_ret {inc : IncomingInitiation}
    {r : Store × Peer × Option (Session × Bytes) × List Event} :
    peer.respond C st env inc = .ret r ↔ ∃ out payload,
      OutgoingResponse.new C inc st.index.index peer.handshake.secret peer.handshake.macs
        env.ephemeral env.now = .ret (out, payload) ∧
      ∃ s, s = ⟨peer.handshake.secret, st.index.index, (kdf2 C out.chainingKey.val []).2, inc.index,
          (kdf2 C out.chainingKey.val []).1, st.heap.size⟩ ∧
        r = (⟨st.index.nextIndex.2, st.heap.alloc⟩, peer.countInbound handshakeInitiationPacketSize,
          some (s, payload), [.responded peer.pubKey inc env.ephemeral s]) := by
  unfold respond
  rw [Outcome.bind_eq_ret]
  constructor
  · rintro ⟨x, hx, hr⟩
    obtain ⟨out, payload, hout, rfl⟩ := Handshake.respond_eq_ret.mp hx
    cases hr
    exact ⟨out, payload, hout, _, rfl, rfl⟩
  · rintro ⟨out, payload, hout, s, rfl, rfl⟩
    exact ⟨_, Handshake.respond_eq_ret.mpr ⟨out, payload, hout, rfl⟩, rfl⟩

/-- Responding counts the packet. -/
lemma respond_peer {inc : IncomingInitiation} {reply : Option (Session × Bytes)}
    (h : peer.respond C st env inc = .ret (st', peer', reply, evs)) :
    peer' = peer.countInbound handshakeInitiationPacketSize := by
  obtain ⟨out, payload, -, s, -, heq⟩ := respond_eq_ret.mp h
  cases heq
  rfl

/-- The slots are all that `prepare_next` changes. -/
lemma prepareNext_peer (h : peer.prepareNext st session = .ret (st', peer')) :
    ∃ sessions, peer' = { peer with sessions } := by
  obtain ⟨x, -, heq⟩ := Outcome.bind_eq_ret.mp h
  cases heq
  exact ⟨_, rfl⟩

/-- The slots are all that `complete_uninit` changes. -/
lemma completeUninit_peer {done : Bool}
    (h : peer.completeUninit st session = .ret (done, st', peer', evs)) :
    ∃ sessions, peer' = { peer with sessions } := by
  obtain ⟨x, -, heq⟩ := Outcome.bind_eq_ret.mp h
  cases heq
  exact ⟨_, rfl⟩

/-- Finalizing fails, or hands back a session with the index of the initiation. -/
lemma finalize_cases (peer : Peer) (st : Store) (packet : HandshakeResponse) :
    peer.finalize C st packet = (st, peer.countInbound handshakeResponsePacketSize, none, []) ∨
    ∃ out inc, peer.handshake.state = .initiation out ∧
      IncomingResponse.parse C out peer.handshake.secret packet = .ok inc ∧
      ∃ s, s = ⟨peer.handshake.secret, out.index, (kdf2 C inc.chainingKey.val []).1, inc.index,
          (kdf2 C inc.chainingKey.val []).2, st.heap.size⟩ ∧
        peer.finalize C st packet =
          ({ st with heap := st.heap.alloc }, peer.countInbound handshakeResponsePacketSize, some s,
            [.finalized peer.pubKey out.ephemeralPrivateKey s]) := by
  have state : (peer.countInbound handshakeResponsePacketSize).handshake = peer.handshake := rfl
  unfold finalize
  cases hf : peer.handshake.finalize C st packet with
  | error e =>
    left
    simp only [state, hf]
    cases peer.handshake.state <;> rfl
  | ok r =>
    right
    obtain ⟨out, inc, hs, hp, rfl⟩ := Handshake.finalize_eq_ok.mp hf
    refine ⟨out, inc, hs, hp, _, rfl, ?_⟩
    simp only [state, hs, hf]
    rfl

/-- Finalizing counts the packet. -/
lemma finalize_peer {packet : HandshakeResponse} {found : Option Session}
    (h : peer.finalize C st packet = (st', peer', found, evs)) :
    peer' = peer.countInbound handshakeResponsePacketSize := by
  rcases finalize_cases (C := C) peer st packet with heq | ⟨_, _, _, _, s, _, heq⟩
  all_goals
    rw [heq] at h
    cases h
    rfl

/-- Finalizing draws no index and sends nothing. -/
lemma finalize_inner {packet : HandshakeResponse} {found : Option Session}
    (h : peer.finalize C st packet = (st', peer', found, evs)) : ∀ e ∈ evs, e.inner = true := by
  rcases finalize_cases (C := C) peer st packet with heq | ⟨_, _, _, _, s, _, heq⟩
  all_goals
    rw [heq] at h
    cases h
    simp [Event.inner]

/-- Completing a handshake as initiator: the session becomes current if it has the index of the
half-initialised one. -/
lemma completeUninit_cases (peer : Peer) (st : Store) (session : Session) :
    peer.completeUninit st session = .ret (false, st, peer, []) ∨
    ∃ u t, peer.sessions.uninit = some u ∧ u.senderIndex = session.senderIndex ∧
      t.index = st.index.index ∧
      t.indexes = ActiveSession.forget (Function.update
        (ActiveSession.forget st.index.indexes (some u)) session.senderIndex (some session))
        peer.sessions.previous ∧
      peer.completeUninit st session = .ret (true, { st with index := t },
        { peer with sessions := { peer.sessions with
            uninit := none, previous := peer.sessions.current, current := some session } },
        [.installed peer.pubKey session]) := by
  by_cases h : ∃ u, peer.sessions.uninit = some u ∧ u.senderIndex = session.senderIndex
  · obtain ⟨u, hu, hi⟩ := h
    obtain ⟨t, ht, hidx, htab⟩ :=
      ActiveSession.completeUninit_spec st.index peer.sessions session hu hi
    exact .inr ⟨u, t, hu, hi, hidx, htab, by simp [completeUninit, ht]⟩
  · left
    have other := ActiveSession.completeUninit_other st.index peer.sessions session
      fun u hu hi => h ⟨u, hu, hi⟩
    simp [completeUninit, other]

/-- Completing a handshake draws no index and sends nothing. -/
lemma completeUninit_inner {done : Bool}
    (h : peer.completeUninit st session = .ret (done, st', peer', evs)) :
    ∀ e ∈ evs, e.inner = true := by
  rcases completeUninit_cases peer st session with heq | ⟨_, _, _, _, _, _, heq⟩
  all_goals
    rw [heq] at h
    cases h
    simp [Event.inner]

/-- Promoting the session of a data packet: it becomes current if it has the index of the next
one. -/
lemma promote_cases (peer : Peer) (st : Store) (env : Env) (packet : TransportData)
    (session : Session) :
    ((∀ n, peer.sessions.next = some n → n.senderIndex ≠ session.senderIndex) ∧
      peer.promote st env packet session = .ret (st, peer.countInbound packet.packetLen, [])) ∨
    ∃ n t, peer.sessions.next = some n ∧ n.senderIndex = session.senderIndex ∧
      t.index = st.index.index ∧
      t.indexes = Function.update (ActiveSession.forget
        (ActiveSession.forget st.index.indexes (some n)) peer.sessions.previous)
        session.senderIndex (some session) ∧
      peer.promote st env packet session = .ret ({ st with index := t },
        Peer.completed { peer.countInbound packet.packetLen with
          sessions := { peer.sessions with
            next := none, previous := peer.sessions.current, current := some session } }
          env.now env.wall,
        [.installed peer.pubKey session]) := by
  by_cases h : ∃ n, peer.sessions.next = some n ∧ n.senderIndex = session.senderIndex
  · obtain ⟨n, hn, hi⟩ := h
    obtain ⟨t, ht, hidx, htab⟩ :=
      ActiveSession.completeNext_spec st.index peer.sessions session hn hi
    refine .inr ⟨n, t, hn, hi, hidx, htab, ?_⟩
    have slots : (peer.countInbound packet.packetLen).sessions = peer.sessions := rfl
    simp only [promote, slots, ht, Outcome.ret_bind, if_true]
    rfl
  · left
    have hne : ∀ n, peer.sessions.next = some n → n.senderIndex ≠ session.senderIndex :=
      fun n hn hi => h ⟨n, hn, hi⟩
    have other := ActiveSession.completeNext_other st.index peer.sessions session hne
    have slots : (peer.countInbound packet.packetLen).sessions = peer.sessions := rfl
    refine ⟨hne, ?_⟩
    simp only [promote, slots, other, Outcome.ret_bind]
    rfl

/-- Promoting leaves the endpoint alone. -/
lemma promote_endpoint (h : peer.promote st env packet session = .ret (st', peer', evs)) :
    peer'.endpoint = peer.endpoint := by
  rcases promote_cases peer st env packet session with ⟨-, heq⟩ | ⟨_, _, _, _, _, _, heq⟩
  all_goals
    rw [heq] at h
    cases h
    rfl

/-- Promoting draws no index and sends nothing. -/
lemma promote_inner (h : peer.promote st env packet session = .ret (st', peer', evs)) :
    ∀ e ∈ evs, e.inner = true := by
  rcases promote_cases peer st env packet session with ⟨-, heq⟩ | ⟨_, _, _, _, _, _, heq⟩
  all_goals
    rw [heq] at h
    cases h
    simp [Event.inner]

/-- What is known of the rest of `handle_transport_data` when it came back. -/
lemma receive_cases {r : Store × Peer × List Event}
    (h : peer.receive C st endpoint packet session = .ret r) :
    session.canAccept st.heap packet.counter = .ret false ∧ r = (st, peer, []) ∨
    session.canAccept st.heap packet.counter = .ret true ∧
      ((∃ e, session.decryptData C packet = .error e ∧
          r = (st, peer.updateEndpoint endpoint,
            [.passed peer.pubKey session packet.counter endpoint])) ∨
        (session.decryptData C packet = .ok [] ∧
          r = (st, peer.updateEndpoint endpoint,
            [.passed peer.pubKey session packet.counter endpoint,
              .opened peer.pubKey session packet.counter []])) ∨
        ∃ data heap, data ≠ [] ∧ session.decryptData C packet = .ok data ∧
          session.aceept st.heap packet.counter = .ret heap ∧
          r = ({ st with heap }, peer.updateEndpoint endpoint,
            [.passed peer.pubKey session packet.counter endpoint,
              .opened peer.pubKey session packet.counter data,
              .tunSend peer.pubKey session data])) := by
  unfold receive at h
  obtain ⟨b, hb, h⟩ := Outcome.bind_eq_ret.mp h
  cases b with
  | false =>
    cases h
    exact .inl ⟨hb, rfl⟩
  | true =>
    refine .inr ⟨hb, ?_⟩
    rw [if_neg (by simp)] at h
    cases hd : session.decryptData C packet with
    | error e =>
      rw [hd] at h
      cases h
      exact .inl ⟨e, rfl, rfl⟩
    | ok data =>
      rw [hd] at h
      cases data with
      | nil =>
        cases h
        exact .inr (.inl ⟨rfl, rfl⟩)
      | cons b data =>
        obtain ⟨heap, hh, h⟩ := Outcome.bind_eq_ret.mp h
        cases h
        exact .inr (.inr ⟨b :: data, heap, by simp, rfl, hh, rfl⟩)

/-- Receiving data draws no index and sends nothing. -/
lemma receive_inner
    (h : peer.receive C st endpoint packet session = .ret (st', peer', evs)) :
    ∀ e ∈ evs, e.inner = true := by
  rcases receive_cases h with ⟨-, heq⟩ | ⟨-, ⟨_, -, heq⟩ | ⟨-, heq⟩ | ⟨_, _, -, -, -, heq⟩⟩
  all_goals
    cases heq
    simp [Event.inner]

/-- The endpoint is all that the rest of `handle_transport_data` changes, once the packet has passed
the replay check. -/
lemma receive_peer
    (h : peer.receive C st endpoint packet session = .ret (st', peer', evs)) :
    session.canAccept st.heap packet.counter = .ret false ∧ peer' = peer ∨
      session.canAccept st.heap packet.counter = .ret true ∧
        peer' = peer.updateEndpoint endpoint := by
  rcases receive_cases h with ⟨hno, heq⟩ | ⟨hyes, hrest⟩
  · cases heq
    exact .inl ⟨hno, rfl⟩
  · refine .inr ⟨hyes, ?_⟩
    rcases hrest with ⟨e, -, heq⟩ | ⟨-, heq⟩ | ⟨data, heap, -, -, -, heq⟩
    all_goals
      cases heq
      rfl

end Specs

end Peer

end Vlink
