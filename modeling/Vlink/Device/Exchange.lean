import Vlink.Device.Agreement
import Vlink.Device.Gate
import Vlink.Device.Handling
import Vlink.Device.Quiet
import Vlink.Device.Rounds
import Vlink.Device.Survival

set_option autoImplicit false

/-!
# The parts of an exchange

What a device does in its part of a handshake, and when data is passed on: each part is a run of
one task of one peer, with the state that it ends in written out.

## Main definitions

* `Vlink.Handshake.placeholder`, `Vlink.Handshake.asResponder`, `Vlink.Handshake.asInitiator` — the
  sessions that `initiate`, `respond` and `finalize` build.

## Main results

* `Vlink.PeerNode.run_initiate`, `run_respond`, `run_finalize` — the parts of a handshake.
* `Vlink.PeerNode.run_seal`, `run_open`, `run_confirm` — data is sealed and sent, opened and passed
  on; the first packet of a session makes it current.
* `Vlink.Handshake.mirrors` — the sessions of the two sides mirror each other.
-/

namespace Vlink

/-! ## The sessions of a handshake -/

namespace Handshake

variable (C : Crypto)

/-- The session that `initiate` builds, whose keys are all zero. -/
def placeholder (hs : Handshake) (st : Store) : Session :=
  ⟨hs.secret, st.index.index, Block.zero 32, 0, Block.zero 32, st.heap.size⟩

/-- The session that `respond` derives. -/
def asResponder (hs : Handshake) (st : Store) (inc : IncomingInitiation) (out : OutgoingResponse) :
    Session :=
  ⟨hs.secret, st.index.index, (kdf2 C out.chainingKey.val []).2, inc.index,
    (kdf2 C out.chainingKey.val []).1, st.heap.size⟩

/-- The session that `finalize` derives. -/
def asInitiator (hs : Handshake) (st : Store) (out : OutgoingInitiation) (inc : IncomingResponse) :
    Session :=
  ⟨hs.secret, out.index, (kdf2 C inc.chainingKey.val []).1, inc.index,
    (kdf2 C inc.chainingKey.val []).2, st.heap.size⟩

variable {C}

/-- The two sides of a handshake derive mirrored sessions if they arrive at the same chaining
key. -/
theorem mirrors {hsA hsB : Handshake} {stA stB : Store} {out : OutgoingInitiation}
    {inc : IncomingInitiation} {resp : OutgoingResponse} {ret : IncomingResponse}
    (hindex : out.index = inc.index) (hret : ret.index = stB.index.index)
    (hchain : ret.chainingKey = resp.chainingKey) :
    (hsA.asInitiator C stA out ret).Mirrors (hsB.asResponder C stB inc resp) := by
  refine ⟨?_, ?_, hindex, hret⟩ <;> simp [asInitiator, asResponder, hchain]

end Handshake

/-- A sealed packet is for the session of the peer, and carries the send counter. -/
lemma Session.encryptData_ok {C : Crypto} {s : Session} {heap : Heap} {data : Bytes}
    {packet : TransportData} (h : (s.encryptData C heap data).1 = .ok packet) :
    packet.receiverIndex = s.receiverIndex ∧
      packet.counter = (heap.cell s.shared).senderNonce := by
  unfold encryptData at h
  cases hc : aeadEncrypt C s.senderKey (s.nextNonce heap).1 data [] with
  | error e => simp [hc] at h
  | ok c =>
    simp only [hc, Except.ok.injEq] at h
    exact h ▸ ⟨rfl, rfl⟩

/-! ## The parts -/

namespace PeerNode

variable {C : Crypto} (n : PeerNode) (st : Store) (env : Env)

/-- The peer after the handshake loop has sent an initiation. -/
def afterInitiate (monitor : PeerMonitor) (out : OutgoingInitiation) : PeerNode :=
  { n with
    peer := { n.peer with
      monitor
      handshake := { n.peer.handshake with state := .initiation out }
      sessions := { n.peer.sessions with uninit := some (n.peer.handshake.placeholder st) } }
    handshakeTask := .sent }

variable {n st env}

/-- **Initiating.** At the head of its loop, when the time has come, the handshake task sends an
initiation and leaves its session half-initialised. -/
theorem run_initiate (hC : C.Lawful) (hwaiting : n.handshakeTask = .waiting)
    (honline : n.peer.online = true) (hcan : (n.peer.monitor.canHandshake env.now).1 = true)
    {endpoint : OutboundSender} (hep : n.peer.endpoint = some endpoint)
    (hsend : env.sendOk = true) :
    ∃ out packet monitor index,
      OutgoingInitiation.new C st.index.index n.peer.handshake.secret n.peer.handshake.macs
        env.ephemeral env.wall env.now = .ret (out, packet) ∧
      index.indexes = Function.update (ActiveSession.forget st.index.indexes
        n.peer.sessions.uninit) st.index.index (some (n.peer.handshake.placeholder st)) ∧
      Run (alone (handshakeStep C)) (fun _ a => a = env) (st, n)
        [.initiated n.peer.pubKey env.ephemeral (n.peer.handshake.placeholder st),
          .sent endpoint packet]
        (⟨index, st.heap.alloc⟩, n.afterInitiate st monitor out) := by
  obtain ⟨r, hinit⟩ := Handshake.initiate_returns hC n.peer.handshake st env
  obtain ⟨out, packet, hout, rfl⟩ := Handshake.initiate_eq_ret.mp hinit
  obtain ⟨index, hprep, -, hindexes⟩ := ActiveSession.prepareUninit_spec st.index.nextIndex.2
    n.peer.sessions (n.peer.handshake.placeholder st)
  obtain ⟨monitor, hcan⟩ : ∃ monitor, n.peer.monitor.canHandshake env.now = (true, monitor) :=
    ⟨_, Prod.ext hcan rfl⟩
  let n₁ := n.withHandshake { n.peer with monitor } .initiating
  let n₂ := n.withHandshake { n.peer with
    monitor
    handshake := { n.peer.handshake with state := .initiation out } }
    (.preparing (n.peer.handshake.placeholder st) packet)
  let n₃ := n.withHandshake (n.afterInitiate st monitor out).peer (.sending packet)
  have h₁ : n.handshakeStep C st env = some (.ret (st, n₁, [])) := by
    rw [handshakeStep, hwaiting]
    dsimp only
    rw [if_pos honline, hcan]
    rfl
  have h₂ : n₁.handshakeStep C st env = some (.ret (⟨st.index.nextIndex.2, st.heap.alloc⟩, n₂,
      [.initiated n.peer.pubKey env.ephemeral (n.peer.handshake.placeholder st)])) := by
    show some (n.peer.handshake.initiate C st env >>= _) = _
    rw [hinit]
    rfl
  have h₃ : n₂.handshakeStep C ⟨st.index.nextIndex.2, st.heap.alloc⟩ env =
      some (.ret (⟨index, st.heap.alloc⟩, n₃, [])) := by
    show some (n.peer.sessions.prepareUninit st.index.nextIndex.2 _ >>= _) = _
    rw [hprep]
    rfl
  have h₄ : n₃.handshakeStep C ⟨index, st.heap.alloc⟩ env = some (.ret (⟨index, st.heap.alloc⟩,
      n.afterInitiate st monitor out, [.sent endpoint packet])) := by
    have hep' : n₃.peer.endpoint = some endpoint := hep
    show some (Outcome.ret (_, _, n₃.sendOutbound env packet)) = _
    rw [sendOutbound, hep', hsend]
    rfl
  exact ⟨out, packet, monitor, index, hout, hindexes,
    run_alone_same (run_alone_same (run_alone_same (run_alone_same .nil h₁) h₂) h₃) h₄⟩

variable (n st)

/-- The peer after the inbound task has answered an initiation with the session `s`. -/
def afterRespond (endpoint : OutboundSender) (monitor : PeerMonitor) (s : Session) : PeerNode :=
  { n with
    peer := { n.peer with
      monitor
      sessions := { n.peer.sessions with
        previous := n.peer.sessions.next.or n.peer.sessions.previous
        next := some s }
      endpoint := some endpoint }
    inbox := [] }

/-- The peer after the inbound task has accepted a response with the session `s`. -/
def afterFinalize (endpoint : OutboundSender) (monitor : PeerMonitor) (s : Session) : PeerNode :=
  { n with
    peer := { n.peer with
      monitor
      sessions := { n.peer.sessions with
        uninit := none, previous := n.peer.sessions.current, current := some s }
      endpoint := some endpoint }
    inbox := []
    outbox := n.outbox ++ [[]] }

variable {n st}

/-- **Responding.** The inbound task answers an initiation, and leaves its session waiting for the
first packet. -/
theorem run_respond (hC : C.Lawful) {endpoint : OutboundSender} {inc : IncomingInitiation}
    (hidle : n.inboundTask = .idle) (hbox : n.inbox = [.handshakeInitiation endpoint inc])
    (hsend : env.sendOk = true) :
    ∃ out packet monitor index,
      OutgoingResponse.new C inc st.index.index n.peer.handshake.secret n.peer.handshake.macs
        env.ephemeral env.now = .ret (out, packet) ∧
      index.indexes = Function.update
        (if n.peer.sessions.next.isSome then
          ActiveSession.forget st.index.indexes n.peer.sessions.previous else st.index.indexes)
        st.index.index (some (n.peer.handshake.asResponder C st inc out)) ∧
      Run (alone (inboundStep C)) (fun _ a => a = env) (st, n)
        [.responded n.peer.pubKey inc env.ephemeral (n.peer.handshake.asResponder C st inc out),
          .sent endpoint packet]
        (⟨index, st.heap.alloc⟩,
          n.afterRespond endpoint monitor (n.peer.handshake.asResponder C st inc out)) := by
  obtain ⟨r, hresp⟩ : (n.peer.respond C st env inc).Returns := Peer.respond_returns hC inc
  obtain ⟨out, packet, hout, s, hs, rfl⟩ := Peer.respond_eq_ret.mp hresp
  obtain rfl : s = n.peer.handshake.asResponder C st inc out := hs
  obtain ⟨index, hprep, -, hindexes⟩ := ActiveSession.prepareNext_spec st.index.nextIndex.2
    n.peer.sessions (n.peer.handshake.asResponder C st inc out)
  refine ⟨out, packet, ((n.peer.countInbound handshakeInitiationPacketSize).initiated
    env.now).monitor, index, hout, hindexes, run_tickInbound hidle hbox ?_⟩
  have hslots : (n.peer.countInbound handshakeInitiationPacketSize).sessions = n.peer.sessions :=
    rfl
  simp only [tickInbound, Peer.handleHandshakeInitiation, hresp, Outcome.ret_bind, Peer.prepareNext,
    hslots, hprep, Peer.sendUnwrap, hsend, if_true]
  rfl

/-- **Finalizing.** The inbound task accepts the response to the last initiation: its session
becomes current, and an empty packet is staged. -/
theorem run_finalize {endpoint : OutboundSender} {packet : HandshakeResponse} {session u : Session}
    {out : OutgoingInitiation} {inc : IncomingResponse}
    (hidle : n.inboundTask = .idle) (hbox : n.inbox = [.handshakeResponse endpoint packet session])
    (hstate : n.peer.handshake.state = .initiation out)
    (hparse : IncomingResponse.parse C out n.peer.handshake.secret packet = .ok inc)
    (hu : n.peer.sessions.uninit = some u) (hi : u.senderIndex = out.index) :
    ∃ monitor index,
      index.indexes = ActiveSession.forget (Function.update
        (ActiveSession.forget st.index.indexes (some u)) out.index
        (some (n.peer.handshake.asInitiator C st out inc))) n.peer.sessions.previous ∧
      Run (alone (inboundStep C)) (fun _ a => a = env) (st, n)
        [.finalized n.peer.pubKey out.ephemeralPrivateKey
            (n.peer.handshake.asInitiator C st out inc),
          .installed n.peer.pubKey (n.peer.handshake.asInitiator C st out inc),
          .published (.handshakeComplete n.peer.pubKey endpoint.protocol)]
        (⟨index, st.heap.alloc⟩,
          n.afterFinalize endpoint monitor (n.peer.handshake.asInitiator C st out inc)) := by
  have hfin : n.peer.finalize C st packet = ({ st with heap := st.heap.alloc },
      n.peer.countInbound handshakeResponsePacketSize,
      some (n.peer.handshake.asInitiator C st out inc),
      [.finalized n.peer.pubKey out.ephemeralPrivateKey
        (n.peer.handshake.asInitiator C st out inc)]) := by
    have hok : n.peer.handshake.finalize C st packet = .ok ({ st with heap := st.heap.alloc },
        n.peer.handshake.asInitiator C st out inc) :=
      Handshake.finalize_eq_ok.mpr ⟨out, inc, hstate, hparse, rfl⟩
    simp only [Peer.finalize, Peer.countInbound, hstate, hok]
  obtain ⟨index, hcomp, -, hindexes⟩ := ActiveSession.completeUninit_spec st.index n.peer.sessions
    (n.peer.handshake.asInitiator C st out inc) hu hi
  refine ⟨((n.peer.countInbound handshakeResponsePacketSize).completed env.now env.wall).monitor,
    index, hindexes, run_tickInbound hidle hbox ?_⟩
  have hslots : (n.peer.countInbound handshakeResponsePacketSize).sessions = n.peer.sessions := rfl
  simp only [tickInbound, Peer.handleHandshakeResponse, hfin, Outcome.ret_bind, Peer.completeUninit,
    hslots, hcomp]
  rfl

/-- **Sealing.** The outbound task seals the first data in its channel with the current session and
sends the packet. -/
theorem run_seal {endpoint : OutboundSender} {s : Session} {data : Bytes} {outbox : List Bytes}
    {packet : TransportData} (hidle : n.outboundTask = .idle) (hbox : n.outbox = data :: outbox)
    (hcur : n.peer.sessions.current = some s)
    (hseal : (s.encryptData C st.heap data).1 = .ok packet)
    (hep : n.peer.endpoint = some endpoint) (hsend : env.sendOk = true) :
    ∃ monitor, Run (alone (outboundStep C)) (fun _ a => a = env) (st, n)
      [.encrypted n.peer.pubKey s (s.nextNonce st.heap).1, .sent endpoint packet.toBytes]
      ({ st with heap := (s.nextNonce st.heap).2 },
        { n with peer := { n.peer with monitor }, outbox }) := by
  let n₁ : PeerNode := { n with outbox, outboundTask := .sending packet.toBytes }
  let n₂ : PeerNode := { n with outbox, outboundTask := .sent packet.toBytes.length }
  have h₁ : n.outboundStep C st env = some (.ret ({ st with heap := (s.nextNonce st.heap).2 }, n₁,
      [.encrypted n.peer.pubKey s (s.nextNonce st.heap).1])) := by
    have heq : s.encryptData C st.heap data = (.ok packet, (s.nextNonce st.heap).2) :=
      Prod.ext hseal (s.encryptData_heap C st.heap data)
    rw [outboundStep, hidle]
    simp only [hbox, hcur, heq]
    rfl
  have h₂ : n₁.outboundStep C { st with heap := (s.nextNonce st.heap).2 } env =
      some (.ret ({ st with heap := (s.nextNonce st.heap).2 }, n₂,
        [.sent endpoint packet.toBytes])) := by
    have hep' : n₁.peer.endpoint = some endpoint := hep
    show some (Outcome.ret (_, _, n₁.sendOutbound env packet.toBytes)) = _
    rw [sendOutbound, hep', hsend]
    rfl
  refine ⟨(n.peer.countOutbound packet.toBytes.length env.now).monitor, ?_⟩
  have run := run_alone_same (run_alone_same (run_alone_same .nil h₁) h₂) rfl
  have hn : ({ n₂ with
      peer := n₂.peer.countOutbound packet.toBytes.length env.now
      outboundTask := .idle } : PeerNode) = { n with
        peer := { n.peer with
          monitor := (n.peer.countOutbound packet.toBytes.length env.now).monitor }
        outbox } := by
    rw [← hidle]
    rfl
  rw [hn] at run
  exact run

/-- **Opening.** The inbound task opens a data packet of a session that is not waiting for its first
packet, and passes the data on. -/
theorem run_open {endpoint : OutboundSender} {packet : TransportData} {s : Session} {data : Bytes}
    {heap : Heap} (hidle : n.inboundTask = .idle)
    (hbox : n.inbox = [.transportData endpoint packet s])
    (hnext : ∀ x, n.peer.sessions.next = some x → x.senderIndex ≠ s.senderIndex)
    (hfresh : s.canAccept st.heap packet.counter = .ret true)
    (hopen : s.decryptData C packet = .ok data) (hdata : data ≠ [])
    (haccept : s.aceept st.heap packet.counter = .ret heap) :
    ∃ monitor, Run (alone (inboundStep C)) (fun _ a => a = env) (st, n)
      [.passed n.peer.pubKey s packet.counter endpoint, .opened n.peer.pubKey s packet.counter data,
        .tunSend n.peer.pubKey s data]
      ({ st with heap },
        { n with
          peer := { n.peer with monitor, endpoint := some endpoint }
          inbox := [] }) := by
  refine ⟨(n.peer.countInbound packet.packetLen).monitor, run_tickInbound hidle hbox ?_⟩
  have hprom : n.peer.promote st env packet s =
      .ret (st, n.peer.countInbound packet.packetLen, []) := by
    rcases n.peer.promote_cases st env packet s with ⟨-, h⟩ | ⟨x, _, hx, hi, -⟩
    · exact h
    · exact absurd hi (hnext x hx)
  obtain ⟨b, data, rfl⟩ := List.exists_cons_of_ne_nil hdata
  simp only [tickInbound, Peer.handleTransportData, hprom, Outcome.ret_bind, Peer.receive, hfresh,
    hopen, haccept]
  rfl

/-- **Confirming.** An empty data packet of the session that is waiting for its first packet makes
it current. -/
theorem run_confirm {endpoint : OutboundSender} {packet : TransportData} {s : Session}
    (hidle : n.inboundTask = .idle) (hbox : n.inbox = [.transportData endpoint packet s])
    (hnext : n.peer.sessions.next = some s)
    (hfresh : s.canAccept st.heap packet.counter = .ret true)
    (hopen : s.decryptData C packet = .ok []) :
    ∃ monitor index,
      index.indexes = Function.update (ActiveSession.forget
        (ActiveSession.forget st.index.indexes (some s)) n.peer.sessions.previous)
        s.senderIndex (some s) ∧
      Run (alone (inboundStep C)) (fun _ a => a = env) (st, n)
        [.installed n.peer.pubKey s, .passed n.peer.pubKey s packet.counter endpoint,
          .opened n.peer.pubKey s packet.counter []]
        ({ st with index },
          { n with
            peer := { n.peer with
              monitor
              sessions := { n.peer.sessions with
                next := none, previous := n.peer.sessions.current, current := some s }
              endpoint := some endpoint }
            inbox := [] }) := by
  rcases n.peer.promote_cases st env packet s with ⟨hne, -⟩ | ⟨x, t, hx, -, -, hindexes, hprom⟩
  · exact absurd rfl (hne s hnext)
  · obtain rfl : s = x := Option.some.inj (hnext.symm.trans hx)
    refine ⟨((n.peer.countInbound packet.packetLen).completed env.now env.wall).monitor, t,
      hindexes, run_tickInbound hidle hbox ?_⟩
    simp only [tickInbound, Peer.handleTransportData, hprom, Outcome.ret_bind, Peer.receive, hfresh,
      hopen]
    rfl

end PeerNode

/-! ## Receiving -/

namespace Device

variable {C : Crypto} {d : Device} {env : Env} {endpoint : OutboundSender} {p : Key} {n : PeerNode}

/-- An initiation with a valid code that can be read is staged for the peer it names. -/
lemma tickInbound_initiation {packet : HandshakeInitiation} {inc : IncomingInitiation}
    (hmac : d.cookie.validateMac1 C packet.encode = .ret true)
    (hinc : IncomingInitiation.parse C d.secret packet = .ret (.ok inc))
    (hn : d.peers inc.staticPublicKey = some n) :
    d.tickInbound C env endpoint packet.encode =
      .ret (d.cookie, some (inc.staticPublicKey, .handshakeInitiation endpoint inc), []) := by
  have hparse := Message.parse_encode_initiation packet
  have hscreen : d.screen C env endpoint packet.encode = .ret none := by
    rw [screen_eq, Message.isHandshake_of_parse hparse (.inl rfl)]
    simp [hmac]
  simp [tickInbound, hscreen, dispatch, hparse, hinc, getByKey, hn]

/-- A response with a valid code is staged for the peer whose session it is for. -/
lemma tickInbound_response {packet : HandshakeResponse} {s : Session}
    (hmac : d.cookie.validateMac1 C packet.encode = .ret true)
    (hs : d.getSessionByIndex packet.receiverIndex = some (s, p)) :
    d.tickInbound C env endpoint packet.encode =
      .ret (d.cookie, some (p, .handshakeResponse endpoint packet s), []) := by
  have hparse := Message.parse_encode_response packet
  have hscreen : d.screen C env endpoint packet.encode = .ret none := by
    rw [screen_eq, Message.isHandshake_of_parse hparse (.inr rfl)]
    simp [hmac]
  simp [tickInbound, hscreen, dispatch, hparse, hs]

/-- A data packet is staged for the peer whose session it is for. -/
lemma tickInbound_data {packet : TransportData} {s : Session}
    (hs : d.getSessionByIndex packet.receiverIndex = some (s, p))
    (hc : packet.counter.toNat ≤ rejectAfterMessages) :
    d.tickInbound C env endpoint packet.toBytes =
      .ret (d.cookie, some (p, .transportData endpoint packet s), []) := by
  have hscreen : d.screen C env endpoint packet.toBytes = .ret none := by
    have hdata : Message.isHandshake packet.toBytes = .ret false := rfl
    rw [screen_eq, hdata]
    rfl
  simp [tickInbound, hscreen, dispatch, Message.parse_toBytes, hs, Nat.not_lt.mpr hc]

/-- A datagram that is staged waits for the inbound task of the peer. -/
lemma step_receive {payload : Bytes} {e : InboundEvent} (hup : d.inboundUp = true)
    (ht : d.tickInbound C env endpoint payload = .ret (d.cookie, some (p, e), []))
    (hn : d.peers p = some n) (hbox : n.inbox = []) :
    ∃ staged, d.step C (.receive endpoint payload env) =
        some (d.become p d.store { n with inbox := [e] }, staged) ∧
      ∀ e' ∈ staged, ∃ q packet s, e' = .staged q packet s := by
  obtain ⟨staged, hstaged, hevs⟩ := stageInbound_of_some hn e
  refine ⟨staged, ?_, hevs⟩
  rw [step, if_pos hup, ht]
  show some (d.stageInbound p e) = _
  rw [hstaged, hbox]
  rfl

end Device

end Vlink
