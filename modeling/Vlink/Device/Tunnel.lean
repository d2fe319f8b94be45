import Vlink.Device.Link

set_option autoImplicit false

/-!
# The tunnel between two devices

Two devices that have each other as a peer can always get to mirrored current sessions, through the
three packets of a handshake: initiation, response, and the empty packet that confirms the keys.
Nothing is assumed of what they have been through before, apart from their tasks being alive.

## Main definitions

* `Vlink.Timed.Ready`, `Vlink.Timed.Initiated`, `Vlink.Timed.Responded`, `Vlink.Timed.Holds` — an
  end of the handshake, step by step.
* `Vlink.Link.Connected` — both ends have mirrored current sessions.

## Main results

* `Vlink.Timed.Ready.exists_initiated`, `Vlink.Link.exists_responded`,
  `Vlink.Link.exists_finalized`, `Vlink.Link.exists_confirmed` — the steps of the handshake.
* `Vlink.Link.exists_connected` — the whole of it, between two ends that wait for packets.
* `Vlink.Link.Introduced.exists_connected` — from wherever the devices got to.

## Design

The handshake is between a device with the private key `a` and one with the private key `b`, and
each end of it is a structure that says what that device has by then. A lemma takes both ends one
packet further. Sessions are found by index, so the initiator must not draw an index that one of its
own sessions has; this is the bound on the indexes drawn.
-/

namespace Vlink

/-! ## The ends of a handshake -/

/-- The device with the private key `a` has the peer with the private key `b`, and nothing waits for
the tasks of that peer. -/
structure Timed.Ready (C : Crypto) (a b : Key) (s : Timed) (n : PeerNode) : Prop where
  peer : s.device.peers (C.publicKey b) = some n
  up : s.device.inboundUp = true
  secret : s.device.secret = .new C a
  cookie : s.device.cookie = .new C (.new C a)
  localSecret : n.peer.handshake.secret.localSecret = .new C a
  publicKey : n.peer.handshake.secret.publicKey = C.publicKey b
  macs : n.peer.handshake.macs = .new C n.peer.handshake.secret
  quiet : n.Quiet

/-- The device has sent an initiation that the peer can read, and waits for the response. -/
structure Timed.Initiated (C : Crypto) (a b : Key) (route : OutboundSender → Prop) (s : Timed)
    (wire : List (OutboundSender × Bytes)) (n : PeerNode) (out : OutgoingInitiation)
    (packet : HandshakeInitiation) (inc : IncomingInitiation) : Prop extends
    Timed.Ready C a b s n where
  state : n.peer.handshake.state = .initiation out
  uninit : ∃ u, n.peer.sessions.uninit = some u ∧ u.senderIndex = out.index ∧
    s.device.store.index.indexes out.index = some u ∧ u.secret.publicKey = C.publicKey b
  others : ∀ k x, k ≠ .uninit → n.peer.sessions.get k = some x → x.senderIndex ≠ out.index
  endpoint : ∃ ep, n.peer.endpoint = some ep ∧ route ep
  sent : ∃ ep, route ep ∧ (ep, packet.encode) ∈ wire
  coded : (Cookie.new C (.new C b)).validateMac1 C packet.encode = .ret true
  read : IncomingInitiation.parse C (.new C b) packet = .ret (.ok inc)
  index : inc.index = out.index
  hash : inc.hash = out.hash
  chainingKey : inc.chainingKey = out.chainingKey
  ephemeral : inc.ephemeralPublicKey = C.publicKey out.ephemeralPrivateKey
  owner : inc.staticPublicKey = C.publicKey a

/-- The device has answered the initiation `out` of the peer, whose secret is `peerSecret`: its
session `sess` waits for the first packet. -/
structure Timed.Responded (C : Crypto) (a b : Key) (route : OutboundSender → Prop) (s : Timed)
    (wire : List (OutboundSender × Bytes)) (n : PeerNode) (out : OutgoingInitiation)
    (peerSecret : PeerStaticSecret) (packet : HandshakeResponse) (ret : IncomingResponse)
    (sess : Session) : Prop extends Timed.Ready C a b s n where
  next : n.peer.sessions.next = some sess
  listed : s.device.store.index.indexes sess.senderIndex = some sess
  peerKey : sess.secret.publicKey = C.publicKey b
  cell : s.device.store.heap.cell sess.shared = .new
  endpoint : ∃ ep, n.peer.endpoint = some ep ∧ route ep
  sent : ∃ ep, route ep ∧ (ep, packet.encode) ∈ wire
  coded : (Cookie.new C (.new C b)).validateMac1 C packet.encode = .ret true
  receiver : packet.receiverIndex = out.index
  read : IncomingResponse.parse C out peerSecret packet = .ok ret
  mirrors : ∀ (hs : Handshake) (st : Store), (hs.asInitiator C st out ret).Mirrors sess

/-- The session `sess` is current at one end, registered and in use, and its peer has an
endpoint. -/
structure Timed.Holds (C : Crypto) (a b : Key) (route : OutboundSender → Prop) (s : Timed)
    (n : PeerNode) (sess : Session) : Prop extends Timed.Ready C a b s n where
  current : n.peer.sessions.current = some sess
  listed : s.device.store.index.indexes sess.senderIndex = some sess
  peerKey : sess.secret.publicKey = C.publicKey b
  endpoint : ∃ ep, n.peer.endpoint = some ep ∧ route ep
  settled : ∀ x, n.peer.sessions.next = some x → x.senderIndex ≠ sess.senderIndex

namespace Timed

variable {C : Crypto} {a b : Key} {s : Timed} {n n' : PeerNode}

/-- Two devices that are ready for each other, with the same shared key, have paired secrets. -/
lemma Ready.paired {s' : Timed} (h : s.Ready C a b n) (h' : s'.Ready C b a n')
    (hpsk : n.peer.handshake.secret.psk = n'.peer.handshake.secret.psk) :
    Paired C n.peer.handshake.secret n'.peer.handshake.secret where
  own_left := by rw [h.localSecret]; rfl
  own_right := by rw [h'.localSecret]; rfl
  peer_left := by rw [h.publicKey, h'.localSecret]; rfl
  peer_right := by rw [h'.publicKey, h.localSecret]; rfl
  psk := hpsk

/-- The peer and the shared sessions of a device that is ready have changed. -/
lemma Ready.become (h : s.Ready C a b n) (st : Store) (clock : Instant)
    (hkeys : n'.peer.keys = n.peer.keys) (hquiet : n'.Quiet) :
    Ready C a b ⟨s.device.become (C.publicKey b) st n', clock⟩ n' := by
  obtain ⟨-, hsecret, hmacs⟩ : _ ∧ _ ∧ _ := by simpa only [Peer.keys, Prod.mk.injEq] using hkeys
  exact ⟨by simp, h.up, h.secret, h.cookie, hsecret ▸ h.localSecret, hsecret ▸ h.publicKey,
    by rw [hmacs, hsecret, h.macs], hquiet⟩

/-- What a device reaches can be brought to rest. -/
lemma exists_ready (hC : C.Lawful) {start : UInt32} {tr₀ : List Event}
    (reached : s.device.Reaches C a start (fun _ _ => True) tr₀)
    (hn : s.device.peers (C.publicKey b) = some n) (hup : s.device.inboundUp = true)
    (halive : n.inboundTask ≠ .dead) :
    ∃ tr s' n', Run (tick C) (Works C (C.publicKey b)) s tr s' ∧ s'.Ready C a b n' ∧
      n.Later n' ∧ (drawnIndexes tr).length ≤ n.inbox.length := by
  let env : Env := ⟨s.clock, 0, Block.zero 32, Block.zero 24, Block.zero 32, true⟩
  obtain ⟨tr, ⟨d, clock⟩, st, n', run, hd, later, quiet, hdraws⟩ :=
    exists_quiet hC reached hn halive (show s.clock ≤ env.now from le_rfl) rfl
  obtain rfl : d = _ := hd
  obtain ⟨hsecret, hcookie⟩ := reached.local_keys
  obtain ⟨hpub, hmacs⟩ := reached.macs hn
  obtain ⟨-, hsecret', hmacs'⟩ : _ ∧ _ ∧ _ := by
    simpa only [Peer.keys, Prod.mk.injEq] using later.keys
  exact ⟨tr, _, n', run, ⟨by simp, hup, hsecret, hcookie, hsecret' ▸ reached.localSecret hn,
    hsecret' ▸ hpub, by rw [hmacs', hsecret', hmacs], quiet⟩, later, hdraws⟩

/-- The codes for the peer pass its first check. -/
lemma Ready.peerMac1Hash (h : s.Ready C a b n) :
    n.peer.handshake.macs.peerMac1Hash = (Cookie.new C (.new C b)).mac1Hash := by
  rw [h.macs]
  exact congrArg (fun key : Key => hash C labelMac1 key.val) h.publicKey

/-- **Initiating.** A device that is ready sends an initiation that the peer can read. -/
theorem Ready.exists_initiated (hC : C.Lawful) (h : s.Ready C a b n) {start : UInt32}
    {tr₀ : List Event} (reached : s.device.Reaches C a start (fun _ _ => True) tr₀)
    (hdraws : (drawnIndexes tr₀).length + 2 < 2 ^ 32) (honline : n.peer.online = true)
    (hep : n.peer.endpoint.isSome) {route : OutboundSender → Prop}
    (hroute : ∀ ep ∈ n.endpoints, route ep) (wire : List (OutboundSender × Bytes)) :
    ∃ tr s' n' out packet inc,
      Run (tick C) (Works C (C.publicKey b)) s tr s' ∧
      s'.Initiated C a b route (wire ++ tr.filterMap Event.sent?) n' out packet inc ∧
      n'.peer.handshake.secret = n.peer.handshake.secret := by
  let env (now : Instant) : Env := ⟨now, 0, Block.zero 32, Block.zero 24, Block.zero 32, true⟩
  -- the loop goes to its head, and waits there until it is time
  obtain ⟨tr₁, ⟨d₁, clock₁⟩, st₁, n₁, run₁, hd₁, later₁, quiet₁, hwaiting, hdraws₁⟩ :=
    exists_waiting hC h.peer (reached.handshakeTask_alive hC h.peer) h.quiet
      (show (env 0).sendOk = true from rfl)
  obtain rfl : d₁ = _ := hd₁
  have ready₁ := h.become st₁ clock₁ later₁.keys quiet₁
  obtain ⟨ep, hep₁⟩ := Option.isSome_iff_exists.mp (later₁.located hep)
  have route₁ : route ep := hroute ep (later₁.endpoints ep (PeerNode.mem_endpoints.mpr (.inl hep₁)))
  obtain ⟨now, hle, hcan⟩ := PeerNode.exists_canHandshake n₁.peer.monitor clock₁
  -- it sends an initiation, which the peer can read
  obtain ⟨out, payload, monitor, index, hnew, hindexes, alone⟩ :=
    PeerNode.run_initiate hC hwaiting (later₁.online.trans honline) hcan hep₁
      (show (env now).sendOk = true from rfl)
  obtain ⟨clock₂, -, run₂⟩ := run_of_alone (.handshake (C.publicKey b)) (fun _ _ => rfl)
    (fun _ h => ⟨h, trivial⟩) ⟨rfl, rfl⟩ rfl hle ready₁.peer alone
  have hp : Paired C n₁.peer.handshake.secret
      (((LocalStaticSecret.new C b).withPeer (C.publicKey a)).setPsk
        n₁.peer.handshake.secret.psk) :=
    ⟨by rw [ready₁.localSecret]; rfl, rfl, ready₁.publicKey, by rw [ready₁.localSecret]; rfl, rfl⟩
  obtain ⟨out', packet, hnew', hindex, heph, hread⟩ :=
    initiation_agreement hC hp st₁.index.index n₁.peer.handshake.macs (env now).ephemeral
      (env now).wall now
  cases hnew.symm.trans hnew'
  obtain ⟨-, body, -, hbody⟩ := OutgoingInitiation.new_append hC hnew
  have run := run₁.trans run₂
  refine ⟨_, _, n₁.afterInitiate st₁ monitor out, out, packet, _, run,
    ⟨ready₁.become _ clock₂ rfl ⟨quiet₁.1, quiet₁.2, quiet₁.3, quiet₁.4⟩, rfl, ?_,
      fun k x hk hx hi => ?_, ⟨ep, hep₁, route₁⟩, ⟨ep, route₁, by simp [Event.sent?]⟩, ?_,
      hread, hindex.symm, rfl, rfl, by rw [heph], ?_⟩, later₁.secret⟩
  · refine ⟨_, rfl, hindex.symm, ?_, ready₁.publicKey⟩
    show index.indexes out.index = _
    rw [hindexes, hindex]
    exact Function.update_self ..
  · -- the index of the initiation is new
    have reached' := Run.trans reached (run_device run)
    have lifecycle := Device.Reaches.lifecycle reached' (by
      simp only [drawnIndexes, List.filterMap_append, List.length_append] at hdraws hdraws₁ ⊢
      simp only [List.filterMap_cons, Event.drawnIndex?, List.filterMap_nil, List.length_singleton]
      omega)
    have hview : ∀ k, (Device.view (Device.become (Device.become s.device (C.publicKey b) st₁ n₁)
        (C.publicKey b) ⟨index, st₁.heap.alloc⟩ (n₁.afterInitiate st₁ monitor out))).places
        (C.publicKey b, .slot k) = (n₁.afterInitiate st₁ monitor out).peer.sessions.get k := by
      intro k
      rw [View.places, Device.view_peer_some (Function.update_self ..)]
      rfl
    have := lifecycle.registry.place_unique ((hview k).trans hx) (hview .uninit) (hi.trans hindex)
    exact hk (by simpa using this)
  · rw [hbody]
    exact Cookie.validateMac1_of_hash C _ _ now body ready₁.peerMac1Hash
  · show n₁.peer.handshake.secret.localSecret.publicKey = _
    rw [ready₁.localSecret]
    rfl

end Timed

namespace Link

variable {C : Crypto} {key : Side → Key} {route : Side → OutboundSender → Prop} {l : Link}
  {e : Side} {n n' : PeerNode} {out : OutgoingInitiation}

/-- **Responding.** The initiation of the other end is delivered and answered. -/
theorem exists_responded (hC : C.Lawful) {packet : HandshakeInitiation} {inc : IncomingInitiation}
    (init : (l.node e.other).Initiated C (key e.other) (key e) (route e.other) (l.wire e.other) n
      out packet inc)
    (ready : (l.node e).Ready C (key e) (key e.other) n')
    (hpsk : n.peer.handshake.secret.psk = n'.peer.handshake.secret.psk)
    {endpoint : OutboundSender} (hroute : route e endpoint) :
    ∃ tr s' n'' resp ret sess,
      Run (step C) (Carried C route) l (tr.map (Prod.mk e)) (l.put e s' tr) ∧
      s'.Responded C (key e) (key e.other) (route e) (l.wire e ++ tr.filterMap Event.sent?) n''
        out n.peer.handshake.secret resp ret sess := by
  let env : Env := ⟨(l.node e).clock, 0, Block.zero 32, Block.zero 24, Block.zero 32, true⟩
  obtain ⟨ep, hback, hwire⟩ := init.sent
  have hn : (l.node e).device.peers inc.staticPublicKey = some n' := by
    rw [init.owner]
    exact ready.peer
  have ht : (l.node e).device.tickInbound C env endpoint packet.encode =
      .ret ((l.node e).device.cookie, some (inc.staticPublicKey,
        .handshakeInitiation endpoint inc), []) :=
    Device.tickInbound_initiation (by rw [ready.cookie]; exact init.coded)
      (by rw [ready.secret]; exact init.read) hn
  let m : PeerNode := { n' with inbox := [.handshakeInitiation endpoint inc] }
  obtain ⟨resp, payload, monitor, index, hnew, hindexes, alone⟩ :=
    PeerNode.run_respond (n := m) hC ready.quiet.inboundTask rfl (show env.sendOk = true from rfl)
  obtain ⟨clock, staged, run, hstaged⟩ := run_deliver hroute hback hwire ready.up le_rfl rfl hn
    ready.quiet ht alone
  have hp := init.toReady.paired ready hpsk
  obtain ⟨resp', packet', hnew', hreceiver, hread⟩ := response_agreement hC hp out inc init.hash
    init.chainingKey init.ephemeral (l.node e).device.store.index.index n'.peer.handshake.macs
    env.ephemeral env.now
  cases hnew.symm.trans hnew'
  obtain ⟨-, body, -, hbody⟩ := OutgoingResponse.new_append hC hnew
  let sess := n'.peer.handshake.asResponder C (l.node e).device.store inc resp
  refine ⟨_, _, m.afterRespond endpoint monitor sess, packet', _, sess, run,
    ⟨?_, rfl, ?_, ready.publicKey, ?_, ⟨endpoint, rfl, hroute⟩, ⟨endpoint, hroute, ?_⟩, ?_,
      hreceiver.trans init.index, hread, fun hs st => ?_⟩⟩
  · rw [init.owner]
    exact ready.become _ clock rfl ⟨ready.quiet.1, rfl, ready.quiet.3, ready.quiet.4⟩
  · show index.indexes _ = _
    rw [hindexes]
    exact Function.update_self ..
  · exact Heap.cell_alloc_self _
  · simp [Event.sent?]
  · rw [hbody]
    exact Cookie.validateMac1_of_hash C _ _ _ body ready.peerMac1Hash
  · exact Handshake.mirrors init.index.symm rfl rfl

/-- **Finalizing.** The response of the other end is delivered, its session becomes current, and a
first packet, which is empty, is sealed with it and sent.

**Proof sketch.** The response is staged and finalized, `complete_uninit` installs the session, and
the outbound task takes the empty packet. -/
theorem exists_finalized (hC : C.Lawful) {packet : HandshakeInitiation} {inc : IncomingInitiation}
    {resp : HandshakeResponse} {ret : IncomingResponse} {sess : Session}
    (init : (l.node e).Initiated C (key e) (key e.other) (route e) (l.wire e) n out packet inc)
    (responded : (l.node e.other).Responded C (key e.other) (key e) (route e.other)
      (l.wire e.other) n' out n.peer.handshake.secret resp ret sess) :
    ∃ tr s' n'' sess' data ep,
      Run (step C) (Carried C route) l (tr.map (Prod.mk e)) (l.put e s' tr) ∧
      s'.Holds C (key e) (key e.other) (route e) n'' sess' ∧ sess'.Mirrors sess ∧
      s'.device.store.heap.cell sess'.shared = ⟨1, .new⟩ ∧
      route e ep ∧ (ep, TransportData.toBytes data) ∈ tr.filterMap Event.sent? ∧
      data.receiverIndex = sess.senderIndex ∧ data.counter = 0 ∧
      sess.decryptData C data = .ok [] := by
  let env : Env := ⟨(l.node e).clock, 0, Block.zero 32, Block.zero 24, Block.zero 32, true⟩
  obtain ⟨ep, hback, hwire⟩ := responded.sent
  obtain ⟨endpoint, -, hroute⟩ := init.endpoint
  obtain ⟨u, hu, hindex, hlisted, hkey⟩ := init.uninit
  have hsession : (l.node e).device.getSessionByIndex resp.receiverIndex =
      some (u, C.publicKey (key e.other)) := by
    rw [responded.receiver, Device.getSessionByIndex_eq_some]
    exact ⟨hlisted, hkey, by rw [init.peer]; rfl⟩
  have ht : (l.node e).device.tickInbound C env endpoint resp.encode =
      .ret ((l.node e).device.cookie, some (C.publicKey (key e.other),
        .handshakeResponse endpoint resp u), []) :=
    Device.tickInbound_response (by rw [init.cookie]; exact responded.coded) hsession
  -- the response is delivered and accepted
  let m : PeerNode := { n with inbox := [.handshakeResponse endpoint resp u] }
  let sess' := n.peer.handshake.asInitiator C (l.node e).device.store out ret
  obtain ⟨monitor, index, hindexes, alone⟩ :=
    PeerNode.run_finalize (n := m) init.quiet.inboundTask rfl init.state responded.read hu hindex
  obtain ⟨clock₁, staged, run₁, hstaged⟩ := run_deliver hroute hback hwire init.up
    (show (l.node e).clock ≤ env.now from le_rfl) rfl init.peer init.quiet ht alone
  have mirrors : sess'.Mirrors sess := responded.mirrors _ _
  -- the empty packet is sealed and sent
  let st : Store := ⟨index, (l.node e).device.store.heap.alloc⟩
  have cell : st.heap.cell sess'.shared = .new := Heap.cell_alloc_self _
  obtain ⟨data, heap, hseal⟩ := (mirrors.delivers hC st.heap []).1 (by decide)
  obtain ⟨hparse, hopen⟩ := (mirrors.delivers hC st.heap []).2 data heap hseal
  obtain ⟨hreceiver, hcounter⟩ := Session.encryptData_ok (congrArg Prod.fst hseal)
  let m₁ := m.afterFinalize endpoint monitor sess'
  have hbox : m₁.outbox = [[]] := by
    show n.outbox ++ [[]] = [[]]
    rw [init.quiet.outbox]
    rfl
  obtain ⟨monitor₂, alone₂⟩ := PeerNode.run_seal (n := m₁) init.quiet.outboundTask hbox rfl
    (congrArg Prod.fst hseal) rfl (show ({ env with now := clock₁ } : Env).sendOk = true from rfl)
  let s₁ : Timed := ⟨(l.node e).device.become (C.publicKey (key e.other)) st m₁, clock₁⟩
  obtain ⟨clock₂, -, run₂⟩ := Timed.run_of_alone (s := s₁) (.outbound (C.publicKey (key e.other)))
    (fun _ _ => rfl) (fun _ h => ⟨h, trivial⟩) ⟨rfl, rfl⟩ rfl le_rfl (by simp [s₁]) alone₂
  have run := run₁.trans (run_tasks route (by rw [node_put_self]; exact run₂))
  rw [put_put, ← List.map_append] at run
  let m₂ : PeerNode := { m₁ with peer := { m₁.peer with monitor := monitor₂ }, outbox := [] }
  have ready : Timed.Ready C (key e) (key e.other)
      ⟨s₁.device.become (C.publicKey (key e.other))
        { st with heap := (sess'.nextNonce st.heap).2 } m₂, clock₂⟩ m₂ := by
    have quiet : m₂.Quiet := ⟨init.quiet.1, rfl, init.quiet.3, rfl⟩
    have keys : m₂.peer.keys = n.peer.keys := rfl
    simpa [s₁] using (init.toReady.become st clock₁ keys quiet).become _ clock₂ rfl quiet
  refine ⟨_, _, m₂, sess', data, endpoint, run, ⟨ready, rfl, ?_, init.publicKey,
    ⟨endpoint, rfl, hroute⟩, fun x => init.others .next x (by simp)⟩, mirrors, ?_, hroute, ?_,
    hreceiver.trans mirrors.receiverIndex, ?_, hopen⟩
  · show index.indexes out.index = _
    rw [hindexes, ActiveSession.forget_eq_some]
    exact ⟨Function.update_self .., fun x => init.others .previous x (by simp)⟩
  · show (sess'.nextNonce st.heap).2.cell sess'.shared = _
    simp only [Session.nextNonce, Heap.cell_write_self, cell]
    rfl
  · simp [Event.sent?]
  · rw [hcounter, cell]
    rfl

/-- **Confirming.** The first packet of the session is delivered, and makes it current. -/
theorem exists_confirmed {secret : PeerStaticSecret} {resp : HandshakeResponse}
    {ret : IncomingResponse} {sess : Session}
    (responded : (l.node e).Responded C (key e) (key e.other) (route e) (l.wire e) n out secret resp
      ret sess)
    {data : TransportData} {ep : OutboundSender} (hback : route e.other ep)
    (hwire : (ep, data.toBytes) ∈ l.wire e.other)
    (hreceiver : data.receiverIndex = sess.senderIndex)
    (hcounter : data.counter = 0) (hopen : sess.decryptData C data = .ok []) :
    ∃ tr s' n', Run (step C) (Carried C route) l (tr.map (Prod.mk e)) (l.put e s' tr) ∧
      s'.Holds C (key e) (key e.other) (route e) n' sess ∧
      s'.device.store.heap.cell sess.shared = .new := by
  let env : Env := ⟨(l.node e).clock, 0, Block.zero 32, Block.zero 24, Block.zero 32, true⟩
  obtain ⟨endpoint, -, hroute⟩ := responded.endpoint
  have hsession : (l.node e).device.getSessionByIndex data.receiverIndex =
      some (sess, C.publicKey (key e.other)) := by
    rw [hreceiver, Device.getSessionByIndex_eq_some]
    exact ⟨responded.listed, responded.peerKey, by rw [responded.peer]; rfl⟩
  have ht : (l.node e).device.tickInbound C env endpoint data.toBytes =
      .ret ((l.node e).device.cookie, some (C.publicKey (key e.other),
        .transportData endpoint data sess), []) :=
    Device.tickInbound_data hsession (by rw [hcounter]; exact Nat.zero_le _)
  have hfresh : sess.canAccept (l.node e).device.store.heap data.counter = .ret true := by
    rw [Session.canAccept, responded.cell, hcounter]
    rfl
  let m : PeerNode := { n with inbox := [.transportData endpoint data sess] }
  obtain ⟨monitor, index, hindexes, alone⟩ := PeerNode.run_confirm (n := m)
    responded.quiet.inboundTask rfl responded.next hfresh hopen
  obtain ⟨clock, staged, run, -⟩ := run_deliver hroute hback hwire responded.up
    (show (l.node e).clock ≤ env.now from le_rfl) rfl responded.peer responded.quiet ht alone
  refine ⟨_, _, _, run, ⟨responded.toReady.become _ clock rfl
    ⟨responded.quiet.1, rfl, responded.quiet.3, responded.quiet.4⟩, rfl, ?_, responded.peerKey,
    ⟨endpoint, rfl, hroute⟩, by simp⟩, responded.cell⟩
  show index.indexes _ = _
  rw [hindexes]
  exact Function.update_self ..

/-- Both ends have mirrored current sessions and wait for packets, and neither has accepted a
counter that the other has not used yet. -/
structure Connected (C : Crypto) (key : Side → Key) (route : Side → OutboundSender → Prop)
    (l : Link) (n : Side → PeerNode) (s : Side → Session) : Prop where
  ends : ∀ e, (l.node e).Holds C (key e) (key e.other) (route e) (n e) (s e)
  mirrors : ∀ e, (s e).Mirrors (s e.other)
  tracks : ∀ e, ∃ acc, ((l.node e).device.store.heap.cell (s e).shared).nonceFilter.Tracks acc
  counters : ∀ e, ((l.node e).device.store.heap.cell (s e).shared).nonceFilter.next ≤
    ((l.node e.other).device.store.heap.cell (s e.other).shared).senderNonce.toNat

/-- The two ends of a link, given one by one. -/
lemma connected_of {nA nB : PeerNode} {sA sB : Session}
    (hA : (l.node e).Holds C (key e) (key e.other) (route e) nA sA)
    (hB : (l.node e.other).Holds C (key e.other) (key e) (route e.other) nB sB)
    (mirrors : sA.Mirrors sB)
    (cellA : (l.node e).device.store.heap.cell sA.shared = ⟨1, .new⟩)
    (cellB : (l.node e.other).device.store.heap.cell sB.shared = .new) :
    ∃ n s, l.Connected C key route n s ∧
      ∀ e', ((l.node e').device.store.heap.cell (s e').shared).senderNonce.toNat ≤ 1 := by
  let n (e' : Side) : PeerNode := if e' = e then nA else nB
  let s (e' : Side) : Session := if e' = e then sA else sB
  have heA : s e = sA := if_pos rfl
  have heB : s e.other = sB := if_neg e.other_ne
  refine ⟨n, s, ⟨Side.forall_of e ?_ ?_, Side.forall_of e ?_ ?_, Side.forall_of e ?_ ?_,
    Side.forall_of e ?_ ?_⟩, Side.forall_of e ?_ ?_⟩
  · simpa [n, s] using hA
  · simpa [n, s] using hB
  · simpa [s] using mirrors
  · simpa [s] using mirrors.symm
  · rw [heA, cellA]
    exact ⟨_, NonceFilter.tracks_new⟩
  · rw [heB, cellB]
    exact ⟨_, NonceFilter.tracks_new⟩
  · rw [heA, cellA]
    exact Nat.zero_le _
  · rw [heB, cellB]
    exact Nat.zero_le _
  · rw [heA, cellA]
    decide
  · rw [heB, cellB]
    decide

/-- **The handshake.** Two ends that wait for each other get mirrored sessions, with new
counters. -/
theorem exists_connected (hC : C.Lawful) {nA nB : PeerNode}
    (readyA : (l.node e).Ready C (key e) (key e.other) nA)
    (readyB : (l.node e.other).Ready C (key e.other) (key e) nB)
    (hpsk : nA.peer.handshake.secret.psk = nB.peer.handshake.secret.psk) {start : UInt32}
    {tr₀ : List Event}
    (reached : (l.node e).device.Reaches C (key e) start (fun _ _ => True) tr₀)
    (hdraws : (drawnIndexes tr₀).length + 2 < 2 ^ 32) (honline : nA.peer.online = true)
    (hep : nA.peer.endpoint.isSome) (hroute : ∀ ep ∈ nA.endpoints, route e ep)
    (hback : ∃ ep, route e.other ep) :
    ∃ tr l' n s, Run (step C) (Carried C route) l tr l' ∧ l'.Connected C key route n s ∧
      ∀ e', ((l'.node e').device.store.heap.cell (s e').shared).senderNonce.toNat ≤ 1 := by
  obtain ⟨back, hback⟩ := hback
  -- the first one initiates
  obtain ⟨tr₁, s₁, n₁, out, packet, inc, run₁, init, hsecret⟩ :=
    readyA.exists_initiated hC reached hdraws honline hep hroute (l.wire e)
  have link₁ := run_tasks route run₁
  set l₁ := l.put e s₁ tr₁ with hl₁
  -- the other responds
  have init₁ : (l₁.node e.other.other).Initiated C (key e.other.other) (key e.other)
      (route e.other.other) (l₁.wire e.other.other) n₁ out packet inc := by
    simpa [hl₁] using init
  have ready₁ : (l₁.node e.other).Ready C (key e.other) (key e.other.other) nB := by
    simpa [hl₁] using readyB
  obtain ⟨tr₂, s₂, n₂, resp, ret, sB, link₂, responded⟩ :=
    exists_responded hC init₁ ready₁ (by rw [hsecret]; exact hpsk) hback
  set l₂ := l₁.put e.other s₂ tr₂ with hl₂
  -- the first one finalizes, and sends the empty packet
  have init₂ : (l₂.node e).Initiated C (key e) (key e.other) (route e) (l₂.wire e) n₁ out packet
      inc := by
    simpa [hl₂, hl₁] using init
  have responded₂ : (l₂.node e.other).Responded C (key e.other) (key e) (route e.other)
      (l₂.wire e.other) n₂ out n₁.peer.handshake.secret resp ret sB := by
    simpa [hl₂] using responded
  obtain ⟨tr₃, s₃, n₃, sA, data, ep, link₃, holdsA, mirrors, cellA, hroute₃, hsent, hreceiver,
    hcounter, hopen⟩ := exists_finalized hC init₂ responded₂
  set l₃ := l₂.put e s₃ tr₃ with hl₃
  -- the other takes the session into use
  have responded₃ : (l₃.node e.other).Responded C (key e.other) (key e.other.other) (route e.other)
      (l₃.wire e.other) n₂ out n₁.peer.handshake.secret resp ret sB := by
    simpa [hl₃, hl₂] using responded
  have hwire : (ep, data.toBytes) ∈ l₃.wire e.other.other := by
    simp only [Side.other_other, hl₃, wire_put_self]
    exact List.mem_append_right _ hsent
  obtain ⟨tr₄, s₄, n₄, link₄, holdsB, cellB⟩ := exists_confirmed responded₃
    (by simpa using hroute₃) hwire hreceiver hcounter hopen
  obtain ⟨n', s, connected, hnonce⟩ := connected_of (l := l₃.put e.other s₄ tr₄) (e := e)
    (by simpa [hl₃] using holdsA) (by simpa using holdsB) mirrors (by simpa [hl₃] using cellA)
    (by simpa using cellB)
  exact ⟨_, _, n', s, ((link₁.trans link₂).trans link₃).trans link₄, connected, hnonce⟩

/-- Both ends have each other as a peer, with the same shared key, and their inbound tasks are
running. -/
structure Introduced (C : Crypto) (key : Side → Key) (l : Link) (n : Side → PeerNode) : Prop where
  peer : ∀ e, (l.node e).device.peers (C.publicKey (key e.other)) = some (n e)
  psk : ∀ e, (n e).peer.handshake.secret.psk = (n e.other).peer.handshake.secret.psk
  up : ∀ e, (l.node e).device.inboundUp = true
  alive : ∀ e, (n e).inboundTask ≠ .dead

/-- **The tunnel comes up.** Whatever two devices that have each other as a peer have been through,
as long as their inbound tasks are running: if one of them is to reach the other, which is online,
and knows only endpoints that lead there, then the tasks of the two and a network that carries
packets can bring both to mirrored current sessions, with new counters.

**Proof sketch.** Both ends work off what waits for them. The handshake loop of the first comes back
to its head, waits until it is time, and sends an initiation; the other answers it to where it came
from; the first accepts the response and sends an empty packet, which the other needs to take the
session into use. -/
theorem Introduced.exists_connected (hC : C.Lawful) {start : Side → UInt32}
    {clock : Side → Instant} {tr : List (Side × Event)} (reached : l.Reaches C key start clock tr)
    {n : Side → PeerNode} (h : l.Introduced C key n) (e : Side)
    (hdraws : (drawnIndexes (seen e tr)).length + (n e).inbox.length + 2 < 2 ^ 32)
    (honline : (n e).peer.online = true) (hep : (n e).peer.endpoint.isSome)
    (hroute : ∀ ep ∈ (n e).endpoints, route e ep) (hback : ∃ ep, route e.other ep) :
    ∃ tr' l' n' s, Run (step C) (Carried C route) l tr' l' ∧ l'.Connected C key route n' s ∧
      ∀ e', ((l'.node e').device.store.heap.cell (s e').shared).senderNonce.toNat ≤ 1 := by
  -- both ends come to rest
  obtain ⟨tr₁, s₁, n₁, run₁, ready₁, later₁, draws₁⟩ :=
    Timed.exists_ready hC (reached.device e) (h.peer e) (h.up e) (h.alive e)
  obtain ⟨tr₂, s₂, n₂, run₂, ready₂, later₂, -⟩ :=
    Timed.exists_ready hC (reached.device e.other) (h.peer e.other) (h.up e.other) (h.alive e.other)
  have link₁ := run_tasks route run₁
  have link₂ := run_tasks (l := l.put e s₁ tr₁) (e := e.other) route
    (by rw [node_put_other]; exact run₂)
  have reached₁ : s₁.device.Reaches C (key e) (start e) (fun _ _ => True) (seen e tr ++ tr₁) :=
    Run.trans (reached.device e) (Timed.run_device run₁)
  have hpsk : n₁.peer.handshake.secret.psk = n₂.peer.handshake.secret.psk := by
    rw [later₁.secret, later₂.secret]
    exact h.psk e
  -- and go through a handshake
  obtain ⟨tr₃, l', n', s, link₃, connected, hnonce⟩ :=
    Link.exists_connected (l := (l.put e s₁ tr₁).put e.other s₂ tr₂) (e := e) hC
      (by simpa using ready₁)
      (by simpa using ready₂) hpsk (by simpa using reached₁) (by
        simp only [drawnIndexes, List.filterMap_append, List.length_append] at hdraws draws₁ ⊢
        omega) (later₁.online.trans honline) (later₁.located hep)
      (fun ep hep => hroute ep (later₁.endpoints ep hep)) hback
  exact ⟨_, l', n', s, (link₁.trans link₂).trans link₃, connected, hnonce⟩

end Link

namespace Sample

/-- The device at an end when it is new. -/
def newNode (e : Side) : Timed := ⟨.new .sample (keys e) start, 0⟩

/-- The device at an end, with the other one as its peer. -/
def node (e : Side) : Timed := ⟨(newNode e).device.insertPeer .sample (peerConfig e.other) 0, 0⟩

/-- That peer. -/
def peerNode (e : Side) : PeerNode where
  peer := .new .sample ((LocalStaticSecret.new .sample (keys e)).withPeer
    (peerConfig e.other).publicKey) (some endpoint) none true "" 0
  allowedIps := [⟨address e.other, 32⟩]
  inbox := []
  outbox := []
  handshakeTask := .waiting
  inboundTask := .idle
  outboundTask := .idle

/-- Two devices that have each other as a peer. -/
def link : Link :=
  ((Link.new .sample keys (fun _ => start) fun _ => 0).put .left (node .left) []).put .right
    (node .right) []

/-- The devices of the link. -/
lemma node_link (e : Side) : link.node e = node e := by
  cases e <;> rfl

/-- They get there, and no channel is full. -/
lemma link_reached : Run (Link.step .sample) (Link.Roomy .sample)
    (Link.new .sample keys (fun _ => start) fun _ => 0) [] link := by
  have first : (Link.new .sample keys (fun _ => start) fun _ => 0).step .sample
      (.left, .insertPeer (peerConfig .right) 0) = some (_, []) :=
    Link.step_eq_some.mpr ⟨node .left, [], rfl, rfl, rfl⟩
  have second : ((Link.new .sample keys (fun _ => start) fun _ => 0).put .left (node .left) []).step
      .sample (.right, .insertPeer (peerConfig .left) 0) = some (link, []) :=
    Link.step_eq_some.mpr ⟨node .right, [], rfl, rfl, rfl⟩
  -- a new peer needs no room
  have roomy : ∀ (l : Link) e cfg, l.Roomy .sample (e, .insertPeer cfg 0) := fun _ _ _ => trivial
  exact .snoc (.snoc .nil (roomy _ _ _) first) (roomy _ _ _) second

/-- The devices know each other. -/
lemma link_introduced : link.Introduced .sample keys peerNode where
  peer e := by
    rw [node_link]
    exact Function.update_self ..
  psk _ := rfl
  up e := by rw [node_link]; rfl
  alive _ := by simp [peerNode]

end Sample

end Vlink
