import Vlink.Device.Tunnel

set_option autoImplicit false

/-!
# What the tunnel delivers

Once both ends of a tunnel have mirrored current sessions, packets from the TUN device of one end
come out at the TUN device of the other, unchanged and in order, in both directions.

## Main definitions

* `Vlink.Link.delivered` — the data that was written to the TUN devices.

## Main results

* `Vlink.Link.Connected.exists_delivered` — one packet.
* `Vlink.Link.Connected.exists_conversation` — any sequence of packets from both ends.
* `Vlink.Link.recovers` — from wherever the devices got to.
-/

namespace Vlink

/-- The data that was written to the TUN device. -/
def Event.delivered? : Event → Option Bytes
  | .tunSend _ _ data => some data
  | _ => none

namespace Link

variable {C : Crypto} {key : Side → Key} {route : Side → OutboundSender → Prop} {l l' : Link}
  {n : Side → PeerNode} {s : Side → Session}

/-- The data that was written to the TUN devices, with the end it was written at. -/
def delivered (tr : List (Side × Event)) : List (Side × Bytes) :=
  tr.filterMap fun x => x.2.delivered?.map (Prod.mk x.1)

/-- What has happened at one end. -/
lemma delivered_map (e : Side) (evs : List Event) :
    delivered (evs.map (Prod.mk e)) = (evs.filterMap Event.delivered?).map (Prod.mk e) := by
  simp [delivered, List.filterMap_map, List.map_filterMap]

/-- The send counter of an end. -/
def nonce (l : Link) (s : Side → Session) (e : Side) : UInt64 :=
  ((l.node e).device.store.heap.cell (s e).shared).senderNonce

/-- **Sending.** A packet from the TUN device of one end is sealed and sent. -/
lemma Connected.exists_sent (hC : C.Lawful) (h : l.Connected C key route n s) (e : Side)
    {data : Bytes} (hup : (l.node e).device.outboundUp = true)
    (hrouted : (l.node e).device.tickOutbound data = .ret (some (C.publicKey (key e.other))))
    (hlen : data.length < maxPlaintext) :
    ∃ tr s' m packet ep, Run (step C) (Used C route) l (tr.map (Prod.mk e)) (l.put e s' tr) ∧
      tr.filterMap Event.delivered? = [] ∧ route e ep ∧
      (ep, TransportData.toBytes packet) ∈ tr.filterMap Event.sent? ∧
      packet.receiverIndex = (s e.other).senderIndex ∧ packet.counter = l.nonce s e ∧
      (s e.other).decryptData C packet = .ok data ∧
      s'.Holds C (key e) (key e.other) (route e) m (s e) ∧
      s'.device.ips = (l.node e).device.ips ∧
      s'.device.outboundUp = (l.node e).device.outboundUp ∧
      s'.device.store.heap = ((s e).nextNonce (l.node e).device.store.heap).2 := by
  let p := C.publicKey (key e.other)
  let env : Env := ⟨(l.node e).clock, 0, Block.zero 32, Block.zero 24, Block.zero 32, true⟩
  have hA := h.ends e
  obtain ⟨ep, hep, hroute⟩ := hA.endpoint
  -- the packet is staged for the peer
  let m : PeerNode := { n e with outbox := [data] }
  let s₁ : Timed := ⟨(l.node e).device.become p (l.node e).device.store m, (l.node e).clock⟩
  have hstep : (l.node e).device.step C (.tunRecv data) = some (s₁.device, [.routed p data]) := by
    rw [Device.step, if_pos hup, hrouted]
    simp only [Device.stageOutbound, hA.peer, hA.quiet.outbox]
    rfl
  have hroom : l.Roomy C (e, .tunRecv data) := by
    intro q hq
    obtain rfl : p = q := by simpa [hrouted] using hq
    rw [Device.outbox_eq hA.peer, hA.quiet.outbox]
    decide
  have first : Run (step C) (Used C route) l ([Event.routed p data].map (Prod.mk e))
      (l.put e s₁ [.routed p data]) :=
    .snoc .nil ⟨.inr ⟨data, rfl⟩, hroom⟩
      (step_eq_some.mpr ⟨s₁, _, Timed.tick_eq_some.mpr ⟨le_rfl, rfl, hstep⟩, rfl, rfl⟩)
  -- the outbound task seals and sends it
  obtain ⟨packet, heap, hseal⟩ :=
    ((h.mirrors e).delivers hC (l.node e).device.store.heap data).1 hlen
  obtain ⟨-, hopen⟩ := ((h.mirrors e).delivers hC _ data).2 packet heap hseal
  obtain ⟨hreceiver, hcounter⟩ := Session.encryptData_ok (congrArg Prod.fst hseal)
  obtain ⟨monitor, alone⟩ := PeerNode.run_seal (n := m) hA.quiet.outboundTask rfl hA.current
    (congrArg Prod.fst hseal) hep (show env.sendOk = true from rfl)
  obtain ⟨clock, -, tasks⟩ := Timed.run_of_alone (s := s₁) (.outbound p) (fun _ _ => rfl)
    (fun _ h => ⟨h, trivial⟩) ⟨rfl, rfl⟩ rfl le_rfl (by simp [s₁]) alone
  have run := first.trans ((run_tasks route (by rw [node_put_self]; exact tasks)).mono
    fun _ _ => Carried.used)
  rw [put_put, ← List.map_append] at run
  let m₁ : PeerNode := { n e with peer := { (n e).peer with monitor }, outbox := [] }
  have ready : Timed.Ready C (key e) (key e.other) ⟨s₁.device.become p
      { (l.node e).device.store with
        heap := ((s e).nextNonce (l.node e).device.store.heap).2 } m₁, clock⟩ m₁ := by
    have quiet : m₁.Quiet := ⟨hA.quiet.1, hA.quiet.2, hA.quiet.3, rfl⟩
    have keys : m₁.peer.keys = (n e).peer.keys := rfl
    simpa [s₁] using hA.toReady.become { (l.node e).device.store with
      heap := ((s e).nextNonce (l.node e).device.store.heap).2 } clock keys quiet
  exact ⟨_, _, m₁, packet, ep, run, by simp [Event.delivered?], hroute, by simp [Event.sent?],
    hreceiver.trans (h.mirrors e).receiverIndex, hcounter, hopen,
    ⟨ready, hA.current, hA.listed, hA.peerKey, ⟨ep, hep, hroute⟩, hA.settled⟩, rfl, rfl, rfl⟩

/-- **Receiving.** A packet with a counter that was not used yet is opened and passed on. -/
lemma exists_received {e : Side} {m : PeerNode} {sess : Session}
    (hB : (l.node e).Holds C (key e) (key e.other) (route e) m sess) {acc : Finset ℕ}
    (tracks : ((l.node e).device.store.heap.cell sess.shared).nonceFilter.Tracks acc)
    {packet : TransportData} {ep : OutboundSender} (hback : route e.other ep)
    (hwire : (ep, packet.toBytes) ∈ l.wire e.other)
    (hreceiver : packet.receiverIndex = sess.senderIndex)
    (hcount : packet.counter.toNat ≤ rejectAfterMessages)
    (hfresh : ((l.node e).device.store.heap.cell sess.shared).nonceFilter.next ≤
      packet.counter.toNat)
    {data : Bytes} (hopen : sess.decryptData C packet = .ok data) (hdata : data ≠ []) :
    ∃ tr s' m' f, Run (step C) (Carried C route) l (tr.map (Prod.mk e)) (l.put e s' tr) ∧
      tr.filterMap Event.delivered? = [data] ∧
      s'.Holds C (key e) (key e.other) (route e) m' sess ∧
      s'.device.ips = (l.node e).device.ips ∧
      s'.device.outboundUp = (l.node e).device.outboundUp ∧
      s'.device.store.heap.cell sess.shared =
        { (l.node e).device.store.heap.cell sess.shared with nonceFilter := f } ∧
      f.next = packet.counter.toNat + 1 ∧ ∃ acc', f.Tracks acc' := by
  let p := C.publicKey (key e.other)
  let env : Env := ⟨(l.node e).clock, 0, Block.zero 32, Block.zero 24, Block.zero 32, true⟩
  obtain ⟨endpoint, -, hroute⟩ := hB.endpoint
  have hsession : (l.node e).device.getSessionByIndex packet.receiverIndex = some (sess, p) := by
    rw [hreceiver, Device.getSessionByIndex_eq_some]
    exact ⟨hB.listed, hB.peerKey, by rw [hB.peer]; rfl⟩
  have ht : (l.node e).device.tickInbound C env endpoint packet.toBytes =
      .ret ((l.node e).device.cookie, some (p, .transportData endpoint packet sess), []) :=
    Device.tickInbound_data hsession hcount
  -- the counter passes the replay check, and is recorded
  have hcan : sess.canAccept (l.node e).device.store.heap packet.counter = .ret true := by
    rw [Session.canAccept, NonceFilter.canAccept, if_pos hfresh]
  obtain ⟨f, hf, hnext, tracks'⟩ := tracks.accept_next hcount hcan
  have haccept : sess.aceept (l.node e).device.store.heap packet.counter =
      .ret ((l.node e).device.store.heap.write sess.shared
        { (l.node e).device.store.heap.cell sess.shared with nonceFilter := f }) := by
    simp [Session.aceept, hf]
  let m₁ : PeerNode := { m with inbox := [.transportData endpoint packet sess] }
  obtain ⟨monitor, alone⟩ := PeerNode.run_open (n := m₁) hB.quiet.inboundTask rfl hB.settled hcan
    hopen hdata haccept
  obtain ⟨clock, staged, run, hstaged⟩ := run_deliver hroute hback hwire hB.up
    (show (l.node e).clock ≤ env.now from le_rfl) rfl hB.peer hB.quiet ht alone
  refine ⟨_, _, _, f, run, ?_, ⟨hB.toReady.become _ clock rfl ⟨hB.quiet.1, rfl, hB.quiet.3,
    hB.quiet.4⟩, hB.current, hB.listed, hB.peerKey, ⟨endpoint, rfl, hroute⟩, hB.settled⟩, rfl, rfl,
    Heap.cell_write_self .., by omega, _, tracks'⟩
  have hnone : staged.filterMap Event.delivered? = [] := by
    refine List.filterMap_eq_nil_iff.mpr fun x hx => ?_
    obtain ⟨q, packet', s', rfl⟩ := hstaged x hx
    rfl
  rw [List.filterMap_append, hnone]
  rfl

/-- **One packet.** A packet from the TUN device of one end comes out at the other, and the ends
stay connected.

**Proof sketch.** The packet is routed, sealed and sent by one end, and then staged, checked and
opened by the other one. Each task goes on alone. -/
theorem Connected.exists_delivered (hC : C.Lawful) (h : l.Connected C key route n s) (e : Side)
    {data : Bytes} (hup : (l.node e).device.outboundUp = true)
    (hrouted : (l.node e).device.tickOutbound data = .ret (some (C.publicKey (key e.other))))
    (hlen : data.length < maxPlaintext) (hcount : (l.nonce s e).toNat ≤ rejectAfterMessages) :
    ∃ tr l' n', Run (step C) (Used C route) l tr l' ∧ delivered tr = [(e.other, data)] ∧
      l'.Connected C key route n' s ∧ SameRoutes l l' ∧
      (l'.nonce s e).toNat = (l.nonce s e).toNat + 1 ∧
      l'.nonce s e.other = l.nonce s e.other := by
  have hdata : data ≠ [] := by
    rintro rfl
    cases hrouted
  obtain ⟨tr₁, s₁, m₁, packet, ep, link₁, none₁, hroute, hsent, hreceiver, hcounter, hopen, hA,
    ips₁, up₁, heap₁⟩ := h.exists_sent hC e hup hrouted hlen
  obtain ⟨acc, tracks⟩ := h.tracks e.other
  set l₁ := l.put e s₁ tr₁ with hl₁
  have hB : (l₁.node e.other).Holds C (key e.other) (key e.other.other) (route e.other) (n e.other)
      (s e.other) := by
    simpa [hl₁] using h.ends e.other
  have hnext : ((l₁.node e.other).device.store.heap.cell (s e.other).shared).nonceFilter.next ≤
      packet.counter.toNat := by
    rw [hcounter]
    simpa [hl₁, nonce] using h.counters e.other
  obtain ⟨tr₂, s₂, m₂, f, link₂, some₂, hB₂, ips₂, up₂, cell₂, hf, acc', tracks'⟩ :=
    exists_received hB (by simpa [hl₁] using tracks) (by simpa using hroute)
      (by simpa [hl₁] using Or.inr hsent) hreceiver (by rw [hcounter]; exact hcount) hnext hopen
      hdata
  set l₂ := l₁.put e.other s₂ tr₂ with hl₂
  have nodeA : l₂.node e = s₁ := by simp [hl₂, hl₁]
  have nodeB : l₂.node e.other = s₂ := by simp [hl₂]
  have otherB : l₁.node e.other = l.node e.other := by simp [hl₁]
  rw [otherB] at cell₂ ips₂ up₂
  have cell₁ : s₁.device.store.heap.cell (s e).shared =
      { (l.node e).device.store.heap.cell (s e).shared with senderNonce := l.nonce s e + 1 } := by
    rw [heap₁]
    exact Heap.cell_write_self ..
  have nonce₁ : (l₂.nonce s e).toNat = (l.nonce s e).toNat + 1 := by
    have hroom := NonceFilter.rejectAfterMessages_add_lt (k := 1) (by decide)
    rw [nonce, nodeA, cell₁, UInt64.toNat_add]
    exact Nat.mod_eq_of_lt (by simp; omega)
  have nonce₂ : l₂.nonce s e.other = l.nonce s e.other := by
    rw [nonce, nodeB, cell₂]
    rfl
  refine ⟨_, l₂, fun x => if x = e then m₁ else m₂,
    link₁.trans (link₂.mono fun _ _ => Carried.used), ?_,
    ⟨Side.forall_of e ?_ ?_, h.mirrors, Side.forall_of e ?_ ?_, Side.forall_of e ?_ ?_⟩,
    ⟨Side.forall_of e ?_ ?_, Side.forall_of e ?_ ?_⟩, nonce₁, nonce₂⟩
  · rw [delivered, List.filterMap_append]
    show delivered _ ++ delivered _ = _
    rw [delivered_map, delivered_map, none₁, some₂]
    rfl
  · rw [nodeA, if_pos rfl]
    exact hA
  · rw [nodeB, if_neg e.other_ne]
    exact hB₂
  · rw [nodeA, cell₁]
    exact h.tracks e
  · rw [nodeB, cell₂]
    exact ⟨acc', tracks'⟩
  · rw [nodeA, cell₁]
    exact (h.counters e).trans (le_of_eq (congrArg UInt64.toNat nonce₂.symm))
  · rw [nodeB, cell₂, Side.other_other]
    show f.next ≤ (l₂.nonce s e).toNat
    rw [nonce₁, hf, hcounter]
  · rw [nodeA, ips₁]
  · rw [nodeB, ips₂]
  · rw [nodeA, up₁]
  · rw [nodeB, up₂]

/-- **A conversation.** Once the ends of a tunnel are connected, every sequence of packets from
their TUN devices can be carried: each packet that its device routes to the other end comes out
there, unchanged, and in the order in which they were sent, as long as the counters last. Afterwards
the ends are still connected.

**Proof sketch.** Induction on the sequence. A packet is sealed with the current session, whose
counter the other end has not accepted yet, so it is opened there and its counter recorded; the two
counters stay in step. -/
theorem Connected.exists_conversation (hC : C.Lawful) (h : l.Connected C key route n s)
    (talk : List (Side × Bytes))
    (hup : ∀ e, (l.node e).device.outboundUp = true)
    (hrouted : ∀ x ∈ talk, (l.node x.1).device.tickOutbound x.2 =
      .ret (some (C.publicKey (key x.1.other))))
    (hlen : ∀ x ∈ talk, x.2.length < maxPlaintext)
    (hcount : ∀ e, (l.nonce s e).toNat + talk.countP (fun x => x.1 = e) ≤ rejectAfterMessages) :
    ∃ tr l' n', Run (step C) (Used C route) l tr l' ∧ l'.Connected C key route n' s ∧
      delivered tr = talk.map fun x => (x.1.other, x.2) := by
  induction talk generalizing l n with
  | nil => exact ⟨[], l, n, .nil, h, rfl⟩
  | cons x talk ih =>
    obtain ⟨e, data⟩ := x
    have hcount_self := hcount e
    have hcount_other := hcount e.other
    simp only [List.countP_cons, decide_true, if_true, Side.ne_other, decide_false,
      Bool.false_eq_true, if_false] at hcount_self hcount_other
    obtain ⟨tr₁, l₁, n₁, run₁, hdel₁, h₁, same, hself, hother⟩ := h.exists_delivered hC e (hup e)
      (hrouted (e, data) List.mem_cons_self) (hlen (e, data) List.mem_cons_self) (by omega)
    obtain ⟨tr₂, l₂, n₂, run₂, h₂, hdel₂⟩ := ih h₁ (fun e' => (same.up e').trans (hup e'))
      (fun x hx => (same.tickOutbound x.1 x.2).trans (hrouted x (List.mem_cons_of_mem _ hx)))
      (fun x hx => hlen x (List.mem_cons_of_mem _ hx))
      (Side.forall_of e (by omega) (by rw [hother]; omega))
    refine ⟨tr₁ ++ tr₂, l₂, n₂, run₁.trans run₂, h₂, ?_⟩
    rw [delivered, List.filterMap_append]
    show delivered tr₁ ++ delivered tr₂ = _
    rw [hdel₁, hdel₂]
    rfl

/-- New counters last for a conversation. -/
lemma nonce_add_countP_le {e : Side} {talk : List (Side × Bytes)} (h : (l.nonce s e).toNat ≤ 1)
    (hlen : talk.length < rejectAfterMessages) :
    (l.nonce s e).toNat + talk.countP (fun x => x.1 = e) ≤ rejectAfterMessages := by
  have hall : talk.countP (fun x => x.1 = e) ≤ talk.length := List.countP_le_length
  omega

/-- **The tunnel recovers.** Whatever two devices that have each other as a peer have been through,
as long as no task has found a channel full and their tasks are running: if one of them is to reach
the other, which is online, and knows only endpoints that lead there, then the tasks of the two and
a network that carries packets can bring both to mirrored current sessions, and no channel is full
on the way. From then on every sequence of packets that the devices route to each other can be
carried, and comes out unchanged and in order.

**Proof sketch.** `Introduced.exists_connected` brings the devices to mirrored sessions whose
counters have hardly been used; the routes stay (`SameRoutes.of_run`). The rest is
`Connected.exists_conversation`. -/
theorem recovers (hC : C.Lawful) {start : Side → UInt32} {clock : Side → Instant}
    {tr : List (Side × Event)} (reached : Run (step C) (Roomy C) (new C key start clock) tr l)
    (h : l.Introduced C key n) (e : Side)
    (hdraws : (drawnIndexes (seen e tr)).length + (n e).inbox.length + 2 < 2 ^ 32)
    (honline : (n e).peer.online = true) (hep : (n e).peer.endpoint.isSome)
    (hroute : ∀ ep ∈ (n e).endpoints, route e ep) (hback : ∃ ep, route e.other ep)
    (talk : List (Side × Bytes)) (hup : ∀ e, (l.node e).device.outboundUp = true)
    (hrouted : ∀ x ∈ talk, (l.node x.1).device.tickOutbound x.2 =
      .ret (some (C.publicKey (key x.1.other))))
    (hlen : ∀ x ∈ talk, x.2.length < maxPlaintext) (hcount : talk.length < rejectAfterMessages) :
    ∃ tr₁ l₁ n₁ tr₂ l₂ n₂ s, Run (step C) (Carried C route) l tr₁ l₁ ∧
      l₁.Connected C key route n₁ s ∧ Run (step C) (Used C route) l₁ tr₂ l₂ ∧
      l₂.Connected C key route n₂ s ∧ delivered tr₂ = talk.map fun x => (x.1.other, x.2) := by
  obtain ⟨tr₁, l₁, n₁, s, run₁, connected₁, hnonce⟩ :=
    h.exists_connected hC (reached.mono fun _ _ _ => trivial) e hdraws honline hep hroute hback
  have same := SameRoutes.of_run run₁
  obtain ⟨tr₂, l₂, n₂, run₂, connected₂, hdelivered⟩ := connected₁.exists_conversation hC talk
    (fun e => (same.up e).trans (hup e))
    (fun x hx => (same.tickOutbound x.1 x.2).trans (hrouted x hx)) hlen
    (fun e => nonce_add_countP_le (hnonce e) hcount)
  exact ⟨tr₁, l₁, n₁, tr₂, l₂, n₂, s, run₁, connected₁, run₂, connected₂, hdelivered⟩

/-- Two devices that have just been configured send packets to each other. -/
theorem recovers_sample : ∃ tr₁ l₁ n₁ tr₂ l₂ n₂ s,
    Run (step .sample) (Carried .sample fun _ _ => True) Sample.link tr₁ l₁ ∧
    l₁.Connected .sample Sample.keys (fun _ _ => True) n₁ s ∧
    Run (step .sample) (Used .sample fun _ _ => True) l₁ tr₂ l₂ ∧
    l₂.Connected .sample Sample.keys (fun _ _ => True) n₂ s ∧
    delivered tr₂ = [(.right, Sample.ipPacket [10, 0, 0, 1] [10, 0, 0, 2]),
      (.left, Sample.ipPacket [10, 0, 0, 2] [10, 0, 0, 1]),
      (.left, Sample.ipPacket [10, 0, 0, 3] [10, 0, 0, 1])] :=
  recovers Crypto.sample_lawful Sample.link_reached Sample.link_introduced .left (by decide)
    rfl rfl (fun _ _ => trivial) ⟨Sample.endpoint, trivial⟩
    [(.left, Sample.ipPacket [10, 0, 0, 1] [10, 0, 0, 2]),
      (.right, Sample.ipPacket [10, 0, 0, 2] [10, 0, 0, 1]),
      (.right, Sample.ipPacket [10, 0, 0, 3] [10, 0, 0, 1])]
    (fun e => by rw [Sample.node_link]; rfl)
    (by simp only [List.forall_mem_cons, Sample.node_link]; decide) (by decide) (by decide)

end Link

end Vlink
