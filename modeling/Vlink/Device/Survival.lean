import Vlink.Device.Replay
import Vlink.Noise.Grammar

set_option autoImplicit false

/-!
# What the inbound tasks survive

One panic ends the inbound loop of the device, or that of a peer, and nothing is received any more.
On the way of a datagram there are four places that panic: `is_handshake` on an empty datagram, the
slices of `TransportData::try_from` on a data packet that is shorter than its header, the `todo!`
for an initiation that carries a valid code and cannot be decrypted, and the `unwrap` on the
sending of a response. All other `unwrap`s, slices and additions on the way are safe. Whether a task
that does not panic goes on is a question of the channels, see `Vlink.Device.Progress`.

## Main definitions

* `Vlink.Device.Digestible` — the datagram does not lead `tick_inbound` to a panic.
* `Vlink.Device.Survivable` — the step meets none of the four cases.
* `Vlink.Device.InboundAlive` — the inbound tasks are running.

## Main results

* `Vlink.Device.tickInbound_returns_iff`, `Vlink.PeerNode.inboundStep_returns_iff` — the four cases
  are all there are.
* `Vlink.Device.step_inboundLoop` — what a step does to the inbound task of a peer.
* `Vlink.Device.InboundAlive.step` — a survivable step leaves the inbound tasks running.
-/

namespace Vlink

/-! ## The device -/

namespace Device

variable {C : Crypto} {d : Device} {env : Env} {endpoint : OutboundSender} {payload : Bytes}

/-- The datagram is not empty, is not a data packet that is shorter than its header, and if it is
an initiation with a valid code then it can be decrypted. -/
structure Digestible (C : Crypto) (d : Device) (payload : Bytes) : Prop where
  nonempty : payload ≠ []
  header : ¬ (4 ≤ payload.length ∧ payload.length < 16 ∧
    payload.take 4 = typeHeader messageTypeTransportData)
  decrypts : ∀ packet, Message.parse payload = .ret (.ok (.handshakeInitiation packet)) →
    d.cookie.validateMac1 C payload = .ret true →
    ∃ inc, IncomingInitiation.parse C d.secret packet = .ret (.ok inc)

/-- The second half of `tick_inbound` comes back if the packet can be parsed, and decrypted if it
is an initiation. -/
lemma dispatch_returns_iff (hC : C.Lawful) : (d.dispatch C endpoint payload).Returns ↔
    (Message.parse payload).Returns ∧
      ∀ packet, Message.parse payload = .ret (.ok (.handshakeInitiation packet)) →
        ∃ inc, IncomingInitiation.parse C d.secret packet = .ret (.ok inc) := by
  unfold dispatch
  cases Message.parse payload with
  | panic => simp
  | ret r =>
    rcases r with err | msg
    · simp
    cases msg with
    | handshakeInitiation packet =>
      obtain ⟨r, hr⟩ := IncomingInitiation.parse_returns hC d.secret packet
      cases r <;> simp [hr]
    | handshakeResponse packet => simp
    | cookieReply packet => simp
    | transportData packet =>
      simp only [Outcome.ret_bind]
      refine iff_of_true ?_ (by simp)
      split
      · split_ifs <;> simp
      · simp

/-- **When `tick_inbound` comes back.** -/
theorem tickInbound_returns_iff (hC : C.Lawful) (env : Env) (endpoint : OutboundSender) :
    (d.tickInbound C env endpoint payload).Returns ↔ d.Digestible C payload := by
  by_cases hne : payload = []
  · subst hne
    exact iff_of_false (by simp [tickInbound, screen, Message.isHandshake]) fun h => h.nonempty rfl
  have hparse : (Message.parse payload).Returns ↔ ¬ (4 ≤ payload.length ∧ payload.length < 16 ∧
      payload.take 4 = typeHeader messageTypeTransportData) := by
    rw [Outcome.returns_iff_ne_panic, ne_eq, Message.parse_eq_panic_iff]
  have hgo (hs : d.screen C env endpoint payload = .ret none) :
      (d.tickInbound C env endpoint payload).Returns ↔ (d.dispatch C endpoint payload).Returns := by
    unfold tickInbound
    cases d.dispatch C endpoint payload <;> simp [hs]
  rcases screen_cases C d env endpoint hne with ⟨hb, hs⟩ | ⟨hb, hv, hs⟩ | ⟨hb, hv, hs⟩
  · -- not a handshake packet, so not an initiation
    have hno : ∀ packet, Message.parse payload ≠ .ret (.ok (.handshakeInitiation packet)) := by
      intro packet hp
      rw [Message.isHandshake_of_parse hp (.inl rfl)] at hb
      cases hb
    rw [hgo hs, dispatch_returns_iff hC, hparse]
    exact ⟨fun h => ⟨hne, h.1, fun packet hp => absurd hp (hno packet)⟩,
      fun h => ⟨h.header, fun packet hp => absurd hp (hno packet)⟩⟩
  · rw [hgo hs, dispatch_returns_iff hC, hparse]
    exact ⟨fun h => ⟨hne, h.1, fun packet hp _ => h.2 packet hp⟩,
      fun h => ⟨h.header, fun packet hp => h.decrypts packet hp hv⟩⟩
  · -- turned away
    have hlen := Message.length_of_isHandshake hb
    refine iff_of_true (by simp [tickInbound, hs]) ⟨hne, fun h => by omega, fun _ _ hv' => ?_⟩
    rw [hv] at hv'
    cases hv'

end Device

/-! ## The peers -/

namespace Peer

variable {C : Crypto} {peer : Peer} {st : Store} {env : Env} {tr : List Event}

/-- `respond` comes back with a response. -/
lemma respond_returns (hC : C.Lawful) (inc : IncomingInitiation) :
    (peer.respond C st env inc).Returns := by
  obtain ⟨⟨out, payload⟩, h⟩ := OutgoingResponse.new_returns hC inc st.index.index
    peer.handshake.secret peer.handshake.macs env.ephemeral env.now
  exact ⟨_, respond_eq_ret.mpr ⟨out, payload, h, _, rfl, rfl⟩⟩

/-- Completing never panics. -/
lemma completeUninit_returns (session : Session) : (peer.completeUninit st session).Returns := by
  rcases peer.completeUninit_cases st session with h | ⟨_, _, -, -, -, -, h⟩
  · exact ⟨_, h⟩
  · exact ⟨_, h⟩

/-- Promoting never panics. -/
lemma promote_returns (packet : TransportData) (session : Session) :
    (peer.promote st env packet session).Returns := by
  rcases peer.promote_cases st env packet session with ⟨-, h⟩ | ⟨_, _, -, -, -, -, h⟩
  · exact ⟨_, h⟩
  · exact ⟨_, h⟩

/-- The rest of `handle_transport_data` comes back: the replay filter does not overflow on counters
that the device lets through. -/
lemma receive_returns (hrem : st.heap.Remembers tr) {endpoint : OutboundSender}
    {packet : TransportData} {session : Session}
    (hc : packet.counter.toNat ≤ rejectAfterMessages) :
    (peer.receive C st endpoint packet session).Returns := by
  obtain ⟨b, hb, -⟩ := hrem.canAccept session packet.counter
  unfold receive
  rw [hb]
  cases b with
  | false => exact Outcome.returns_ret _
  | true =>
    obtain ⟨heap, hh, -⟩ := hrem.aceept hc hb
    simp only [Outcome.ret_bind, hh]
    rw [if_neg (by simp)]
    split <;> exact Outcome.returns_ret _

end Peer

/-- **When the inbound task of a peer goes on.** Only the sending of a response can panic.

**Proof sketch.** The primitives are lawful, so a response can be built; the operations on the slots
do not panic; and the filter does not overflow on counters that were let through. -/
theorem PeerNode.inboundStep_returns_iff {C : Crypto} (hC : C.Lawful) {n : PeerNode} {st : Store}
    {env : Env} {tr : List Event} (hrem : st.heap.Remembers tr)
    (hcount : ∀ x ∈ n.view.queue, x.1.counter.toNat ≤ rejectAfterMessages)
    {r : Outcome (Store × PeerNode × List Event)} (h : n.inboundStep C st env = some r) :
    r.Returns ↔
      ∀ endpoint packet, n.inboundTask = .replying endpoint packet → env.sendOk = true := by
  cases ht : n.inboundTask with
  | idle =>
    simp only [inboundStep, ht] at h
    split at h
    · cases h
    · next e inbox hinbox =>
      cases h
      refine iff_of_true ?_ (by simp)
      cases e with
      | handshakeInitiation endpoint inc =>
        exact Outcome.returns_bind (Peer.respond_returns hC inc) fun _ _ => Outcome.returns_ret _
      | handshakeResponse => exact Outcome.returns_ret _
      | cookieReply => exact Outcome.returns_ret _
      | transportData endpoint packet session =>
        exact Outcome.returns_bind (Peer.promote_returns packet session)
          fun _ _ => Outcome.returns_ret _
  | responded endpoint session packet =>
    simp only [inboundStep, ht] at h
    cases h
    obtain ⟨t, hspec, -⟩ := ActiveSession.prepareNext_spec st.index n.peer.sessions session
    refine iff_of_true ?_ (by simp)
    simp [Peer.prepareNext, hspec]
  | prepared endpoint packet =>
    simp only [inboundStep, ht] at h
    cases h
    exact iff_of_true (Outcome.returns_ret _) (by simp)
  | replying endpoint packet =>
    simp only [inboundStep, ht] at h
    cases h
    cases hsend : env.sendOk with
    | false => exact iff_of_false (by simp [Peer.sendUnwrap, hsend]) (by simp)
    | true => exact iff_of_true (by simp [Peer.sendUnwrap, hsend]) (by simp)
  | replied =>
    simp only [inboundStep, ht] at h
    cases h
    exact iff_of_true (Outcome.returns_ret _) (by simp)
  | finalized endpoint session =>
    simp only [inboundStep, ht] at h
    cases h
    exact iff_of_true (Outcome.returns_bind (Peer.completeUninit_returns session)
      fun _ _ => Outcome.returns_ret _) (by simp)
  | completed endpoint =>
    simp only [inboundStep, ht] at h
    cases h
    exact iff_of_true (Outcome.returns_ret _) (by simp)
  | confirming endpoint =>
    simp only [inboundStep, ht] at h
    cases h
    exact iff_of_true (Outcome.returns_ret _) (by simp)
  | checking endpoint packet session =>
    simp only [inboundStep, ht] at h
    cases h
    have hc : packet.counter.toNat ≤ rejectAfterMessages :=
      hcount (packet, session) (by simp [view, ht, InboundTask.handling])
    exact iff_of_true (Outcome.returns_bind (Peer.receive_returns hrem hc)
      fun _ _ => Outcome.returns_ret _) (by simp)
  | dead => simp [inboundStep, ht] at h

namespace PeerNode

variable {C : Crypto} {n n' : PeerNode} {st st' : Store} {env : Env} {evs : List Event}

/-- The inbound task goes on or waits for the next event. -/
lemma inboundStep_alive (h : n.inboundStep C st env = some (.ret (st', n', evs))) :
    n'.inboundTask ≠ .dead := by
  cases inboundStep_move h with
  | @respond _ _ _ _ _ reply => cases reply <;> simp
  | @finalize _ _ _ _ _ _ found => cases found <;> simp
  | completeUninit =>
    dsimp only
    split_ifs <;> simp
  | _ => simp

/-- The timer for keepalives leaves the inbound task alone. -/
lemma keepaliveStep_inboundTask (h : n.keepaliveStep st env = some (.ret (st', n', evs))) :
    n'.inboundTask = n.inboundTask := by
  unfold keepaliveStep at h
  split at h
  · split_ifs at h <;> cases h <;> rfl
  · cases h

end PeerNode

/-! ## Steps -/

namespace Device

variable {C : Crypto} {tr evs : List Event} {d d' : Device} {p : Key} {a : Action}

/-- The step does not lead an inbound task to a panic: the datagram is digestible, or the response
that the task of a peer is about to send can be sent. -/
def Survivable (C : Crypto) (d : Device) : Action → Prop
  | .receive _ payload _ => d.Digestible C payload
  | .inbound p env => ∀ n endpoint packet, d.peers p = some n →
      n.inboundTask = .replying endpoint packet → env.sendOk = true
  | _ => True

/-- Only the sending of a response ends the inbound task of a peer, whatever the filters have let
through. -/
lemma inboundStep_returns_iff (hC : C.Lawful) (filters : Filters tr d.view) {n : PeerNode}
    (hn : d.peers p = some n) {env : Env} {r : Outcome (Store × PeerNode × List Event)}
    (h : n.inboundStep C d.store env = some r) :
    r.Returns ↔
      ∀ endpoint packet, n.inboundTask = .replying endpoint packet → env.sendOk = true := by
  refine PeerNode.inboundStep_returns_iff hC filters.remembers (fun x hx => ?_) h
  exact filters.counter (p := p) (by rwa [view_peer_some hn])

/-- Where the inbound task of a peer is. -/
def inboundTask (d : Device) (p : Key) : Option InboundTask := (d.peers p).map (·.inboundTask)

/-- What a step does to the inbound task of the peer `p`. -/
inductive InboundLoop (C : Crypto) (d : Device) (p : Key) (a : Action) (d' : Device) : Prop
  | same (task : d'.inboundTask p = d.inboundTask p)
  | new (before : d.inboundTask p = none) (task : d'.inboundTask p = some .idle)
  | goes {env : Env} {n n' : PeerNode} {st' : Store} {evs : List Event}
      (act : a = .inbound p env) (hn : d.peers p = some n)
      (h : n.inboundStep C d.store env = some (.ret (st', n', evs)))
      (task : d'.inboundTask p = some n'.inboundTask)
  | panics {env : Env} {n : PeerNode} (act : a = .inbound p env) (hn : d.peers p = some n)
      (h : n.inboundStep C d.store env = some .panic)

/-- The inbound task of a peer that is replaced. -/
lemma inboundTask_of_update {q : Key} {n : PeerNode}
    (h : d'.peers = Function.update d.peers q (some n)) (p : Key) :
    d'.inboundTask p = if p = q then some n.inboundTask else d.inboundTask p := by
  rw [inboundTask, h, Function.update_apply]
  split_ifs <;> rfl

/-- **What the steps of a device do to an inbound task.** Only the steps of the task itself change
where it is. -/
lemma step_inboundLoop (h : d.step C a = some (d', evs)) (p : Key) : InboundLoop C d p a d' := by
  cases step_effect h with
  | dropped peers => exact .same (by rw [inboundTask, peers, inboundTask])
  | unrouted peers => exact .same (by rw [inboundTask, peers, inboundTask])
  | @node _ q n n' _ hn peers _ _ moves =>
    have htask := inboundTask_of_update peers p
    by_cases hq : p = q
    · subst hq
      rw [if_pos rfl] at htask
      have hold : d.inboundTask p = some n.inboundTask := by rw [inboundTask, hn]; rfl
      cases moves with
      | inbound hret => exact .goes rfl hn hret htask
      | inboundPanic hpanic => exact .panics rfl hn hpanic
      | handshake hret =>
        exact .same (by rw [htask, hold, (PeerNode.handshakeStep_frame hret).1])
      | outbound hret => exact .same (by rw [htask, hold, (PeerNode.outboundStep_frame hret).1])
      | keepalive hret =>
        exact .same (by rw [htask, hold, PeerNode.keepaliveStep_inboundTask hret])
      | staged | routed | handshakePanic | setOnline | updateEndpoint | clearEndpoint =>
        exact .same (htask.trans hold.symm)
    · exact .same (htask.trans (if_neg hq))
  | insertPeer cfg now =>
    have hpeers : (d.insertPeer C cfg now).peers = Function.update d.peers cfg.publicKey _ := rfl
    have htask := inboundTask_of_update hpeers p
    by_cases hq : p = cfg.publicKey
    · subst hq
      rw [if_pos rfl] at htask
      cases hn : d.peers cfg.publicKey with
      | none => exact .new (by rw [inboundTask, hn]; rfl) (by rw [htask, hn]; rfl)
      | some n => exact .same (by rw [htask, inboundTask, hn]; rfl)
    · exact .same (htask.trans (if_neg hq))

/-- The inbound tasks of the device and of its peers are running. -/
def InboundAlive (d : Device) : Prop :=
  d.inboundUp = true ∧ ∀ p n, d.peers p = some n → n.inboundTask ≠ .dead

/-- The inbound tasks are running if none of them is dead. -/
lemma inboundAlive_iff :
    d.InboundAlive ↔ d.inboundUp = true ∧ ∀ p, d.inboundTask p ≠ some .dead := by
  simp only [InboundAlive, inboundTask, ne_eq, Option.map_eq_some_iff, not_exists, not_and]

/-- A datagram that the loop of the device comes back from leaves it running. -/
lemma inboundUp_of_receive {env : Env} {endpoint : OutboundSender} {payload : Bytes}
    {d' : Device} {evs : List Event} (hr : (d.tickInbound C env endpoint payload).Returns)
    (hstep : d.step C (.receive endpoint payload env) = some (d', evs)) :
    d'.inboundUp = d.inboundUp := by
  obtain ⟨⟨cookie, staged, sent⟩, hr⟩ := hr
  rw [Device.step, hr] at hstep
  split_ifs at hstep
  cases staged with
  | none =>
    cases hstep
    rfl
  | some x =>
    obtain rfl : (({ d with cookie } : Device).stageInbound x.1 x.2).1 = d' :=
      congrArg Prod.fst (Option.some.inj hstep)
    unfold stageInbound
    split <;> rfl

/-- No step but the handling of a datagram touches the inbound loop of the device. -/
lemma inboundUp_of_survivable (hC : C.Lawful) (ok : d.Survivable C a)
    (h : d.step C a = some (d', evs)) : d'.inboundUp = d.inboundUp := by
  cases step_effect h with
  | dropped => exact inboundUp_of_receive ((tickInbound_returns_iff hC _ _).mpr ok) h
  | unrouted _ _ up => exact up
  | node _ _ _ up => exact up
  | insertPeer => rfl

/-- **A survivable step leaves the inbound tasks running.** -/
lemma InboundAlive.step (hC : C.Lawful) (filters : Filters tr d.view) (alive : d.InboundAlive)
    (ok : d.Survivable C a) (h : d.step C a = some (d', evs)) : d'.InboundAlive := by
  rw [inboundAlive_iff] at alive ⊢
  refine ⟨(inboundUp_of_survivable hC ok h).trans alive.1, fun p => ?_⟩
  cases step_inboundLoop h p with
  | same task => exact task ▸ alive.2 p
  | new _ task => simp [task]
  | goes _ _ hret task => simpa [task] using PeerNode.inboundStep_alive hret
  | panics act hn hpanic =>
    subst act
    exact absurd ((inboundStep_returns_iff hC filters hn hpanic).mpr fun endpoint packet =>
      ok _ endpoint packet hn) Outcome.not_returns_panic

end Device

end Vlink
