import Vlink.Device.Replay
import Vlink.Noise.Grammar

set_option autoImplicit false

/-!
# Packets that should have no effect

A packet that was not sent by the peer, or was sent long ago, should change nothing. The handlers
act too early: `handle_transport_data` promotes the session of a packet and moves the endpoint
before it decrypts the packet, and `handle_handshake_initiation` never looks at the timestamp.

Both are about one event that is handled from beginning to end, so this file first puts the
sections of the handlers together again: `tick_inbound` of a peer is what its inbound task does when
it runs alone.

## Main definitions

* `Vlink.PeerNode.tickInbound`, `Vlink.Device.handle` — an event, and a datagram, is handled from
  beginning to end.
* `Vlink.Peer.Untouched` — what a forged packet should leave alone.
* `Vlink.Outdated`, `Vlink.Device.Unanswered` — a replayed initiation, and what it should leave
  alone.

## Main results

* `Vlink.Device.run_handle` — handling a datagram is a run of the device.
* `Vlink.Device.forged_untouched_iff` — when a forged data packet changes nothing.
* `Vlink.Device.forged_promotes` — a forged packet that promotes a session and moves the endpoint.
* `Vlink.Device.outdated_unanswered_iff` — when a replayed initiation changes nothing.
* `Vlink.Device.outdated_answered` — a replayed initiation that is answered.
-/

namespace Vlink

/-! ## Handling an event -/

namespace PeerNode

/-- `tick_inbound` of a peer, in `device/peer/handler.rs`. -/
def tickInbound (C : Crypto) (n : PeerNode) (st : Store) (env : Env) :
    InboundEvent → Outcome (Store × PeerNode × List Event)
  | .handshakeInitiation endpoint initiation => do
    let (st, peer, evs) ← n.peer.handleHandshakeInitiation C st env endpoint initiation
    return (st, { n with peer }, evs)
  | .handshakeResponse endpoint packet _ => do
    let (st, peer, staged, evs) ← n.peer.handleHandshakeResponse C st env endpoint packet
    return (st, { n with peer, outbox := if staged then n.outbox ++ [[]] else n.outbox }, evs)
  | .cookieReply _ _ _ => .ret (st, { n with peer := n.peer.handleCookieReply }, [])
  | .transportData endpoint packet session => do
    let (st, peer, evs) ← n.peer.handleTransportData C st env endpoint packet session
    return (st, { n with peer }, evs)

variable {C : Crypto} {n n' : PeerNode} {st st' : Store} {env : Env} {evs : List Event}

/-- The inbound task, with the event that it takes from its channel, handles it in some steps. -/
lemma run_tickInbound {e : InboundEvent} {inbox : List InboundEvent}
    (hidle : n.inboundTask = .idle) (hinbox : n.inbox = e :: inbox)
    (h : { n with inbox }.tickInbound C st env e = .ret (st', n', evs)) :
    Run (alone (inboundStep C)) (fun _ a => a = env) (st, n) evs (st', n') := by
  obtain ⟨peer, ips, box, outbox, hs, task, out⟩ := n
  dsimp only at hidle hinbox h
  subst hidle hinbox
  have first : ∀ st₁ n₁ evs₁, takeEvent C
      ⟨peer, ips, inbox, outbox, hs, .idle, out⟩ st env e = .ret (st₁, n₁, evs₁) →
      Run (alone (inboundStep C)) (fun _ a => a = env)
        (st, ⟨peer, ips, e :: inbox, outbox, hs, .idle, out⟩) evs₁ (st₁, n₁) := by
    intro st₁ n₁ evs₁ he
    exact run_alone_same .nil (congrArg some he)
  cases e with
  | handshakeInitiation endpoint inc =>
    obtain ⟨⟨st₂, peer₂, evs₂⟩, hh, hr⟩ := Outcome.bind_eq_ret.mp h
    cases hr
    obtain ⟨⟨st₁, peer₁, reply, evs₁⟩, hp, hh⟩ := Outcome.bind_eq_ret.mp hh
    have run₁ := first st₁ _ evs₁ (by simp only [takeEvent, hp]; rfl)
    cases reply with
    | none =>
      cases hh
      exact run₁
    | some r =>
      obtain ⟨s, packet⟩ := r
      obtain ⟨⟨st₂, peer₂⟩, hprep, hh⟩ := Outcome.bind_eq_ret.mp hh
      obtain ⟨sent, hsend, hr⟩ := Outcome.bind_eq_ret.mp hh
      cases hr
      have run₂ := run_alone_same run₁ (by simp only [inboundStep, hprep]; rfl)
      have run₃ := run_alone_same run₂ rfl
      have run₄ := run_alone_same run₃ (by simp only [inboundStep, hsend]; rfl)
      simpa using run_alone_same run₄ rfl
  | handshakeResponse endpoint packet session =>
    obtain ⟨⟨st₂, peer₂, staged, evs₂⟩, hh, hr⟩ := Outcome.bind_eq_ret.mp h
    cases hr
    unfold Peer.handleHandshakeResponse at hh
    rcases hp : peer.finalize C st packet with ⟨st₁, peer₁, s, evs₁⟩
    rw [hp] at hh
    have run₁ := first st₁ _ evs₁ (by simp only [takeEvent, hp]; rfl)
    cases s with
    | none =>
      cases hh
      exact run₁
    | some s =>
      obtain ⟨⟨done, st₂, peer₂, evs₂⟩, hc, hh⟩ := Outcome.bind_eq_ret.mp hh
      have run₂ := run_alone_same run₁ (by simp only [inboundStep, hc]; rfl)
      cases done with
      | false =>
        cases hh
        exact run₂
      | true =>
        cases hh
        have run₄ := run_alone_same (run_alone_same run₂ rfl) rfl
        rw [List.append_nil] at run₄
        exact run₄
  | cookieReply endpoint packet session =>
    cases h
    exact first _ _ _ rfl
  | transportData endpoint packet session =>
    obtain ⟨⟨st₂, peer₂, evs₂⟩, hh, hr⟩ := Outcome.bind_eq_ret.mp h
    cases hr
    obtain ⟨⟨st₁, peer₁, evs₁⟩, hp, hh⟩ := Outcome.bind_eq_ret.mp hh
    obtain ⟨⟨st₂, peer₂, evs₂⟩, hrec, hr⟩ := Outcome.bind_eq_ret.mp hh
    cases hr
    have run₁ := first st₁ _ evs₁ (by simp only [takeEvent, hp]; rfl)
    exact run_alone_same run₁ (by simp only [inboundStep, hrec]; rfl)

end PeerNode

namespace Device

variable {C : Crypto} {d d' : Device} {env : Env} {endpoint : OutboundSender} {payload : Bytes}
  {evs : List Event}

/-- A datagram is handled from beginning to end: by `tick_inbound` of the device, and by that of
the peer it is staged for. -/
def handle (C : Crypto) (d : Device) (env : Env) (endpoint : OutboundSender) (payload : Bytes) :
    Outcome (Device × List Event) := do
  match ← d.tickInbound C env endpoint payload with
  | (cookie, none, sent) => return ({ d with cookie }, sent)
  | (cookie, some (p, e), sent) =>
    match d.peers p with
    | none => return ({ d with cookie }, sent)
    | some n =>
      let (st, n, evs) ← n.tickInbound C d.store env e
      return ({ d with cookie, store := st }.setPeer p n, sent ++ evs)

/-- Staging an event appends it to the channel of the peer. -/
lemma stageInbound_of_some {p : Key} {n : PeerNode} (hn : d.peers p = some n)
    (e : InboundEvent) : ∃ staged,
      d.stageInbound p e = (d.setPeer p { n with inbox := n.inbox ++ [e] }, staged) ∧
      ∀ e' ∈ staged, ∃ q packet s, e' = .staged q packet s := by
  simp only [stageInbound, hn]
  refine ⟨_, rfl, fun e' he' => ?_⟩
  cases e with
  | transportData endpoint packet session => exact ⟨_, _, _, List.mem_singleton.mp he'⟩
  | _ => cases he'

/-- **Handling a datagram is a run.** When the inbound tasks have nothing to do, a datagram can be
received and handled by steps of the device that emit what handling it does, after the note that it
was staged. -/
theorem run_handle (hup : d.inboundUp = true)
    (hidle : ∀ p n, d.peers p = some n → n.inboundTask = .idle ∧ n.inbox = [])
    (h : d.handle C env endpoint payload = .ret (d', evs)) :
    ∃ staged, Run (step C) (fun _ _ => True) d (staged ++ evs) d' ∧
      ∀ e ∈ staged, ∃ p packet s, e = .staged p packet s := by
  obtain ⟨⟨cookie, x, sent⟩, ht, h⟩ := Outcome.bind_eq_ret.mp h
  rcases x with - | ⟨p, e⟩
  · cases h
    have hstep : d.step C (.receive endpoint payload env) = some ({ d with cookie }, evs) := by
      rw [step, if_pos hup, ht]
    exact ⟨[], .snoc .nil trivial hstep, by simp⟩
  · obtain ⟨-, rfl, rfl⟩ := tickInbound_eq_some ht
    have hstep : d.step C (.receive endpoint payload env) = some (d.stageInbound p e) := by
      rw [step, if_pos hup, ht]
      rfl
    cases hn : d.peers p with
    | none =>
      simp only [hn] at h
      cases h
      have hstaged : d.stageInbound p e = (d, []) := by simp only [stageInbound, hn]
      rw [hstaged] at hstep
      exact ⟨[], .snoc .nil trivial hstep, by simp⟩
    | some n =>
      obtain ⟨htask, hbox⟩ := hidle p n hn
      simp only [hn] at h
      obtain ⟨⟨st, n', evs'⟩, hr, h⟩ := Outcome.bind_eq_ret.mp h
      cases h
      -- the task of the peer takes the event that was staged and handles it alone
      have hr' : ({ n with inbox := [] } : PeerNode).tickInbound C d.store env e =
          .ret (st, n', evs') := by
        rw [← hbox]
        exact hr
      have run := PeerNode.run_tickInbound (n := { n with inbox := n.inbox ++ [e] }) htask
        (by rw [hbox]; rfl) hr'
      obtain ⟨staged, hstaged, hevs⟩ := stageInbound_of_some hn e
      rw [hstaged] at hstep
      refine ⟨staged, ?_, hevs⟩
      have first : Run (step C) (fun _ _ => True) d staged _ := .snoc .nil trivial hstep
      have run' := first.trans (run_of_alone (.inbound p) (fun _ _ => rfl) (fun _ _ => trivial)
        (Function.update_self ..) run)
      simpa [setPeer] using run'

end Device

/-! ## Data packets that cannot be decrypted -/

namespace Peer

variable {C : Crypto} {peer : Peer} {st : Store} {env : Env} {endpoint : OutboundSender}
  {packet : TransportData} {session : Session}

/-- What handling a data packet for the session has not touched. -/
structure Untouched (st : Store) (peer : Peer) (session : Session) (st' : Store) (peer' : Peer) :
    Prop where
  endpoint : peer'.endpoint = peer.endpoint
  slots : peer'.sessions = peer.sessions
  index : st'.index = st.index
  handshake : peer'.monitor.handshake = peer.monitor.handshake
  filter : (st'.heap.cell session.shared).nonceFilter =
    (st.heap.cell session.shared).nonceFilter

/-- A packet that cannot be decrypted still moves the endpoint if it passes the replay check. -/
lemma receive_forged (peer : Peer) (st : Store) (endpoint : OutboundSender) {b : Bool}
    {e : NoiseError}
    (hb : session.canAccept st.heap packet.counter = .ret b)
    (hforged : session.decryptData C packet = .error e) :
    ∃ evs, peer.receive C st endpoint packet session =
      .ret (st, if b then peer.updateEndpoint endpoint else peer, evs) := by
  cases b with
  | false => exact ⟨[], by simp [receive, hb]⟩
  | true =>
    refine ⟨[.passed peer.pubKey session packet.counter endpoint], ?_⟩
    simp [receive, hb, hforged]
    rfl

/-- Handling a packet that cannot be decrypted touches nothing exactly if the session is not waiting
to be promoted, and the packet is a replay or comes from where the peer is. -/
lemma handleTransportData_forged (peer : Peer) (env : Env) (endpoint : OutboundSender) {b : Bool}
    {e : NoiseError}
    (hb : session.canAccept st.heap packet.counter = .ret b)
    (hforged : session.decryptData C packet = .error e) :
    ∃ st' peer' evs, peer.handleTransportData C st env endpoint packet session =
        .ret (st', peer', evs) ∧
      (Untouched st peer session st' peer' ↔
        (∀ next, peer.sessions.next = some next → next.senderIndex ≠ session.senderIndex) ∧
          (b = true → peer.endpoint = some endpoint)) ∧
      (Untouched st peer session st' peer' →
        st' = st ∧ peer' = peer.countInbound packet.packetLen) := by
  rcases peer.promote_cases st env packet session with ⟨hne, hp⟩ | ⟨n, t, hn, hi, -, -, hp⟩
  · obtain ⟨evs, hr⟩ :=
      receive_forged (peer.countInbound packet.packetLen) st endpoint hb hforged
    refine ⟨_, _, [] ++ evs,
      by simp only [handleTransportData, hp, Outcome.ret_bind, hr]; rfl, ?_, ?_⟩
    · constructor
      · rintro h
        refine ⟨hne, ?_⟩
        rintro rfl
        exact h.endpoint.symm
      · rintro ⟨-, hep⟩
        cases b with
        | false => exact ⟨rfl, rfl, rfl, rfl, rfl⟩
        | true => exact ⟨(hep rfl).symm, rfl, rfl, rfl, rfl⟩
    · intro h
      refine ⟨rfl, ?_⟩
      cases b with
      | false => rfl
      | true =>
        show { peer.countInbound packet.packetLen with endpoint := some endpoint } = _
        rw [show some endpoint = peer.endpoint from h.endpoint]
        rfl
  · generalize hpeer : Peer.completed _ _ _ = peer₁ at hp
    have hnext : peer₁.sessions.next = none := by
      rw [← hpeer]
      rfl
    obtain ⟨evs, hr⟩ := receive_forged peer₁ { st with index := t } endpoint hb hforged
    -- the slot of the next session is empty now
    have touched : ∀ {peer'}, peer' = (if b then peer₁.updateEndpoint endpoint else peer₁) →
        ¬ Untouched st peer session { st with index := t } peer' := by
      rintro peer' rfl h
      have hslots := h.slots
      have : (if b then peer₁.updateEndpoint endpoint else peer₁).sessions.next = none := by
        cases b <;> exact hnext
      rw [hslots, hn] at this
      cases this
    refine ⟨_, _, [.installed peer.pubKey session] ++ evs,
      by simp only [handleTransportData, hp, Outcome.ret_bind, hr]; rfl, ?_, ?_⟩
    · exact iff_of_false (touched rfl) fun h => h.1 n hn hi
    · exact fun h => absurd h (touched rfl)

end Peer

namespace Device

variable {tr : List Event} {d : Device}

/-- **When a forged data packet has no effect.** In every state that a device reaches, a peer that
handles a data packet which its session cannot decrypt leaves the endpoint, the slots, the index,
the handshake monitor and the replay filter as they are, and then changes nothing but the receive
counters, exactly if the session is not waiting in the `next` slot, and the counter is turned away
by the filter or the packet comes from the endpoint of the peer. -/
theorem forged_untouched_iff (C : Crypto) (privateKey : Key) (start : UInt32)
    (run : d.Reaches C privateKey start (fun _ _ => True) tr) {p : Key} {n : PeerNode}
    (_ : d.peers p = some n) (env : Env) (endpoint : OutboundSender) (packet : TransportData)
    (session : Session) {e : NoiseError} (hforged : session.decryptData C packet = .error e) :
    ∃ st' peer' evs, n.peer.handleTransportData C d.store env endpoint packet session =
        .ret (st', peer', evs) ∧
      (Peer.Untouched d.store n.peer session st' peer' ↔
        (∀ next, n.peer.sessions.next = some next → next.senderIndex ≠ session.senderIndex) ∧
          (session.canAccept d.store.heap packet.counter = .ret true →
            n.peer.endpoint = some endpoint)) ∧
      (Peer.Untouched d.store n.peer session st' peer' →
        st' = d.store ∧ peer' = n.peer.countInbound packet.packetLen) := by
  have hrem : d.store.heap.Remembers tr := run.filters.remembers
  obtain ⟨b, hb, -⟩ := hrem.canAccept session packet.counter
  obtain ⟨st', peer', evs, hh, hiff, hsame⟩ :=
    n.peer.handleTransportData_forged env endpoint hb hforged
  refine ⟨st', peer', evs, hh, hiff.trans ?_, hsame⟩
  have : (session.canAccept d.store.heap packet.counter = .ret true) ↔ b = true := by
    rw [hb]
    simp
  rw [this]

/-- A data packet for the session of `Sample.answer` that nobody has sealed. -/
def forged : TransportData := ⟨Sample.start, 0, []⟩

/-- The peer and the session that handle the forged packet, and what comes of it when it is received
from `endpoint`. -/
def handleForged (d : Device) (endpoint : OutboundSender) :
    Option (PeerNode × Session × Outcome (Store × Peer × List Event)) :=
  match d.peers Sample.remote, d.store.index.getByIndex forged.receiverIndex with
  | some n, some s =>
    some (n, s, n.peer.handleTransportData .sample d.store (Sample.env 0) endpoint forged s)
  | _, _ => none

/-- What is evaluated for the forged packet. -/
lemma handleForged_eq_some {endpoint : OutboundSender} {n : PeerNode} {s : Session}
    {o : Outcome (Store × Peer × List Event)} (h : handleForged d endpoint = some (n, s, o)) :
    d.peers Sample.remote = some n ∧ d.store.index.getByIndex forged.receiverIndex = some s ∧
      n.peer.handleTransportData .sample d.store (Sample.env 0) endpoint forged s = o := by
  unfold handleForged at h
  split at h
  · next hn hs =>
    cases h
    exact ⟨hn, hs, rfl⟩
  · cases h

/-- No session is waiting, and the packet comes from the endpoint of the peer. -/
def forgedSpared (r : Device × List Event) : Bool :=
  match handleForged r.1 Sample.endpoint with
  | some (n, s, _) =>
    s.decryptData .sample forged = .error .decryption ∧ n.peer.sessions.next = none ∧
      n.peer.endpoint = some Sample.endpoint
  | none => false

/-- Once the session is the current one, a forged packet from the endpoint of the peer changes
nothing but the receive counters. -/
theorem forged_untouched_sample : ∃ (d : Device) (tr : List Event) (n : PeerNode) (s : Session)
    (evs : List Event),
    d.Reaches .sample Sample.localKey Sample.start (fun _ _ => True) tr ∧
      d.peers Sample.remote = some n ∧
      d.store.index.getByIndex forged.receiverIndex = some s ∧
      s.decryptData .sample forged = .error .decryption ∧
      n.peer.handleTransportData .sample d.store (Sample.env 0) Sample.endpoint forged s =
        .ret (d.store, n.peer.countInbound forged.packetLen, evs) := by
  obtain ⟨d, tr, run, check⟩ := exists_run_of_exec (step .sample)
    (Sample.answer ++ [.receive Sample.endpoint (Sample.packet 0 [1, 2, 3]) (Sample.env 0),
      Sample.inbound, Sample.inbound]) Sample.device forgedSpared (by decide +kernel)
  simp only [forgedSpared] at check
  split at check
  · next n s o hh =>
    obtain ⟨hn, hs, -⟩ := handleForged_eq_some hh
    obtain ⟨hforged, hnext, hep⟩ := of_decide_eq_true check
    obtain ⟨st', peer', evs, hr, hiff, hsame⟩ := forged_untouched_iff _ _ _ run hn (Sample.env 0)
      Sample.endpoint forged s hforged
    obtain ⟨rfl, rfl⟩ := hsame (hiff.mpr ⟨fun next h => by simp [hnext] at h, fun _ => hep⟩)
    exact ⟨d, tr, n, s, evs, run, hn, hs, hforged, hr⟩
  · cases check

/-- The endpoint moves and the session becomes the current one. -/
def forgedMoves (r : Device × List Event) : Bool :=
  match handleForged r.1 Sample.elsewhere with
  | some (n, s, .ret (_, peer', _)) =>
    s.decryptData .sample forged = .error .decryption ∧ n.peer.endpoint = some Sample.endpoint ∧
      peer'.endpoint = some Sample.elsewhere ∧ n.peer.sessions.current = none ∧
      peer'.sessions.current = some s
  | _ => false

/-- **A forged packet has an effect.** After the device has answered an initiation of the peer, an
attacker sends a packet with the index of the new session. It cannot be decrypted, but the session
becomes the current one and the endpoint of the peer is set to where the attacker is. -/
theorem forged_promotes : ∃ (d : Device) (tr : List Event) (n : PeerNode) (s : Session)
    (st' : Store) (peer' : Peer) (evs : List Event),
    d.Reaches .sample Sample.localKey Sample.start (fun _ _ => True) tr ∧
      d.peers Sample.remote = some n ∧
      d.store.index.getByIndex forged.receiverIndex = some s ∧
      s.decryptData .sample forged = .error .decryption ∧
      n.peer.handleTransportData .sample d.store (Sample.env 0) Sample.elsewhere forged s =
        .ret (st', peer', evs) ∧
      n.peer.endpoint = some Sample.endpoint ∧ peer'.endpoint = some Sample.elsewhere ∧
      n.peer.sessions.current = none ∧ peer'.sessions.current = some s := by
  obtain ⟨d, tr, run, check⟩ := exists_run_of_exec (step .sample) Sample.answer Sample.device
    forgedMoves (by decide +kernel)
  simp only [forgedMoves] at check
  split at check
  · next n s st' peer' evs hh =>
    obtain ⟨hn, hs, hh⟩ := handleForged_eq_some hh
    obtain ⟨hforged, rest⟩ := of_decide_eq_true check
    exact ⟨d, tr, n, s, st', peer', evs, run, hn, hs, hforged, hh, rest⟩
  · cases check

end Device

/-! ## Initiations that are replayed -/

/-- The initiation that was answered. -/
def Event.answered? : Event → Option IncomingInitiation
  | .responded _ initiation _ _ => some initiation
  | _ => none

/-- An initiation of the same peer, with a timestamp that is no smaller, has been answered. -/
def Outdated (tr : List Event) (inc : IncomingInitiation) : Prop :=
  ∃ inc' ∈ tr.filterMap Event.answered?, inc'.staticPublicKey = inc.staticPublicKey ∧
    Timestamp.le inc.timestamp inc'.timestamp = true

instance (tr : List Event) (inc : IncomingInitiation) : Decidable (Outdated tr inc) :=
  inferInstanceAs (Decidable (∃ inc' ∈ tr.filterMap Event.answered?, _))

/-- Every initiation that is handled is answered. -/
lemma Peer.sent_of_handleHandshakeInitiation {C : Crypto} {peer : Peer} {st : Store} {env : Env}
    {endpoint : OutboundSender} {inc : IncomingInitiation} {r : Store × Peer × List Event}
    (h : peer.handleHandshakeInitiation C st env endpoint inc = .ret r) :
    ∃ buf, .sent endpoint buf ∈ r.2.2 := by
  obtain ⟨x, hx, h⟩ := Outcome.bind_eq_ret.mp h
  obtain ⟨out, payload, -, s, -, rfl⟩ := respond_eq_ret.mp hx
  obtain ⟨⟨st', peer'⟩, -, h⟩ := Outcome.bind_eq_ret.mp h
  obtain ⟨sent, hs, h⟩ := Outcome.bind_eq_ret.mp h
  cases h
  unfold sendUnwrap at hs
  split_ifs at hs
  cases hs
  exact ⟨payload, by simp⟩

namespace Device

variable {tr : List Event} {d : Device}

/-- What handling an initiation of the peer `n` should leave alone. -/
def Unanswered (C : Crypto) (d : Device) (env : Env) (endpoint : OutboundSender) (payload : Bytes)
    (p : Key) (n : PeerNode) : Prop :=
  ∃ d' n' evs, d.handle C env endpoint payload = .ret (d', evs) ∧ d'.peers p = some n' ∧
    n'.peer.endpoint = n.peer.endpoint ∧ n'.peer.sessions = n.peer.sessions ∧
    d'.store.index = d.store.index ∧ ∀ ep buf, .sent ep buf ∉ evs

/-- **When a replayed initiation has no effect.** In every state that a device reaches, an
initiation whose timestamp is not greater than that of one that was answered before leaves the
endpoint, the slots and the index alone and is not answered, exactly if its code is invalid: the
timestamp is never looked at.

**Proof sketch.** With an invalid code the packet is dropped. With a valid one it is staged, and
handling it sends a response. -/
theorem outdated_unanswered_iff (C : Crypto) (privateKey : Key) (start : UInt32)
    (_ : d.Reaches C privateKey start (fun _ _ => True) tr) (env : Env) (endpoint : OutboundSender)
    {payload : Bytes} {packet : HandshakeInitiation} {inc : IncomingInitiation} {n : PeerNode}
    (hparse : Message.parse payload = .ret (.ok (.handshakeInitiation packet)))
    (hinc : IncomingInitiation.parse C d.secret packet = .ret (.ok inc)) (_ : Outdated tr inc)
    (hn : d.peers inc.staticPublicKey = some n) :
    d.Unanswered C env endpoint payload inc.staticPublicKey n ↔
      d.cookie.validateMac1 C payload = .ret false := by
  have hshake := Message.isHandshake_of_parse hparse (.inl rfl)
  have hne : payload ≠ [] := by
    rintro rfl
    cases hshake
  have hdispatch : d.dispatch C endpoint payload =
      .ret (some (inc.staticPublicKey, .handshakeInitiation endpoint inc)) := by
    simp [dispatch, hparse, hinc, getByKey, hn]
  rcases screen_cases C d env endpoint hne with ⟨hb, -⟩ | ⟨-, hv, hs⟩ | ⟨-, hv, hs⟩
  · rw [hshake] at hb
    cases hb
  · have htick : d.tickInbound C env endpoint payload =
        .ret (d.cookie, some (inc.staticPublicKey, .handshakeInitiation endpoint inc), []) := by
      simp [tickInbound, hs, hdispatch]
    refine iff_of_false ?_ (by simp [hv])
    rintro ⟨d', n', evs, hh, -, -, -, -, hsent⟩
    rw [handle, htick] at hh
    simp only [Outcome.ret_bind, hn] at hh
    obtain ⟨⟨st, m, evs'⟩, hr, hh⟩ := Outcome.bind_eq_ret.mp hh
    cases hh
    obtain ⟨r, hanswer, hm⟩ := Outcome.bind_eq_ret.mp hr
    cases hm
    obtain ⟨buf, hbuf⟩ := Peer.sent_of_handleHandshakeInitiation hanswer
    exact hsent endpoint buf (by simpa using hbuf)
  · have hh : d.handle C env endpoint payload = .ret (d, []) := by
      simp [handle, tickInbound, hs]
    exact iff_of_true ⟨d, n, [], hh, hn, rfl, rfl, rfl, by simp⟩ hv

/-- The initiation in a datagram, and the peer it comes from, if it is outdated after the run. -/
def outdated? (r : Device × List Event) (payload : Bytes) :
    Option (HandshakeInitiation × IncomingInitiation × PeerNode) :=
  match Message.parse payload with
  | .ret (.ok (.handshakeInitiation packet)) =>
    match IncomingInitiation.parse .sample r.1.secret packet with
    | .ret (.ok inc) =>
      match r.1.peers inc.staticPublicKey with
      | some n => if Outdated r.2 inc then some (packet, inc, n) else none
      | none => none
    | _ => none
  | _ => none

/-- What is evaluated for the outdated initiation. -/
lemma outdated?_eq_some {payload : Bytes} {packet : HandshakeInitiation}
    {inc : IncomingInitiation} {n : PeerNode}
    (h : outdated? (d, tr) payload = some (packet, inc, n)) :
    Message.parse payload = .ret (.ok (.handshakeInitiation packet)) ∧
      IncomingInitiation.parse .sample d.secret packet = .ret (.ok inc) ∧ Outdated tr inc ∧
      d.peers inc.staticPublicKey = some n := by
  unfold outdated? at h
  split at h
  · next hp =>
    split at h
    · next hi =>
      split at h
      · next hn =>
        split_ifs at h with ho
        cases h
        exact ⟨hp, hi, ho, hn⟩
      · cases h
    · cases h
  · cases h

/-- The initiation of the peer without its codes. -/
def uncoded : Bytes := Sample.initiation.2.take 116 ++ List.replicate 32 0

/-- An outdated initiation whose code is invalid is dropped. -/
theorem outdated_unanswered_sample : ∃ (d : Device) (tr : List Event) (inc : IncomingInitiation)
    (n : PeerNode),
    d.Reaches .sample Sample.localKey Sample.start (fun _ _ => True) tr ∧ Outdated tr inc ∧
      d.peers inc.staticPublicKey = some n ∧ d.cookie.validateMac1 .sample uncoded = .ret false ∧
      d.Unanswered .sample (Sample.env 0) Sample.elsewhere uncoded inc.staticPublicKey n := by
  obtain ⟨d, tr, run, check⟩ := exists_run_of_exec (step .sample) Sample.answer Sample.device
    (fun r => (outdated? r uncoded).isSome &&
      decide (r.1.cookie.validateMac1 .sample uncoded = .ret false))
    (by decide +kernel)
  obtain ⟨hsome, hv⟩ := Bool.and_eq_true_iff.mp check
  obtain ⟨⟨packet, inc, n⟩, hr⟩ := Option.isSome_iff_exists.mp hsome
  obtain ⟨hparse, hinc, hout, hn⟩ := outdated?_eq_some hr
  have hv := of_decide_eq_true hv
  exact ⟨d, tr, inc, n, run, hout, hn, hv, (outdated_unanswered_iff _ _ _ run (Sample.env 0)
    Sample.elsewhere hparse hinc hout hn).mpr hv⟩

/-- The initiation is answered to `elsewhere`, where the endpoint of the peer is now, and its
session takes the place of the one before. -/
def outdatedAnswered (r : Device × List Event) : Bool :=
  match outdated? r Sample.initiation.2 with
  | some (_, inc, n) =>
    match r.1.handle .sample (Sample.env 66) Sample.elsewhere Sample.initiation.2 with
    | .ret (d', evs) =>
      match d'.peers inc.staticPublicKey with
      | some n' =>
        n.peer.endpoint = some Sample.endpoint ∧ n'.peer.endpoint = some Sample.elsewhere ∧
          n.peer.sessions.next ≠ n'.peer.sessions.next ∧
          n'.peer.sessions.previous = n.peer.sessions.next ∧
          evs.any fun
            | .sent ep _ => ep = Sample.elsewhere
            | _ => false
      | none => false
    | .panic => false
  | none => false

/-- **A replayed initiation is answered.** After the device has answered an initiation of the peer,
an attacker sends a copy of it from elsewhere. The device answers it to where the attacker is, sets
the endpoint of the peer to that place, and puts a new session into the slots. -/
theorem outdated_answered : ∃ (d d' : Device) (tr evs : List Event) (packet : HandshakeInitiation)
    (inc : IncomingInitiation) (n n' : PeerNode),
    d.Reaches .sample Sample.localKey Sample.start (fun _ _ => True) tr ∧
      Message.parse Sample.initiation.2 = .ret (.ok (.handshakeInitiation packet)) ∧
      IncomingInitiation.parse .sample d.secret packet = .ret (.ok inc) ∧ Outdated tr inc ∧
      d.peers inc.staticPublicKey = some n ∧
      d.handle .sample (Sample.env 66) Sample.elsewhere Sample.initiation.2 = .ret (d', evs) ∧
      d'.peers inc.staticPublicKey = some n' ∧ n.peer.endpoint = some Sample.endpoint ∧
      n'.peer.endpoint = some Sample.elsewhere ∧
      n.peer.sessions.next ≠ n'.peer.sessions.next ∧
      n'.peer.sessions.previous = n.peer.sessions.next ∧
      ∃ buf, .sent Sample.elsewhere buf ∈ evs := by
  obtain ⟨d, tr, run, check⟩ := exists_run_of_exec (step .sample) Sample.answer Sample.device
    outdatedAnswered (by decide +kernel)
  unfold outdatedAnswered at check
  -- the bytes of the initiation do not matter from here on
  generalize Sample.initiation.2 = payload at check ⊢
  split at check
  · next packet inc n hr =>
    obtain ⟨hparse, hinc, hout, hn⟩ := outdated?_eq_some hr
    split at check
    · next d' evs hh =>
      split at check
      · next n' hn' =>
        obtain ⟨hep, hep', hnext, hprev, hsent⟩ := of_decide_eq_true check
        refine ⟨d, d', tr, evs, packet, inc, n, n', run, hparse, hinc, hout, hn, hh, hn', hep, hep',
          hnext, hprev, ?_⟩
        obtain ⟨e, he, hs⟩ := List.any_eq_true.mp hsent
        cases e with
        | sent ep buf =>
          cases of_decide_eq_true hs
          exact ⟨buf, he⟩
        | _ => cases hs
      · cases check
    · cases check
  · cases check

end Device

end Vlink
