import Vlink.Device.System
import Vlink.Noise.Built
import Vlink.Noise.Grammar

set_option autoImplicit false

/-!
# Answers to initiations

`tick_inbound` of a device hands an initiation to the peer that it names, and `loop_inbound` of the
peer answers it, to where it came from. Whoever can make a device send more than was received could
use it against others: the source of a datagram is easily forged. Nothing of the kind happens on the
inbound path. A peer answers a part of the initiations that were handed to it, in their order and
each at most once, and with packets that are shorter.

## Main definitions

* `Vlink.Exchange` — a datagram that came, or that was sent on the inbound path.
* `Vlink.Device.exchanges` — what is recorded of a step.
* `Vlink.asks`, `Vlink.answers` — the initiations in a record, and what was sent.
* `Vlink.PeerNode.owed` — the initiations that a peer has yet to answer.

## Main results

* `Vlink.PeerNode.inboundStep_owed` — a step of `loop_inbound` answers the first initiation, or
  drops it, or leaves all of them.
* `Vlink.Device.answers_bounded` — what is sent on the inbound path, in every run.
-/

namespace Vlink

/-! ## What is recorded -/

/-- An initiation or a response: the peer that it concerns, where it came from or went to, and the
index that the initiator has chosen. -/
abbrev Ticket := Key × OutboundSender × Option UInt32

/-- The index of the initiator, in an initiation. -/
def initiatorOf (payload : Bytes) : Option UInt32 :=
  match Message.parse payload with
  | .ret (.ok (.handshakeInitiation packet)) => some packet.senderIndex
  | _ => none

/-- The index of the initiator, in a response. -/
def respondedTo (packet : Bytes) : Option UInt32 :=
  match Message.parse packet with
  | .ret (.ok (.handshakeResponse packet)) => some packet.receiverIndex
  | _ => none

/-- The index can be read from an initiation. -/
lemma initiatorOf_eq {payload : Bytes} {packet : HandshakeInitiation}
    (h : Message.parse payload = .ret (.ok (.handshakeInitiation packet))) :
    initiatorOf payload = some packet.senderIndex := by
  rw [initiatorOf, h]

/-- The index can be read from a response. -/
lemma respondedTo_encode (packet : HandshakeResponse) :
    respondedTo packet.encode = some packet.receiverIndex := by
  rw [respondedTo, Message.parse_encode_response]

/-- The length of an initiation. -/
lemma length_of_initiatorOf {payload : Bytes} (h : (initiatorOf payload).isSome) :
    payload.length = handshakeInitiationPacketSize := by
  unfold initiatorOf at h
  split at h
  · next packet hparse =>
    rw [Message.parse_eq_ok.mp hparse]
    simp [Message.bytes, HandshakeInitiation.encode, handshakeInitiationPacketSize]
  · cases h

/-- The length of a response. -/
lemma length_of_respondedTo {packet : Bytes} (h : (respondedTo packet).isSome) :
    packet.length = handshakeResponsePacketSize := by
  unfold respondedTo at h
  split at h
  · next response hparse =>
    rw [Message.parse_eq_ok.mp hparse]
    simp [Message.bytes, HandshakeResponse.encode, handshakeResponsePacketSize]
  · cases h

/-- What happens on the inbound path. -/
inductive Exchange where
  /-- A datagram came; if it is an initiation, then it is handed to the peer `p`. -/
  | received (p : Option Key) (endpoint : OutboundSender) (payload : Bytes)
  /-- A packet was sent, by `loop_inbound` of the peer `p`, or by that of the device. -/
  | sent (p : Option Key) (endpoint : OutboundSender) (packet : Bytes)

/-- An initiation that is handed to a peer. -/
def Exchange.ask? : Exchange → Option Ticket
  | .received (some p) endpoint payload => some (p, endpoint, initiatorOf payload)
  | _ => none

/-- A packet that a peer sends. -/
def Exchange.answer? : Exchange → Option Ticket
  | .sent (some p) endpoint packet => some (p, endpoint, respondedTo packet)
  | _ => none

/-- The initiations that were handed to peers. -/
def asks (log : List Exchange) : List Ticket := log.filterMap Exchange.ask?

/-- The packets that peers have sent on the inbound path. -/
def answers (log : List Exchange) : List Ticket := log.filterMap Exchange.answer?

/-- The initiations in a longer log. -/
@[simp] lemma asks_append (log log' : List Exchange) :
    asks (log ++ log') = asks log ++ asks log' := List.filterMap_append

/-- The answers in a longer log. -/
@[simp] lemma answers_append (log log' : List Exchange) :
    answers (log ++ log') = answers log ++ answers log' := List.filterMap_append

/-- What the peer `p` sends are its answers. -/
lemma answers_map_sent (p : Key) (sent : List (OutboundSender × Bytes)) :
    answers (sent.map fun x => .sent (some p) x.1 x.2) =
      sent.map fun x => (p, x.1, respondedTo x.2) := by
  induction sent with
  | nil => rfl
  | cons x sent ih => exact congrArg _ ih

/-- Sending asks for nothing. -/
lemma asks_map_sent (p : Key) (sent : List (OutboundSender × Bytes)) :
    asks (sent.map fun x => .sent (some p) x.1 x.2) = [] := by
  induction sent with
  | nil => rfl
  | cons x sent ih => exact ih

/-- The tickets of the peer `p`. -/
def ofPeer (p : Key) (tickets : List Ticket) : List Ticket := tickets.filter (·.1 = p)

/-- The tickets of a peer in a longer list. -/
@[simp] lemma ofPeer_append (p : Key) (l l' : List Ticket) :
    ofPeer p (l ++ l') = ofPeer p l ++ ofPeer p l' := List.filter_append ..

/-- The number of bytes that came from an endpoint. -/
def Exchange.bytesFrom (endpoint : OutboundSender) : Exchange → ℕ
  | .received _ source payload => if source = endpoint then payload.length else 0
  | .sent _ _ _ => 0

/-- The number of bytes that were sent to an endpoint. -/
def Exchange.bytesTo (endpoint : OutboundSender) : Exchange → ℕ
  | .received _ _ _ => 0
  | .sent _ target packet => if target = endpoint then packet.length else 0

/-- The number of bytes that came from an endpoint. -/
def bytesFrom (endpoint : OutboundSender) (log : List Exchange) : ℕ :=
  (log.map (·.bytesFrom endpoint)).sum

/-- The number of bytes that were sent to an endpoint on the inbound path. -/
def bytesTo (endpoint : OutboundSender) (log : List Exchange) : ℕ :=
  (log.map (·.bytesTo endpoint)).sum

namespace Device

variable (C : Crypto)

/-- The peer that a datagram is handed to, if it is an initiation. -/
def asked (d : Device) (env : Env) (endpoint : OutboundSender) (payload : Bytes) : Option Key :=
  match d.tickInbound C env endpoint payload with
  | .ret (_, some (p, .handshakeInitiation _ _), _) => some p
  | _ => none

/-- What a step sends. -/
def sends (d : Device) (a : Action) : List (OutboundSender × Bytes) :=
  match d.step C a with
  | some (_, evs) => evs.filterMap Event.sent?
  | none => []

/-- What is recorded of a step. -/
def exchanges (d : Device) : Action → List Exchange
  | .receive endpoint payload env =>
    .received (d.asked C env endpoint payload) endpoint payload ::
      (d.sends C (.receive endpoint payload env)).map fun x => .sent none x.1 x.2
  | .inbound p env => (d.sends C (.inbound p env)).map fun x => .sent (some p) x.1 x.2
  | _ => []

end Device

/-! ## What a peer has yet to answer -/

/-- The initiation that waits in the channel of a peer. -/
def InboundEvent.owed (p : Key) : InboundEvent → List Ticket
  | .handshakeInitiation endpoint initiation => [(p, endpoint, some initiation.index)]
  | _ => []

/-- What waits has an index. -/
lemma InboundEvent.isSome_of_mem_owed {p : Key} {e : InboundEvent} {t : Ticket}
    (h : t ∈ e.owed p) : t.2.2.isSome := by
  cases e with
  | handshakeInitiation endpoint inc =>
    rw [List.mem_singleton.mp h]
    rfl
  | handshakeResponse _ _ _ | cookieReply _ _ _ | transportData _ _ _ => cases h

/-- The response that the inbound task has in hand. -/
def InboundTask.owed (p : Key) : InboundTask → List Ticket
  | .responded endpoint _ packet => [(p, endpoint, respondedTo packet)]
  | .prepared endpoint packet => [(p, endpoint, respondedTo packet)]
  | .replying endpoint packet => [(p, endpoint, respondedTo packet)]
  | _ => []

namespace PeerNode

/-- The initiations that the peer has yet to answer. -/
def owed (p : Key) (n : PeerNode) : List Ticket :=
  n.inboundTask.owed p ++ n.inbox.flatMap (InboundEvent.owed p)

variable {C : Crypto} {p : Key} {n n' : PeerNode} {st st' : Store} {env : Env} {evs : List Event}

/-- The packets that a step sends, as answers. -/
def answered (p : Key) (evs : List Event) : List Ticket :=
  (evs.filterMap Event.sent?).map fun x => (p, x.1, respondedTo x.2)

/-- The response to an initiation names its index. -/
lemma respondedTo_of_respond (hC : C.Lawful) {peer peer' : Peer} {inc : IncomingInitiation}
    {session : Session} {packet : Bytes}
    (h : peer.respond C st env inc = .ret (st', peer', some (session, packet), evs)) :
    respondedTo packet = some inc.index := by
  obtain ⟨out, payload, hnew, s, -, heq⟩ := Peer.respond_eq_ret.mp h
  obtain ⟨out', response, -, hindex, hbuilt⟩ := OutgoingResponse.new_eq hC inc st.index.index
    peer.handshake.secret env.ephemeral
  rw [hbuilt] at hnew
  cases hnew
  cases heq
  rw [respondedTo_encode, ← hindex]
  rfl

/-- A section that draws no index sends nothing. -/
lemma answered_of_inner (p : Key) (h : ∀ e ∈ evs, e.inner = true) : answered p evs = [] := by
  have hsent : evs.filterMap Event.sent? = [] := List.filterMap_eq_nil_iff.mpr fun e he => by
    have hin := h e he
    cases e <;> first | rfl | cases hin
  rw [answered, hsent]
  rfl

/-- Responding sends nothing yet. -/
lemma answered_respond (p : Key) {peer peer' : Peer} {inc : IncomingInitiation}
    {reply : Option (Session × Bytes)}
    (h : peer.respond C st env inc = .ret (st', peer', reply, evs)) : answered p evs = [] := by
  obtain ⟨out, payload, -, s, -, heq⟩ := Peer.respond_eq_ret.mp h
  cases heq
  rfl

/-- **A step of `loop_inbound`.** It answers the first initiation, or drops it, or leaves all of
them for later.

**Proof sketch.** The initiation that is taken from the channel becomes the response in hand, which
names its index, and stays in hand until it is sent. Only the step that sends it sends at all. -/
theorem inboundStep_owed (hC : C.Lawful) (p : Key)
    (h : n.inboundStep C st env = some (.ret (st', n', evs))) :
    (answered p evs ++ n'.owed p).Sublist (n.owed p) := by
  cases inboundStep_move h with
  | @respond _ _ _ _ _ reply _ ht hbox hr =>
    rw [answered_respond p hr]
    cases reply with
    | none => simp [owed, InboundTask.owed, ht, hbox, List.flatMap_cons]
    | some r =>
      have hindex := respondedTo_of_respond hC hr
      simp [owed, InboundTask.owed, InboundEvent.owed, ht, hbox, List.flatMap_cons, hindex]
  | @finalize _ _ _ _ _ _ found _ ht hbox hf =>
    rw [answered_of_inner p (Peer.finalize_inner hf)]
    cases found <;> simp [owed, InboundTask.owed, InboundEvent.owed, ht, hbox]
  | promote ht hbox hp =>
    rw [answered_of_inner p (Peer.promote_inner hp)]
    simp [owed, InboundTask.owed, InboundEvent.owed, ht, hbox]
  | @completeUninit _ _ done _ _ _ ht hc =>
    rw [answered_of_inner p (Peer.completeUninit_inner hc)]
    cases done <;> simp [owed, InboundTask.owed, ht]
  | receive ht hr =>
    rw [answered_of_inner p (Peer.receive_inner hr)]
    simp [owed, InboundTask.owed, ht]
  | cookie ht hbox => simp [owed, answered, InboundTask.owed, InboundEvent.owed, ht, hbox]
  -- `reply` is the only step that sends
  | _ ht => simp [owed, answered, InboundTask.owed, Event.sent?, ht]

/-- The other tasks, and calls from other parts of the program, do not change what a peer has yet
to answer. -/
lemma owed_of_moves {q : Key} {a : Action} (h : n.Moves C st q a n') :
    (∃ endpoint payload env, a = .receive endpoint payload env) ∨ (∃ env, a = .inbound q env) ∨
      ∀ p, n'.owed p = n.owed p := by
  cases h with
  | staged e => exact .inl ⟨_, _, _, rfl⟩
  | inbound _ | inboundPanic _ => exact .inr (.inl ⟨_, rfl⟩)
  | handshake h =>
    obtain ⟨peer, task, rfl, -⟩ := handshakeStep_writes h
    exact .inr (.inr fun _ => rfl)
  | outbound h =>
    obtain ⟨peer, outbox, task, rfl, -⟩ := outboundStep_writes h
    exact .inr (.inr fun _ => rfl)
  | keepalive h =>
    refine .inr (.inr fun p => ?_)
    unfold keepaliveStep at h
    split at h
    · split_ifs at h <;> cases h <;> rfl
    · cases h
  | routed | handshakePanic _ | setOnline | updateEndpoint | clearEndpoint =>
    exact .inr (.inr fun _ => rfl)

end PeerNode

/-! ## Steps of the device -/

namespace Device

variable {C : Crypto} {d d' : Device} {a : Action} {evs : List Event}

/-- The initiations that the peer `p` has yet to answer. -/
def owed (d : Device) (p : Key) : List Ticket := (d.peers p).elim [] (PeerNode.owed p)

/-- What a peer of the device owes. -/
lemma owed_of_some {p : Key} {n : PeerNode} (hn : d.peers p = some n) : d.owed p = n.owed p := by
  rw [owed, hn]
  rfl

/-- A peer that does not change owes the same. -/
lemma owed_of_peers {p : Key} (h : d'.peers p = d.peers p) : d'.owed p = d.owed p := by
  rw [owed, owed, h]

/-- One peer is replaced. -/
lemma owed_update {p q : Key} {n' : PeerNode}
    (h : d'.peers = Function.update d.peers q (some n')) :
    d'.owed p = if p = q then n'.owed p else d.owed p := by
  by_cases hp : p = q
  · subst hp
    simp [owed, h]
  · simp [owed, h, hp]

/-- What a step sends is in its events. -/
lemma sends_eq (h : d.step C a = some (d', evs)) : d.sends C a = evs.filterMap Event.sent? := by
  rw [sends, h]

/-- A peer that is inserted owes nothing new. -/
lemma insertPeer_owed (d : Device) (cfg : PeerConfig) (now : Instant) (p : Key) :
    (d.insertPeer C cfg now).owed p = d.owed p := by
  by_cases hp : p = cfg.publicKey
  · subst hp
    cases hn : d.peers cfg.publicKey with
    | none => simp [insertPeer, owed, hn, PeerNode.owed, InboundTask.owed]
    | some n => simp [insertPeer, owed, hn]
  · simp [insertPeer, owed, hp]

section Receive

variable {endpoint : OutboundSender} {payload : Bytes} {env : Env}

/-- What is staged for a peer adds what is recorded of the datagram. -/
lemma owed_of_tickInbound {cookie : Cookie} {q : Key} {e : InboundEvent} {sent : List Event}
    (h : d.tickInbound C env endpoint payload = .ret (cookie, some (q, e), sent)) :
    e.owed q = asks [.received (d.asked C env endpoint payload) endpoint payload] := by
  rcases dispatch_eq_some (tickInbound_eq_some h).1 with
    ⟨packet, inc, hparse, hinc, rfl, rfl⟩ | ⟨packet, s, -, rfl⟩ | ⟨packet, s, rfl⟩ |
    ⟨packet, s, -, -, -, rfl⟩
  · rw [asked, h]
    simp [asks, Exchange.ask?, InboundEvent.owed, initiatorOf_eq hparse,
      IncomingInitiation.index_of_parse hinc]
  all_goals
    rw [asked, h]
    rfl

/-- The loop for what is received sends nothing: the rate limit is never reached. -/
lemma receive_sent (h : d.step C (.receive endpoint payload env) = some (d', evs)) :
    evs.filterMap Event.sent? = [] := by
  rw [step] at h
  split_ifs at h
  split at h
  · cases h
    rfl
  · next cookie sent ht =>
    cases h
    rw [(tickInbound_eq_none ht).2]
    rfl
  · next cookie q e sent ht =>
    obtain rfl : sent ++ (({ d with cookie } : Device).stageInbound q e).2 = evs :=
      congrArg Prod.snd (Option.some.inj h)
    rw [(tickInbound_eq_some ht).2.2]
    unfold stageInbound
    split
    · rfl
    · cases e <;> rfl

/-- An initiation waits at the peer that it was handed to. -/
lemma receive_owed (h : d.step C (.receive endpoint payload env) = some (d', evs)) (p : Key) :
    (d'.owed p).Sublist (d.owed p ++
      ofPeer p (asks [.received (d.asked C env endpoint payload) endpoint payload])) := by
  rw [step] at h
  split_ifs at h
  split at h
  · cases h
    exact List.sublist_append_left ..
  · cases h
    exact List.sublist_append_left ..
  · next cookie q e sent ht =>
    rw [← owed_of_tickInbound ht]
    obtain rfl : (({ d with cookie } : Device).stageInbound q e).1 = d' :=
      congrArg Prod.fst (Option.some.inj h)
    unfold stageInbound
    split
    · exact List.sublist_append_left ..
    · next n hn =>
      rw [owed_update (peers_setPeer _ q _)]
      split_ifs with hp
      · subst hp
        have hself : ofPeer p (e.owed p) = e.owed p := by
          cases e <;> simp [ofPeer, InboundEvent.owed]
        simp [hself, owed_of_some (d := d) hn, PeerNode.owed]
      · exact List.sublist_append_left ..

end Receive

/-- A panic of the inbound task drops what it had in hand. -/
lemma inbound_owed (hC : C.Lawful) {q : Key} {env : Env}
    (h : d.step C (.inbound q env) = some (d', evs)) (p : Key) :
    (ofPeer p (PeerNode.answered q evs) ++ d'.owed p).Sublist (d.owed p) := by
  rw [step, taskStep] at h
  split at h
  · cases h
  · next n hn =>
    have hown : d.owed q = n.owed q := owed_of_some hn
    split at h
    · cases h
    · cases h
      rw [owed_update (peers_setPeer _ q _)]
      have hnone : PeerNode.answered q [.panicked (some q)] = [] := rfl
      split_ifs with hp
      · subst hp
        rw [hnone, hown]
        exact List.sublist_append_right ..
      · rw [hnone]
        exact List.Sublist.refl _
    · next st' n' evs' hstep =>
      cases h
      rw [owed_update (peers_setPeer _ q _)]
      split_ifs with hp
      · subst hp
        rw [hown]
        refine List.Sublist.trans (List.Sublist.append_right ?_ _)
          (PeerNode.inboundStep_owed hC p hstep)
        exact List.filter_sublist
      · have hother : ofPeer p (PeerNode.answered q evs) = [] := by
          refine List.filter_eq_nil_iff.mpr fun t ht => ?_
          obtain ⟨x, -, rfl⟩ := List.mem_map.mp ht
          simpa using fun hq => hp hq.symm
        rw [hother]
        exact List.Sublist.refl _

/-- The other steps leave what is to be answered alone. -/
lemma owed_of_step (h : d.step C a = some (d', evs))
    (hr : ∀ endpoint payload env, a ≠ .receive endpoint payload env)
    (hi : ∀ q env, a ≠ .inbound q env) (p : Key) : d'.owed p = d.owed p := by
  cases step_effect h with
  | dropped _ _ => exact absurd rfl (hr _ _ _)
  | unrouted peers _ _ => exact owed_of_peers (congrFun peers p)
  | insertPeer cfg now => exact insertPeer_owed d cfg now p
  | @node _ q n n' _ hn peers _ _ moves =>
    rcases PeerNode.owed_of_moves moves with ⟨_, _, _, rfl⟩ | ⟨_, rfl⟩ | hkept
    · exact absurd rfl (hr _ _ _)
    · exact absurd rfl (hi _ _)
    · rw [owed_update peers]
      split_ifs with hp
      · subst hp
        rw [hkept, owed_of_some hn]
      · rfl

/-- **A step, with what is recorded of it.** What is answered, and what is still to be answered
afterwards, is a part of what was to be answered before and of what came. -/
lemma step_owed (hC : C.Lawful) (h : d.step C a = some (d', evs)) (p : Key) :
    (ofPeer p (answers (d.exchanges C a)) ++ d'.owed p).Sublist
      (d.owed p ++ ofPeer p (asks (d.exchanges C a))) := by
  cases a with
  | receive endpoint payload env =>
    rw [exchanges, sends_eq h, receive_sent h]
    exact receive_owed h p
  | inbound q env =>
    have hnil : ofPeer p [] = [] := rfl
    rw [exchanges, sends_eq h, answers_map_sent, asks_map_sent, hnil, List.append_nil]
    exact inbound_owed hC h p
  | tunRecv _ | handshake _ _ | outbound _ _ | keepalive _ _ | insertPeer _ _ | setOnline _ _
  | updateEndpoint _ _ | clearEndpoint _ =>
    rw [owed_of_step h nofun nofun p]
    exact List.sublist_append_left ..

/-- An initiation that is recorded has an index. -/
lemma isSome_of_mem_exchanges (h : d.step C a = some (d', evs)) {t : Ticket}
    (ht : t ∈ asks (d.exchanges C a)) : t.2.2.isSome := by
  cases a with
  | receive endpoint payload env =>
    rw [exchanges, sends_eq h, receive_sent h, List.map_nil] at ht
    cases hasked : d.asked C env endpoint payload with
    | none =>
      rw [hasked] at ht
      cases ht
    | some q =>
      -- an initiation was staged, with the index that was read from it
      unfold asked at hasked
      split at hasked
      · next htick =>
        rw [← owed_of_tickInbound htick] at ht
        exact InboundEvent.isSome_of_mem_owed ht
      · cases hasked
  | inbound q env =>
    rw [exchanges, asks_map_sent] at ht
    cases ht
  | tunRecv _ | handshake _ _ | outbound _ _ | keepalive _ _ | insertPeer _ _ | setOnline _ _
  | updateEndpoint _ _ | clearEndpoint _ => cases ht

/-- Whatever is sent on the inbound path is sent by a peer. -/
lemma sent_none_not_mem (h : d.step C a = some (d', evs)) (endpoint : OutboundSender)
    (packet : Bytes) : .sent none endpoint packet ∉ d.exchanges C a := by
  cases a with
  | receive _ _ _ =>
    rw [exchanges, sends_eq h, receive_sent h]
    simp
  | inbound _ _ => simp [exchanges]
  | tunRecv _ | handshake _ _ | outbound _ _ | keepalive _ _ | insertPeer _ _ | setOnline _ _
  | updateEndpoint _ _ | clearEndpoint _ => exact List.not_mem_nil

/-! ## Runs -/

/-- What is known of a device and of its record. -/
structure Answering (d : Device) (log : List Exchange) : Prop where
  /-- What was answered, and what is still to be answered, is a part of what came. -/
  owed : ∀ p, (ofPeer p (answers log) ++ d.owed p).Sublist (ofPeer p (asks log))
  /-- What came are initiations. -/
  indexed : ∀ t ∈ asks log, t.2.2.isSome
  /-- What was sent was sent by peers. -/
  byPeer : ∀ endpoint packet, .sent none endpoint packet ∉ log

namespace Answering

variable {log : List Exchange}

/-- Nothing has come to a new device. -/
lemma new (C : Crypto) (privateKey : Key) (start : UInt32) :
    Answering (.new C privateKey start) [] where
  owed _ := List.Sublist.refl _
  indexed _ h := by cases h
  byPeer _ _ h := by cases h

/-- **The invariant is kept.** -/
lemma step (hC : C.Lawful) (ha : Answering d log) (h : d.step C a = some (d', evs)) :
    Answering d' (log ++ d.exchanges C a) where
  owed p := by
    rw [answers_append, asks_append, ofPeer_append, ofPeer_append, List.append_assoc]
    have hnew := (step_owed hC h p).append_left (ofPeer p (answers log))
    rw [← List.append_assoc _ (d.owed p)] at hnew
    exact hnew.trans ((ha.owed p).append_right _)
  indexed t ht := by
    rw [asks_append] at ht
    rcases List.mem_append.mp ht with ht | ht
    · exact ha.indexed t ht
    · exact isSome_of_mem_exchanges h ht
  byPeer endpoint packet hmem := by
    rcases List.mem_append.mp hmem with hmem | hmem
    · exact ha.byPeer endpoint packet hmem
    · exact sent_none_not_mem h endpoint packet hmem

/-- The invariant holds in every run. -/
lemma of_run (hC : C.Lawful) {privateKey : Key} {start : UInt32} {tr : List Event}
    (run : Run (recorded (Device.step C) (exchanges C)) (fun _ _ => True)
      (.new C privateKey start, []) tr (d, log)) : Answering d log := by
  refine Run.invariant (I := fun _ x => Answering x.1 x.2) (new C privateKey start) ?_ run
  rintro _ ⟨d, log⟩ a ⟨d', log'⟩ evs _ ha _ h
  obtain ⟨hstep, rfl⟩ := recorded_eq_some.mp h
  exact ha.step hC hstep

/-- The answers of a peer, in order. -/
lemma sublist (ha : Answering d log) (p : Key) :
    (ofPeer p (answers log)).Sublist (ofPeer p (asks log)) :=
  (List.sublist_append_left _ _).trans (ha.owed p)

/-- The answers of all peers together. -/
lemma subperm (ha : Answering d log) : (answers log).Subperm (asks log) := by
  refine List.subperm_ext_iff.mpr fun t _ => ?_
  have hcount : ∀ l, (ofPeer t.1 l).count t = l.count t := by
    intro l
    exact List.count_filter (by simp)
  rw [← hcount, ← hcount (asks log)]
  exact (ha.sublist t.1).count_le t

end Answering

end Device

/-! ## Bytes -/

section Bytes

variable {log : List Exchange}

/-- One more exchange, inward. -/
lemma bytesFrom_cons (endpoint : OutboundSender) (x : Exchange) (log : List Exchange) :
    bytesFrom endpoint (x :: log) = x.bytesFrom endpoint + bytesFrom endpoint log := by
  rw [bytesFrom, List.map_cons, List.sum_cons, bytesFrom]

/-- One more exchange, outward. -/
lemma bytesTo_cons (endpoint : OutboundSender) (x : Exchange) (log : List Exchange) :
    bytesTo endpoint (x :: log) = x.bytesTo endpoint + bytesTo endpoint log := by
  rw [bytesTo, List.map_cons, List.sum_cons, bytesTo]

/-- What was sent to an endpoint are responses. -/
lemma bytesTo_eq (hindex : ∀ t ∈ answers log, t.2.2.isSome)
    (hpeer : ∀ endpoint packet, .sent none endpoint packet ∉ log) (endpoint : OutboundSender) :
    bytesTo endpoint log =
      handshakeResponsePacketSize * (answers log).countP (·.2.1 = endpoint) := by
  induction log with
  | nil => rfl
  | cons x log ih =>
    have hrest : ∀ ep packet, .sent none ep packet ∉ log :=
      fun ep packet hmem => hpeer ep packet (List.mem_cons_of_mem _ hmem)
    rw [bytesTo_cons]
    cases x with
    | received p source payload =>
      rw [ih hindex hrest]
      exact Nat.zero_add _
    | sent p target packet =>
      cases p with
      | none => exact absurd (List.mem_cons_self ..) (hpeer target packet)
      | some p =>
        have hcons : answers (.sent (some p) target packet :: log) =
            (p, target, respondedTo packet) :: answers log := rfl
        rw [hcons] at hindex ⊢
        have hlen := length_of_respondedTo (hindex _ (List.mem_cons_self ..))
        rw [ih (fun t ht => hindex t (List.mem_cons_of_mem _ ht)) hrest, List.countP_cons,
          Exchange.bytesTo, hlen]
        by_cases htarget : target = endpoint
        · simp [htarget, Nat.mul_add, Nat.add_comm]
        · simp [htarget]

/-- What came from an endpoint are initiations, and what else came. -/
lemma le_bytesFrom (hindex : ∀ t ∈ asks log, t.2.2.isSome) (endpoint : OutboundSender) :
    handshakeInitiationPacketSize * (asks log).countP (·.2.1 = endpoint) ≤
      bytesFrom endpoint log := by
  induction log with
  | nil => exact Nat.zero_le _
  | cons x log ih =>
    rw [bytesFrom_cons]
    cases x with
    | sent p target packet =>
      have ih := ih hindex
      exact ih.trans (Nat.le_add_left ..)
    | received p source payload =>
      cases p with
      | none =>
        have ih := ih hindex
        exact ih.trans (Nat.le_add_left ..)
      | some p =>
        have hcons : asks (.received (some p) source payload :: log) =
            (p, source, initiatorOf payload) :: asks log := rfl
        rw [hcons] at hindex ⊢
        have hlen := length_of_initiatorOf (hindex _ (List.mem_cons_self ..))
        have ih := ih fun t ht => hindex t (List.mem_cons_of_mem _ ht)
        rw [List.countP_cons, Exchange.bytesFrom, hlen]
        by_cases hsource : source = endpoint
        · simp only [hsource, decide_true, if_true, Nat.mul_add, Nat.mul_one]
          omega
        · simpa [hsource] using ih

end Bytes

/-! ## The result -/

namespace Device

variable {C : Crypto} {d : Device} {log : List Exchange} {tr : List Event}

/-- **No amplification.** In every run of a device, each peer answers a part of the initiations that
were handed to it: in the order in which they came, each at most once, to where it came from and
with the index that it has. Nothing else is sent on the inbound path, so an endpoint is sent at most
92 bytes for every 148 bytes that came from it.

**Proof sketch.** What a peer has answered, together with what is in its hands and in its channel,
is a part of what came (`Answering`). Everything that came has an index, so everything that was sent
has one, and is a response. Since the answers of each peer are among its initiations, the answers of
all peers are among the initiations of all. -/
theorem answers_bounded (hC : C.Lawful) (privateKey : Key) (start : UInt32)
    (run : Run (recorded (step C) (exchanges C)) (fun _ _ => True) (.new C privateKey start, []) tr
      (d, log)) :
    (∀ p, (ofPeer p (answers log)).Sublist (ofPeer p (asks log))) ∧
      ∀ endpoint, handshakeInitiationPacketSize * bytesTo endpoint log ≤
        handshakeResponsePacketSize * bytesFrom endpoint log := by
  have ha := Answering.of_run hC run
  refine ⟨ha.sublist, fun endpoint => ?_⟩
  have hindex : ∀ t ∈ answers log, t.2.2.isSome :=
    fun t ht => ha.indexed t (ha.subperm.subset ht)
  have hcount := ha.subperm.countP_le (fun t => decide (t.2.1 = endpoint))
  calc handshakeInitiationPacketSize * bytesTo endpoint log
    _ = handshakeResponsePacketSize *
        (handshakeInitiationPacketSize * (answers log).countP (·.2.1 = endpoint)) := by
      rw [bytesTo_eq hindex ha.byPeer, Nat.mul_left_comm]
    _ ≤ handshakeResponsePacketSize *
        (handshakeInitiationPacketSize * (asks log).countP (·.2.1 = endpoint)) :=
      Nat.mul_le_mul_left _ (Nat.mul_le_mul_left _ hcount)
    _ ≤ handshakeResponsePacketSize * bytesFrom endpoint log :=
      Nat.mul_le_mul_left _ (le_bytesFrom ha.indexed endpoint)

/-- The initiation of the peer comes from where it is, and again from where an attacker is. The
device has answered the first one when the second one comes, and also answers the second one. -/
theorem answers_bounded_sample : ∃ (d : Device) (tr : List Event) (log : List Exchange),
    Run (recorded (step .sample) (exchanges .sample)) (fun _ _ => True) (Sample.device, []) tr
        (d, log) ∧
      (answers log).map (·.2.1) = [Sample.endpoint, Sample.elsewhere] ∧
      bytesFrom Sample.elsewhere log = 148 ∧ bytesTo Sample.elsewhere log = 92 ∧
      ∀ p, (ofPeer p (answers log)).Sublist (ofPeer p (asks log)) := by
  let run : List Action := Sample.answer ++
    [.receive Sample.elsewhere Sample.initiation.2 (Sample.env 0), Sample.inbound, Sample.inbound,
      Sample.inbound, Sample.inbound, Sample.inbound]
  obtain ⟨⟨d, log⟩, tr, run, check⟩ := exists_run_of_exec
    (recorded (step .sample) (exchanges .sample)) run (Sample.device, [])
    (fun r => (answers r.1.2).map (·.2.1) = [Sample.endpoint, Sample.elsewhere] ∧
      bytesFrom Sample.elsewhere r.1.2 = 148 ∧ bytesTo Sample.elsewhere r.1.2 = 92)
    (by decide +kernel)
  obtain ⟨hanswers, hfrom, hto⟩ := of_decide_eq_true check
  exact ⟨d, tr, log, run, hanswers, hfrom, hto,
    (answers_bounded Crypto.sample_lawful _ _ run).1⟩

end Device

end Vlink
