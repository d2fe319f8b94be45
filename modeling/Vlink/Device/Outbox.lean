import Vlink.Device.System

set_option autoImplicit false

/-!
# The channels of a peer

`device/peer/handler.rs` and `device/peer/mod.rs`: a peer has two channels of 32 places. The loop of
the device that receives datagrams puts events in the inbound channel, and `loop_inbound` of the
peer takes them out. The TUN loop of the device and `loop_inbound` of the peer put packets in the
outbound channel, and `loop_outbound` of the peer takes them out. When its timer fires,
`loop_outbound` itself puts an empty packet in the channel, and waits for a place if there is none.
As nobody else takes packets out, it then waits for ever.

## Main definitions

* `Vlink.Device.Roomy` — the step finds no channel full.
* `Vlink.Bounded`, `Vlink.Bounded.step` — the device, whose tasks wait when a channel is full.
* `Vlink.Bounded.Stuck` — `loop_outbound` of a peer waits for a place in its own channel.
* `Vlink.Bounded.sparesLast` — `loop_outbound` does not begin to stage a keepalive when its channel
  is full, and nobody takes the last place from it.

## Main results

* `Vlink.Bounded.Reaches.length_outbox_le` — no channel holds more than 32 packets.
* `Vlink.not_stuck` — in every run with such steps, `loop_outbound` never waits for itself.
* `Vlink.Bounded.Stuck.run` — once it does, it does so for ever.
* `Vlink.exists_stuck` — without the condition, it happens.

## Design

The steps are those of the device, but for four. A packet from the TUN device is routed first,
and then waits for a place. The inbound loop confirms a handshake only if there is a place for its
empty packet. The timer of `loop_outbound` fires once the time is reached that was computed when
the loop began to wait, and the empty packet is staged in a step of its own. The next datagram is
handled only when the event of the last one has found a place: as only the loop of the device puts
events in an inbound channel, the event that it waits with is the 33rd of the queue.
-/

namespace Vlink

/-- The size of the channels of a peer. -/
def peerCapacity : ℕ := 32

/-! ## The tasks of a peer and its channel -/

namespace PeerNode

variable {C : Crypto} {n n' : PeerNode} {st st' : Store} {env : Env} {evs : List Event}

/-- When the timer of `loop_outbound` fires, if it begins to wait now. -/
def nextAttempt (n : PeerNode) (now : Instant) : Instant :=
  n.peer.monitor.keepalive.nextAttemptIn n.peer.monitor.traffic now

/-- `Peer::keepalive` sends a packet. -/
def keepaliveDue (n : PeerNode) (now : Instant) : Bool :=
  n.peer.monitor.keepalive.can n.peer.monitor.traffic now && n.peer.online

/-- `self.monitor.keepalive().attempt()`. -/
def attemptKeepalive (n : PeerNode) (now : Instant) : PeerNode :=
  { n with
    peer := { n.peer with
      monitor := { n.peer.monitor with keepalive := n.peer.monitor.keepalive.attempt now } } }

/-- `loop_outbound` is done with the data it had. -/
def isIdle (n : PeerNode) : Bool :=
  match n.outboundTask with
  | .idle => true
  | _ => false

/-- The inbound loop is about to confirm a handshake, with an empty packet. -/
def confirms (n : PeerNode) : Bool :=
  match n.inboundTask with
  | .confirming _ => true
  | _ => false

/-- The inbound loop is gone, and its end of the channel with it. -/
def inboundGone (n : PeerNode) : Bool :=
  match n.inboundTask with
  | .dead => true
  | _ => false

/-- The inbound loop leaves the channel alone, unless it confirms a handshake. -/
lemma inboundStep_outbox (h : n.inboundStep C st env = some (.ret (st', n', evs))) :
    n'.outbox = n.outbox ∨ n.confirms = true ∧ n'.outbox = n.outbox ++ [[]] := by
  cases inboundStep_move h with
  | confirm ht => exact .inr ⟨by rw [confirms, ht], rfl⟩
  | _ => exact .inl rfl

end PeerNode

namespace Device

variable {C : Crypto} {d d' : Device} {p q : Key} {evs : List Event}

/-- The packets that wait for a peer. -/
def outbox (d : Device) (p : Key) : List Bytes := ((d.peers p).map (·.outbox)).getD []

/-- The events that wait for the inbound loop of a peer. -/
def inbox (d : Device) (p : Key) : List InboundEvent := ((d.peers p).map (·.inbox)).getD []

/-- The peer that `tick_inbound` stages a datagram for. -/
def recipient (C : Crypto) (d : Device) (env : Env) (endpoint : OutboundSender) (payload : Bytes) :
    Option Key :=
  match d.tickInbound C env endpoint payload with
  | .ret (_, some (p, _), _) => some p
  | _ => none

/-- The step finds no channel full: there is a place for what it stages. -/
def Roomy (C : Crypto) (d : Device) : Action → Prop
  | .receive endpoint payload env =>
    ∀ p, d.recipient C env endpoint payload = some p → (d.inbox p).length < peerCapacity
  | .tunRecv buf =>
    ∀ p, d.tickOutbound buf = .ret (some p) → (d.outbox p).length < peerCapacity
  | .inbound p _ =>
    (d.peers p).any PeerNode.confirms = true → (d.outbox p).length < peerCapacity
  | .keepalive p env =>
    (d.peers p).any (·.keepaliveDue env.now) = true → (d.outbox p).length < peerCapacity
  | _ => True

/-- The channel of a peer of the device. -/
lemma outbox_eq {n : PeerNode} (h : d.peers p = some n) : d.outbox p = n.outbox := by
  rw [outbox, h]
  rfl

/-- The channels after one peer changed. -/
lemma outbox_setPeer (d : Device) (p q : Key) (n : PeerNode) :
    (d.setPeer p n).outbox q = if q = p then n.outbox else d.outbox q := by
  by_cases hq : q = p
  · rw [hq, if_pos rfl]
    exact outbox_eq (by simp)
  · simp [outbox, hq]

/-- A packet that is staged comes last. -/
lemma outbox_stageOutbound (d : Device) (p q : Key) (buf : Bytes) :
    (d.stageOutbound p buf).1.outbox q = d.outbox q ∨
      q = p ∧ (d.stageOutbound p buf).1.outbox q = d.outbox q ++ [buf] := by
  unfold stageOutbound
  cases hn : d.peers p with
  | none => exact .inl rfl
  | some n =>
    by_cases hq : q = p
    · refine .inr ⟨hq, ?_⟩
      rw [outbox_setPeer, if_pos hq, hq, outbox_eq hn]
    · exact .inl (by rw [outbox_setPeer, if_neg hq])

/-- A task of a peer changes at most the channel of that peer. -/
lemma taskStep_outbox {task : PeerNode → Store → PeerNode.TaskStep} {dead : PeerNode → PeerNode}
    (h : d.taskStep p task dead = some (d', evs)) (hdead : ∀ n, (dead n).outbox = n.outbox) :
    d'.outbox q = d.outbox q ∨
      q = p ∧ ∃ n st' n' evs', d.peers p = some n ∧ task n d.store = some (.ret (st', n', evs')) ∧
        d.outbox q = n.outbox ∧ d'.outbox q = n'.outbox := by
  unfold taskStep at h
  cases hn : d.peers p with
  | none => simp [hn] at h
  | some n =>
    simp only [hn] at h
    cases htask : task n d.store with
    | none => simp [htask] at h
    | some r =>
      cases r with
      | panic =>
        simp only [htask, Option.some.injEq, Prod.mk.injEq] at h
        obtain ⟨rfl, rfl⟩ := h
        refine .inl ?_
        rw [outbox_setPeer, hdead, ← outbox_eq hn]
        split_ifs with hq
        · rw [hq]
        · rfl
      | ret r =>
        obtain ⟨st', n', evs'⟩ := r
        simp only [htask, Option.some.injEq, Prod.mk.injEq] at h
        obtain ⟨rfl, rfl⟩ := h
        rw [outbox_setPeer]
        by_cases hq : q = p
        · rw [if_pos hq, hq, outbox_eq hn]
          exact .inr ⟨rfl, n, st', n', evs', rfl, htask, rfl, rfl⟩
        · exact .inl (if_neg hq)

/-- A call that changes the data of a peer leaves the channels alone. -/
lemma callPeer_outbox {f : Peer → Peer} (h : d.callPeer p f = some (d', evs)) :
    d'.outbox q = d.outbox q := by
  obtain ⟨n, hn, heq⟩ := Option.map_eq_some_iff.mp h
  cases heq
  rw [outbox_setPeer]
  split_ifs with hq
  · rw [hq, outbox_eq hn]
  · rfl

/-- A packet that is received does not go to an outbound channel. -/
lemma stageInbound_outbox (d : Device) (p q : Key) (e : InboundEvent) :
    (d.stageInbound p e).1.outbox q = d.outbox q := by
  unfold stageInbound
  cases hn : d.peers p with
  | none => rfl
  | some n =>
    dsimp only
    rw [outbox_setPeer]
    split_ifs with hq
    · rw [hq, outbox_eq hn]
    · rfl

/-- A peer that is inserted has no packets, or those it had before. -/
lemma insertPeer_outbox (d : Device) (cfg : PeerConfig) (now : Instant) :
    (d.insertPeer C cfg now).outbox q = d.outbox q := by
  by_cases hq : q = cfg.publicKey
  · subst hq
    cases hn : d.peers cfg.publicKey with
    | none => simp [insertPeer, outbox, hn]
    | some n => simp [insertPeer, outbox, hn]
  · simp [insertPeer, outbox, hq]

/-- The loop for what is received leaves the outbound channels alone. -/
lemma receive_outbox {endpoint : OutboundSender} {payload : Bytes} {env : Env}
    (h : d.step C (.receive endpoint payload env) = some (d', evs)) :
    d'.outbox q = d.outbox q := by
  rw [step] at h
  split_ifs at h
  split at h
  · cases h
    rfl
  · cases h
    rfl
  · cases h
    exact stageInbound_outbox _ _ _ _

end Device

/-! ## The device with bounded channels -/

/-- Where `loop_outbound` of a peer stands, when it does not handle data. -/
inductive LoopTask where
  /-- In the `select!`, with that time for its timer. -/
  | waiting (deadline : Instant)
  /-- In `stage_outbound`, called from `keepalive`. -/
  | staging
deriving DecidableEq

/-- The device, with what its tasks wait for. -/
structure Bounded where
  device : Device
  loop : Key → LoopTask
  /-- The packet that the TUN loop wants to stage, and for whom. -/
  tun : Option (Key × Bytes)
  /-- The peer that the last datagram was staged for. -/
  rx : Option Key

/-- The steps of a device with bounded channels. -/
inductive BoundedAction where
  /-- A step of the device; the packet of `tunRecv` and of `keepalive` is staged later. -/
  | act (a : Action)
  /-- The packet from the TUN device finds a place. -/
  | tunStage
  /-- The keepalive of the peer `p` finds a place. -/
  | stage (p : Key) (env : Env)

namespace Bounded

variable (C : Crypto)

/-- There is a place in the channel of a peer. -/
def hasRoom (s : Bounded) (p : Key) : Bool := (s.device.outbox p).length < peerCapacity

/-- `stage_inbound` has come back: the last event is in the channel, or nobody takes it out any
more. -/
def isReceiving (s : Bounded) : Bool :=
  s.rx.all fun p => (s.device.inbox p).length ≤ peerCapacity ||
    (s.device.peers p).any PeerNode.inboundGone

/-- `loop_outbound` of a peer begins to wait. -/
def rest (s : Bounded) (p : Key) (now : Instant) : Bounded :=
  match s.device.peers p with
  | none => s
  | some n => { s with loop := Function.update s.loop p (.waiting (n.nextAttempt now)) }

/-- If `loop_outbound` of a peer is done with the data it had, then it begins to wait. -/
def settle (s : Bounded) (p : Key) (now : Instant) : Bounded :=
  if (s.device.peers p).any PeerNode.isIdle then s.rest p now else s

/-- The TUN loop takes a packet, if it has none. -/
def tunRecv (s : Bounded) (buf : Bytes) : Option (Bounded × List Event) :=
  if s.device.outboundUp ∧ s.tun = none then
    match s.device.tickOutbound buf with
    | .panic => some ({ s with device := { s.device with outboundUp := false } }, [.panicked none])
    | .ret none => some (s, [])
    | .ret (some p) => some ({ s with tun := some (p, buf) }, [])
  else none

/-- The loop of the device handles a datagram, if it is done with the last one. -/
def receive (s : Bounded) (endpoint : OutboundSender) (payload : Bytes) (env : Env) :
    Option (Bounded × List Event) :=
  if s.isReceiving then
    (s.device.step C (.receive endpoint payload env)).map fun (device, evs) =>
      ({ s with device, rx := s.device.recipient C env endpoint payload }, evs)
  else none

/-- The timer of `loop_outbound` fires. -/
def keepalive (s : Bounded) (p : Key) (env : Env) : Option (Bounded × List Event) :=
  match s.device.peers p, s.loop p with
  | some n, .waiting deadline =>
    match n.outboundTask with
    | .idle =>
      if deadline ≤ env.now then
        if n.keepaliveDue env.now then
          some ({ s with
            device := s.device.setPeer p (n.attemptKeepalive env.now)
            loop := Function.update s.loop p .staging }, [])
        else some (s.rest p env.now, [])
      else none
    | _ => none
  | _, _ => none

/-- `loop_outbound` handles data. -/
def outbound (s : Bounded) (p : Key) (env : Env) : Option (Bounded × List Event) :=
  match s.loop p with
  | .staging => none
  | .waiting _ =>
    (s.device.step C (.outbound p env)).map fun (device, evs) =>
      ({ s with device }.settle p env.now, evs)

/-- The inbound loop of a peer goes on. -/
def inbound (s : Bounded) (p : Key) (env : Env) : Option (Bounded × List Event) :=
  if (s.device.peers p).any PeerNode.confirms ∧ ¬ s.hasRoom p then none
  else (s.device.step C (.inbound p env)).map fun (device, evs) => ({ s with device }, evs)

/-- A peer is inserted. If it is new, then its loops start. -/
def insertPeer (s : Bounded) (cfg : PeerConfig) (now : Instant) : Bounded :=
  let s' := { s with device := s.device.insertPeer C cfg now }
  match s.device.peers cfg.publicKey with
  | none => s'.rest cfg.publicKey now
  | some _ => s'

/-- One step; `none` if the action is not possible. -/
def step (s : Bounded) : BoundedAction → Option (Bounded × List Event)
  | .act (.receive endpoint payload env) => s.receive C endpoint payload env
  | .act (.tunRecv buf) => s.tunRecv buf
  | .act (.keepalive p env) => s.keepalive p env
  | .act (.outbound p env) => s.outbound C p env
  | .act (.inbound p env) => s.inbound C p env
  | .act (.insertPeer cfg now) => some (s.insertPeer C cfg now, [])
  | .act a => (s.device.step C a).map fun (device, evs) => ({ s with device }, evs)
  | .tunStage =>
    match s.tun with
    | none => none
    | some (p, buf) =>
      if s.hasRoom p then
        let (device, evs) := s.device.stageOutbound p buf
        some ({ s with device, tun := none }, evs)
      else none
  | .stage p env =>
    match s.loop p with
    | .waiting _ => none
    | .staging =>
      if s.hasRoom p then
        some ({ s with device := (s.device.stageOutbound p []).1 }.rest p env.now, [])
      else none

/-- A new device. -/
def new (privateKey : Key) (start : UInt32) : Bounded where
  device := .new C privateKey start
  loop _ := .waiting 0
  tun := none
  rx := none

/-- A run of a new device, all of whose steps meet `guard`, leads to `s` and emits `tr`. -/
def Reaches (s : Bounded) (privateKey : Key) (start : UInt32)
    (guard : Bounded → BoundedAction → Prop) (tr : List Event) : Prop :=
  Run (step C) guard (new C privateKey start) tr s

/-- `loop_outbound` of the peer waits for a place in its own channel. -/
def Stuck (s : Bounded) (p : Key) : Prop := s.loop p = .staging ∧ s.hasRoom p = false

/-- The step puts a packet of another task in the channel of the peer. -/
def fills (p : Key) (s : Bounded) : BoundedAction → Bool
  | .act (.inbound q _) => q = p && (s.device.peers p).any PeerNode.confirms
  | .tunStage => s.tun.any fun x => x.1 = p
  | _ => false

/-- `loop_outbound` does not begin to stage a keepalive when its channel is full, and nobody takes
the last place from it. -/
def sparesLast (p : Key) (s : Bounded) (b : BoundedAction) : Bool :=
  match b with
  | .act (.keepalive q env) =>
    q ≠ p || !(s.device.peers p).any (·.keepaliveDue env.now) || s.hasRoom p
  | b => !s.fills p b || s.loop p ≠ .staging || (s.device.outbox p).length + 1 < peerCapacity

/-! ## What a step does to a channel -/

section Steps

variable {C} {s s' : Bounded} {b : BoundedAction} {p : Key} {evs : List Event}

/-- What a step does to the channel of the peer `p` and to its only consumer. -/
inductive OutboxStep (p : Key) (s : Bounded) (b : BoundedAction) (s' : Bounded) : Prop where
  /-- Nothing, but that the consumer may begin to wait again. -/
  | same (outbox : s'.device.outbox p = s.device.outbox p)
      (loop : s'.loop p = s.loop p ∨
        s'.loop p ≠ .staging ∧ (s.loop p = .staging → s.hasRoom p = true))
  /-- The consumer takes a packet. -/
  | take (data : Bytes) (outbox : s.device.outbox p = data :: s'.device.outbox p)
      (loop : s.loop p ≠ .staging) (loop' : s'.loop p ≠ .staging)
  /-- Another task puts a packet in the channel. -/
  | put (data : Bytes) (room : s.hasRoom p = true) (fills : s.fills p b = true)
      (outbox : s'.device.outbox p = s.device.outbox p ++ [data]) (loop : s'.loop p = s.loop p)
  /-- The consumer begins to stage a keepalive. -/
  | begin (env : Env) (act : b = .act (.keepalive p env))
      (due : (s.device.peers p).any (·.keepaliveDue env.now) = true)
      (outbox : s'.device.outbox p = s.device.outbox p) (loop : s.loop p ≠ .staging)
      (loop' : s'.loop p = .staging)
  /-- The keepalive is in the channel. -/
  | done (data : Bytes) (room : s.hasRoom p = true)
      (outbox : s'.device.outbox p = s.device.outbox p ++ [data]) (loop : s.loop p = .staging)
      (loop' : s'.loop p ≠ .staging)

/-- Resting is not seen at the device. -/
@[simp] lemma device_rest (s : Bounded) (q : Key) (now : Instant) :
    (s.rest q now).device = s.device := by
  unfold rest
  split <;> rfl

/-- A loop that begins to wait does not stage; the others stay where they are. -/
lemma loop_rest (s : Bounded) (q : Key) (now : Instant) :
    (s.rest q now).loop p = s.loop p ∨
      q = p ∧ (s.rest q now).loop p ≠ .staging := by
  unfold rest
  split
  · exact .inl rfl
  · by_cases hq : p = q
    · exact .inr ⟨hq.symm, by simp [hq]⟩
    · exact .inl (Function.update_of_ne hq _ _)

/-- Settling is not seen at the device. -/
@[simp] lemma device_settle (s : Bounded) (q : Key) (now : Instant) :
    (s.settle q now).device = s.device := by
  unfold settle
  split_ifs <;> simp

/-- Settling changes one loop. -/
lemma loop_settle (s : Bounded) (q : Key) (now : Instant) :
    (s.settle q now).loop p = s.loop p ∨ q = p ∧ (s.settle q now).loop p ≠ .staging := by
  unfold settle
  split_ifs
  · exact loop_rest s q now
  · exact .inl rfl

/-- Without the peer there is room. -/
lemma hasRoom_of_none (h : s.device.peers p = none) : s.hasRoom p = true := by
  simp [hasRoom, Device.outbox, h, peerCapacity]

/-- Reading from the TUN device. -/
lemma OutboxStep.of_tunRecv {buf : Bytes} (h : s.tunRecv buf = some (s', evs)) :
    OutboxStep p s b s' := by
  unfold tunRecv at h
  split_ifs at h
  split at h
  · cases h
    exact .same rfl (.inl rfl)
  · cases h
    exact .same rfl (.inl rfl)
  · cases h
    exact .same rfl (.inl rfl)

/-- The timer of a peer. -/
lemma OutboxStep.of_keepalive {q : Key} {env : Env} (h : s.keepalive q env = some (s', evs)) :
    OutboxStep p s (.act (.keepalive q env)) s' := by
  unfold keepalive at h
  split at h
  · next n deadline hn hloop =>
    split at h
    · split_ifs at h with htime hdue
      · -- the consumer of `q` begins to stage
        cases h
        have houtbox : (s.device.setPeer q (n.attemptKeepalive env.now)).outbox p =
            s.device.outbox p := by
          rw [Device.outbox_setPeer]
          split_ifs with hp
          · rw [hp, Device.outbox_eq hn]
            rfl
          · rfl
        by_cases hp : p = q
        · subst hp
          exact .begin env rfl (by simp [hn, hdue]) houtbox (by simp [hloop])
            (Function.update_self _ _ _)
        · exact .same houtbox (.inl (Function.update_of_ne hp _ _))
      · cases h
        refine .same (by rw [device_rest]) ?_
        rcases loop_rest (p := p) s q env.now with hl | ⟨rfl, hl⟩
        · exact .inl hl
        · exact .inr ⟨hl, fun hstaging => by simp [hloop] at hstaging⟩
    · cases h
  · cases h

/-- The outbound task of a peer. -/
lemma OutboxStep.of_outbound {q : Key} {env : Env} (h : s.outbound C q env = some (s', evs)) :
    OutboxStep p s b s' := by
  unfold outbound at h
  cases hloop : s.loop q with
  | staging => simp [hloop] at h
  | waiting deadline =>
    simp only [hloop, Option.map_eq_some_iff] at h
    obtain ⟨⟨device, evs'⟩, hstep, heq⟩ := h
    cases heq
    rw [Device.step] at hstep
    have hfree : q = p → s.loop p ≠ .staging := by
      rintro rfl
      simp [hloop]
    have hloop' : ({ s with device }.settle q env.now).loop p = s.loop p ∨
        q = p ∧ ({ s with device }.settle q env.now).loop p ≠ .staging := loop_settle _ q env.now
    rcases Device.taskStep_outbox (q := p) hstep (fun _ => rfl) with
      hout | ⟨hp, n, st', n', evs', -, htask, hn, hn'⟩
    · refine .same (by rw [device_settle, hout]) ?_
      rcases hloop' with hl | ⟨hq, hl⟩
      · exact .inl hl
      · exact .inr ⟨hl, fun hstaging => absurd hstaging (hfree hq)⟩
    · have hl : ({ s with device }.settle q env.now).loop p ≠ .staging := by
        rcases hloop' with hl | ⟨-, hl⟩
        · rw [hl]
          exact hfree hp.symm
        · exact hl
      rcases (PeerNode.outboundStep_frame htask).2 with hout | ⟨data, hout⟩
      · exact .same (by rw [device_settle, hn', hout, hn])
          (.inr ⟨hl, fun hstaging => absurd hstaging (hfree hp.symm)⟩)
      · exact .take data (by rw [device_settle, hn, hout, hn']) (hfree hp.symm) hl

/-- The inbound task of a peer. -/
lemma OutboxStep.of_inbound {q : Key} {env : Env} (h : s.inbound C q env = some (s', evs)) :
    OutboxStep p s (.act (.inbound q env)) s' := by
  unfold inbound at h
  split_ifs at h with hroom
  obtain ⟨⟨device, evs'⟩, hstep, heq⟩ := Option.map_eq_some_iff.mp h
  cases heq
  rw [Device.step] at hstep
  rcases Device.taskStep_outbox (q := p) hstep (fun _ => rfl) with
    hout | ⟨rfl, n, st', n', evs', hpeer, htask, hn, hn'⟩
  · exact .same hout (.inl rfl)
  · rcases PeerNode.inboundStep_outbox htask with hout | ⟨hconfirms, hout⟩
    · exact .same (by rw [hn', hout, hn]) (.inl rfl)
    · -- it goes on only if there is a place
      have hany : (s.device.peers p).any PeerNode.confirms = true := by simp [hpeer, hconfirms]
      have hplace : s.hasRoom p = true := by
        by_contra hfull
        exact hroom ⟨hany, hfull⟩
      exact .put [] hplace (by simp [fills, hany]) (by rw [hn', hout, hn]) rfl

/-- A peer is inserted. -/
lemma OutboxStep.of_insertPeer (s : Bounded) (cfg : PeerConfig) (now : Instant) :
    OutboxStep p s b (s.insertPeer C cfg now) := by
  unfold insertPeer
  cases hn : s.device.peers cfg.publicKey with
  | some n => exact .same (Device.insertPeer_outbox _ _ _) (.inl rfl)
  | none =>
    refine .same (by rw [device_rest, Device.insertPeer_outbox]) ?_
    rcases loop_rest (p := p) { s with device := s.device.insertPeer C cfg now } cfg.publicKey now
      with hl | ⟨rfl, hl⟩
    · exact .inl hl
    · exact .inr ⟨hl, fun _ => hasRoom_of_none hn⟩

/-- A waiting sender goes on. -/
lemma OutboxStep.of_stage {q : Key} {env : Env} (h : s.step C (.stage q env) = some (s', evs)) :
    OutboxStep p s (.stage q env) s' := by
  rw [step] at h
  cases hloop : s.loop q with
  | waiting deadline => simp [hloop] at h
  | staging =>
    simp only [hloop] at h
    split_ifs at h with hroom
    cases h
    cases hn : s.device.peers q with
    | none =>
      have hnone : (s.device.stageOutbound q []).1 = s.device := by
        rw [Device.stageOutbound, hn]
      rw [hnone, rest, hn]
      exact .same rfl (.inl rfl)
    | some n =>
      have hsome : (s.device.stageOutbound q []).1 =
          s.device.setPeer q { n with outbox := n.outbox ++ [[]] } := by
        rw [Device.stageOutbound, hn]
      by_cases hp : p = q
      · subst hp
        refine .done [] hroom ?_ hloop ?_
        · rw [device_rest, hsome, Device.outbox_setPeer, if_pos rfl, Device.outbox_eq hn]
        · simp [rest, hsome]
      · refine .same ?_ (.inl ?_)
        · rw [device_rest, hsome, Device.outbox_setPeer, if_neg hp]
        · exact (loop_rest _ _ _).resolve_right fun hq => hp hq.1.symm

/-- What the loop of the device does with a datagram. -/
lemma receive_eq_some {endpoint : OutboundSender} {payload : Bytes} {env : Env} :
    s.receive C endpoint payload env = some (s', evs) ↔ s.isReceiving = true ∧
      ∃ device, s.device.step C (.receive endpoint payload env) = some (device, evs) ∧
        s' = { s with device, rx := s.device.recipient C env endpoint payload } := by
  unfold receive
  split_ifs with h
  · simp only [h, true_and, Option.map_eq_some_iff, Prod.mk.injEq, Prod.exists]
    constructor
    · rintro ⟨device, evs, hstep, rfl, rfl⟩
      exact ⟨device, hstep, rfl⟩
    · rintro ⟨device, hstep, rfl⟩
      exact ⟨device, evs, hstep, rfl, rfl⟩
  · simp [h]

/-- **Step lemma.** What each step does to the outbound channel of a peer. -/
lemma outboxStep (h : s.step C b = some (s', evs)) (p : Key) : OutboxStep p s b s' := by
  have pass : ∀ {a : Action}, (s.device.step C a).map (fun r => ({ s with device := r.1 }, r.2)) =
      some (s', evs) → (∀ {d' evs'}, s.device.step C a = some (d', evs') →
        d'.outbox p = s.device.outbox p) → OutboxStep p s b s' := by
    intro a hmap hsame
    obtain ⟨⟨d', evs'⟩, hstep, heq⟩ := Option.map_eq_some_iff.mp hmap
    cases heq
    exact .same (hsame hstep) (.inl rfl)
  cases b with
  | act a =>
    cases a with
    | tunRecv buf => exact .of_tunRecv h
    | keepalive q env => exact .of_keepalive h
    | outbound q env => exact .of_outbound h
    | inbound q env => exact .of_inbound h
    | insertPeer cfg now =>
      cases h
      exact .of_insertPeer s cfg now
    | receive endpoint payload env =>
      obtain ⟨-, device, hstep, rfl⟩ := receive_eq_some.mp h
      exact .same (Device.receive_outbox hstep) (.inl rfl)
    | handshake q env =>
      refine pass h fun hstep => ?_
      rw [Device.step] at hstep
      rcases Device.taskStep_outbox (q := p) hstep (fun _ => rfl) with
        hout | ⟨-, n, st', n', evs', -, htask, hn, hn'⟩
      · exact hout
      · rw [hn', (PeerNode.handshakeStep_frame htask).2, hn]
    | setOnline q val =>
      exact pass h fun hstep => Device.callPeer_outbox (f := (·.setOnline val)) hstep
    | updateEndpoint q endpoint =>
      exact pass h fun hstep => Device.callPeer_outbox (f := (·.updateEndpoint endpoint)) hstep
    | clearEndpoint q =>
      exact pass h fun hstep => Device.callPeer_outbox (f := (·.clearEndpoint)) hstep
  | tunStage =>
    rw [step] at h
    split at h
    · cases h
    · next q buf htun =>
      split_ifs at h with hroom
      cases h
      rcases Device.outbox_stageOutbound s.device q p buf with hout | ⟨rfl, hout⟩
      · exact .same hout (.inl rfl)
      · exact .put buf hroom (by simp [fills, htun]) hout rfl
  | stage q env => exact .of_stage h

end Steps

/-! ## Runs -/

section Runs

variable {C} {s s' : Bounded} {b : BoundedAction} {p : Key} {evs tr : List Event}
  {privateKey : Key} {start : UInt32} {guard : Bounded → BoundedAction → Prop}

/-- When a channel is full. -/
lemma hasRoom_eq_false : s.hasRoom p = false ↔ peerCapacity ≤ (s.device.outbox p).length := by
  simp [hasRoom]

/-- A channel never holds more packets than it has places. -/
theorem Reaches.length_outbox_le (run : s.Reaches C privateKey start guard tr) (p : Key) :
    (s.device.outbox p).length ≤ peerCapacity := by
  refine Run.invariant (I := fun _ s => (s.device.outbox p).length ≤ peerCapacity)
    (Nat.zero_le _) ?_ run
  intro tr s b s' evs _ ih _ hstep
  cases outboxStep hstep p with
  | same outbox => rwa [outbox]
  | take data outbox =>
    rw [outbox, List.length_cons] at ih
    omega
  | put data room fills outbox | done data room outbox =>
    have hlt : (s.device.outbox p).length < peerCapacity := of_decide_eq_true room
    rw [outbox, List.length_append, List.length_singleton]
    omega
  | begin env act due outbox => rwa [outbox]

/-- What another task may put in the channel while the consumer stages a keepalive. -/
lemma last_of_sparesLast (ok : s.sparesLast p b = true) (hfills : s.fills p b = true)
    (hloop : s.loop p = .staging) : (s.device.outbox p).length + 1 < peerCapacity := by
  cases b with
  | act a =>
    cases a with
    | keepalive q env => cases hfills
    | _ => simpa [sparesLast, hfills, hloop] using ok
  | tunStage | stage q env => simpa [sparesLast, hfills, hloop] using ok

/-- **Step lemma.** A step that spares the last place does not make the consumer wait for
itself. -/
lemma OutboxStep.stays_free (h : OutboxStep p s b s') (ok : s.sparesLast p b = true)
    (hs : ¬ s.Stuck p) : ¬ s'.Stuck p := by
  rintro ⟨hloop', hfull'⟩
  rw [hasRoom_eq_false] at hfull'
  have hroom : s.loop p = .staging → (s.device.outbox p).length < peerCapacity := by
    intro hloop
    by_contra hfull
    exact hs ⟨hloop, hasRoom_eq_false.mpr (by omega)⟩
  cases h with
  | same outbox loop =>
    rw [outbox] at hfull'
    rcases loop with hloop | ⟨hloop, -⟩
    · have := hroom (hloop ▸ hloop')
      omega
    · exact hloop hloop'
  | take data outbox loop hne => exact hne hloop'
  | put data room fills outbox loop =>
    -- the packet of another task is not in the last place
    rw [outbox, List.length_append, List.length_singleton] at hfull'
    have hlast := last_of_sparesLast ok fills (loop ▸ hloop')
    omega
  | begin env act due outbox =>
    -- there was a place when the keepalive was due
    subst act
    rw [outbox] at hfull'
    have hplace : s.hasRoom p = true := by simpa [sparesLast, due] using ok
    rw [← hasRoom_eq_false, hplace] at hfull'
    cases hfull'
  | done data room outbox loop hne => exact hne hloop'

/-- What the TUN loop waits with. -/
@[simp] lemma tun_rest (s : Bounded) (q : Key) (now : Instant) : (s.rest q now).tun = s.tun := by
  unfold rest
  split <;> rfl

/-- Settling is not seen at the TUN loop. -/
@[simp] lemma tun_settle (s : Bounded) (q : Key) (now : Instant) :
    (s.settle q now).tun = s.tun := by
  unfold settle
  split_ifs <;> simp

/-- The TUN loop keeps its packet until there is a place for it.

**Proof sketch.** Only the step that stages the packet takes it from the loop, and it needs a place.
-/
lemma tun_step {buf : Bytes} (h : s.step C b = some (s', evs)) (htun : s.tun = some (p, buf))
    (hfull : s.hasRoom p = false) : s'.tun = some (p, buf) := by
  rw [← htun]
  cases b with
  | act a =>
    cases a with
    | tunRecv buf' => simp [step, tunRecv, htun] at h
    | keepalive q env =>
      simp only [step, keepalive] at h
      split at h
      · split at h
        · split_ifs at h
          · cases h
            rfl
          · cases h
            exact tun_rest _ _ _
        · cases h
      · cases h
    | outbound q env =>
      simp only [step, outbound] at h
      split at h
      · cases h
      · obtain ⟨r, -, heq⟩ := Option.map_eq_some_iff.mp h
        cases heq
        exact tun_settle _ _ _
    | inbound q env =>
      simp only [step, inbound] at h
      split_ifs at h
      obtain ⟨r, -, heq⟩ := Option.map_eq_some_iff.mp h
      cases heq
      rfl
    | insertPeer cfg now =>
      cases h
      unfold insertPeer
      split
      · exact tun_rest _ _ _
      · rfl
    | receive endpoint payload env =>
      obtain ⟨-, device, -, rfl⟩ := receive_eq_some.mp h
      rfl
    | handshake | setOnline | updateEndpoint | clearEndpoint =>
      obtain ⟨r, -, heq⟩ := Option.map_eq_some_iff.mp h
      cases heq
      rfl
  | tunStage => simp [step, htun, hfull] at h
  | stage q env =>
    simp only [step] at h
    split at h
    · cases h
    · split_ifs at h
      cases h
      exact tun_rest _ _ _

/-- Once the consumer waits for itself, no step changes that. -/
lemma Stuck.step (hs : s.Stuck p) (h : s.step C b = some (s', evs)) :
    s'.Stuck p ∧ s'.device.outbox p = s.device.outbox p := by
  have hfull : s.hasRoom p ≠ true := by simp [hs.2]
  cases outboxStep h p with
  | same outbox loop =>
    rcases loop with hloop | ⟨-, hroom⟩
    · refine ⟨⟨hloop.trans hs.1, ?_⟩, outbox⟩
      rw [hasRoom_eq_false, outbox, ← hasRoom_eq_false]
      exact hs.2
    · exact absurd (hroom hs.1) hfull
  | take data outbox loop => exact absurd hs.1 loop
  | put data room | done data room => exact absurd room hfull
  | begin env act due outbox loop => exact absurd hs.1 loop

/-- **Run lemma.** Once the consumer waits for itself, it does so for ever: nothing is taken from
the channel any more, and if the TUN loop has a packet for the peer, then it waits for ever, too. -/
theorem Stuck.run (hs : s.Stuck p) (run : Run (Bounded.step C) guard s tr s') :
    s'.Stuck p ∧ s'.device.outbox p = s.device.outbox p ∧
      ∀ buf, s.tun = some (p, buf) → s'.tun = some (p, buf) := by
  refine Run.invariant (I := fun _ s' => Bounded.Stuck s' p ∧
    s'.device.outbox p = s.device.outbox p ∧ ∀ buf, s.tun = some (p, buf) → s'.tun = some (p, buf))
    ⟨hs, rfl, fun _ h => h⟩ ?_ run
  rintro tr s₁ b s₂ evs - ⟨hstuck, hout, htun⟩ - hstep
  obtain ⟨hstuck', hout'⟩ := hstuck.step hstep
  exact ⟨hstuck', hout'.trans hout, fun buf hbuf => tun_step hstep (htun buf hbuf) hstuck.2⟩

end Runs

end Bounded

section Runs

variable {C : Crypto} {s : Bounded} {p : Key} {tr : List Event} {privateKey : Key} {start : UInt32}

/-- In every run in which `loop_outbound` of the peer does not begin to stage a keepalive when its
channel is full, and nobody takes the last place from it while it does: `loop_outbound` never waits
for a place in its own channel. -/
theorem not_stuck
    (run : s.Reaches C privateKey start (fun s b => s.sparesLast p b = true) tr) :
    ¬ s.Stuck p :=
  Run.invariant (I := fun _ s => ¬ Bounded.Stuck s p) (fun h => by cases h.1)
    (fun _ ih ok hstep => (Bounded.outboxStep hstep p).stays_free ok ih) run

end Runs

section Examples

open Sample

/-- A packet for the peer, as it comes from the TUN device. -/
def tunPacket : Bytes := 0x45 :: List.replicate 15 0 ++ [10, 0, 0, 2]

/-- The peer is inserted with a persistent keepalive every 25 seconds, and `k` packets are
staged. -/
def stagings (k : ℕ) : List BoundedAction :=
  .act (.insertPeer { config with persistentKeepalive := some (Duration.fromSecs 25) } 0) ::
    (List.replicate k [.act (.tunRecv tunPacket), .tunStage]).flatten

/-- The timer of the peer fires after 25 seconds. -/
def timer : BoundedAction :=
  .act (.keepalive remote { env 0 with now := Duration.fromSecs 25 })

/-- The timer fires when 31 packets wait: the keepalive takes the last place. -/
theorem not_stuck_sample :
    ∃ s tr, Bounded.Reaches .sample s localKey start (fun s b => s.sparesLast remote b = true) tr ∧
      (s.device.outbox remote).length = peerCapacity ∧ ¬ s.Stuck remote := by
  obtain ⟨s, tr, run, hcheck⟩ := exists_run_of_exec
    (checked (Bounded.step .sample) (Bounded.sparesLast remote))
    (stagings 31 ++ [timer, .stage remote (env 0)]) (.new .sample localKey start)
    (fun r => decide ((r.1.device.outbox remote).length = peerCapacity)) (by decide +kernel)
  exact ⟨s, tr, run.of_checked, of_decide_eq_true hcheck, not_stuck run.of_checked⟩

/-- The timer fires when 32 packets wait: from then on `loop_outbound` waits for itself, and the TUN
loop, which has one more packet for the peer, waits for it. -/
theorem exists_stuck :
    ∃ s tr, Bounded.Reaches .sample s localKey start (fun _ _ => True) tr ∧ s.Stuck remote ∧
      s.tun = some (remote, tunPacket) ∧
      ∀ s' tr', Run (Bounded.step .sample) (fun _ _ => True) s tr' s' →
        s'.Stuck remote ∧ s'.tun = some (remote, tunPacket) := by
  obtain ⟨s, tr, run, hcheck⟩ := exists_run_of_exec (Bounded.step .sample)
    (stagings 32 ++ [.act (.tunRecv tunPacket), timer]) (.new .sample localKey start)
    (fun r => decide (r.1.loop remote = .staging) && !r.1.hasRoom remote &&
      decide (r.1.tun = some (remote, tunPacket))) (by decide +kernel)
  simp only [Bool.and_eq_true, Bool.not_eq_true', decide_eq_true_eq] at hcheck
  obtain ⟨hstuck, htun⟩ := hcheck
  refine ⟨s, tr, run, hstuck, htun, fun s' tr' run' => ?_⟩
  obtain ⟨hstuck', -, htun'⟩ := Bounded.Stuck.run hstuck run'
  exact ⟨hstuck', htun' _ htun⟩

end Examples

end Vlink
