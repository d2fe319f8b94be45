import Vlink.Device.System

set_option autoImplicit false

/-!
# A device under a clock

The clock readings of a run of the device are arbitrary. Here they do not go back, and what a step
does to the times that are kept for one peer is noted with its reading: when the peer is made, when
its handshake loop passes its check and sends an initiation, and when `completed` or `can_handshake`
open the window for attempts.

`Pace.Step` says everything that a step can do to the monitors of the peer, and to the place that
its handshake loop has reached between its check and its record of the attempt. Statements about
times are proved from it.

## Main definitions

* `Vlink.Mark` — what is noted of a step.
* `Vlink.Timed`, `Vlink.Timed.tick` — a device and the last reading of its clock, and a step that
  does not turn it back.
* `Vlink.Timed.step` — the same, with what is noted of a peer.
* `Vlink.Pace`, `Vlink.Pace.Step` — the monitors of a peer, and what a step can do to them.

## Main results

* `Vlink.Device.step_paced` — what a step of a device does to the monitors of a peer.
* `Vlink.Timed.Reaches.invariant` — an invariant of the monitors of a peer, step by step.
-/

namespace Vlink

/-! ## What is noted -/

/-- The clock reading of an action. -/
def Action.reading : Action → Option Instant
  | .receive _ _ env => some env.now
  | .handshake _ env => some env.now
  | .inbound _ env => some env.now
  | .outbound _ env => some env.now
  | .keepalive _ env => some env.now
  | .insertPeer _ now => some now
  | .tunRecv _ | .setOnline _ _ | .updateEndpoint _ _ | .clearEndpoint _ => none

/-- What is noted of the steps of a peer, each with the reading of the clock. -/
inductive Mark where
  /-- The peer was made. -/
  | created (now : Instant)
  /-- The handshake loop passed an initiation to `send_outbound`, when `attempt_before` was
  `before`. -/
  | initiation (now before : Instant)
  /-- `completed` was called. -/
  | completed (now : Instant)
  /-- `can_handshake` called `reset_attempt`. -/
  | reopened (now : Instant)
  /-- `can_handshake` returned true to the handshake loop, and left `attempt_before` at
  `before`. -/
  | passed (now before : Instant)
deriving DecidableEq

/-- `can_handshake` calls `reset_attempt`. -/
def PeerMonitor.reopens (m : PeerMonitor) (now : Instant) : Bool :=
  decide (m.traffic.txMessages < rekeyAfterMessages) &&
    decide (rekeyAfterTime ≤ m.handshake.lastCompleteAt.elapsed now) &&
    decide (m.handshake.attemptBefore.toStd < m.handshake.lastCompleteAt.toStd + rekeyAfterTime)

/-- What is noted of `can_handshake`. -/
def PeerMonitor.checkMarks (m : PeerMonitor) (now : Instant) : List Mark :=
  (if m.reopens now then [.reopened now] else []) ++
    if (m.canHandshake now).1 then
      [.passed now (m.canHandshake now).2.handshake.attemptBefore.toStd]
    else []

section CanHandshake

variable {m : PeerMonitor} {now : Instant}

/-- `can_handshake` changes nothing but the end of the window. -/
lemma PeerMonitor.canHandshake_snd : (m.canHandshake now).2 =
    if m.reopens now then { m with handshake := m.handshake.resetAttempt now } else m := by
  unfold canHandshake reopens
  by_cases htx : rekeyAfterMessages ≤ m.traffic.txMessages
  · simp [htx, UInt64.not_lt.mpr htx]
  · by_cases hdue : m.handshake.lastCompleteAt.elapsed now < rekeyAfterTime
    · simp [htx, hdue, Nat.not_le.mpr hdue]
    · simp [htx, hdue, UInt64.not_le.mp htx, Nat.not_lt.mp hdue]

/-- The check keeps the timer. -/
@[simp] lemma PeerMonitor.keepalive_canHandshake : (m.canHandshake now).2.keepalive =
    m.keepalive := by
  rw [canHandshake_snd]
  split_ifs <;> rfl

/-- When `can_handshake` returns true, the last completed handshake and the last attempt that are
recorded lie far enough in the past. -/
lemma PeerMonitor.le_of_canHandshake (htx : m.traffic.txMessages < rekeyAfterMessages)
    (hcan : (m.canHandshake now).1 = true) :
    m.handshake.lastCompleteAt.toStd + rekeyAfterTime ≤ now ∧
      m.handshake.lastAttemptAt.toStd + rekeyTimeout ≤ now := by
  unfold canHandshake at hcan
  rw [if_neg (UInt64.not_le.mpr htx)] at hcan
  split_ifs at hcan with hdue hreset
  · simp only [HandshakeMonitor.lastAttemptAt_resetAttempt, decide_eq_true_eq] at hcan
    exact ⟨(Instant.le_elapsed_iff (by decide)).mp (Nat.not_lt.mp hdue),
      (Instant.le_elapsed_iff (by decide)).mp hcan⟩
  · exact ⟨(Instant.le_elapsed_iff (by decide)).mp (Nat.not_lt.mp hdue),
      (Instant.le_elapsed_iff (by decide)).mp (of_decide_eq_true hcan)⟩

end CanHandshake

namespace PeerNode

/-- What is noted of a step of `loop_handshake`. -/
def handshakeMarks (n : PeerNode) (now : Instant) : List Mark :=
  match n.handshakeTask with
  | .waiting => n.peer.monitor.checkMarks now
  | .sending _ => [.initiation now n.peer.monitor.handshake.attemptBefore.toStd]
  | _ => []

/-- The next step of `loop_inbound` calls `completed`: a response has been accepted, or the next
data packet is the first one of the session that is waiting. -/
def completes (n : PeerNode) : Bool :=
  match n.inboundTask, n.inbox with
  | .completed _, _ => true
  | .idle, .transportData _ _ session :: _ =>
    n.peer.sessions.next.any fun next => decide (next.senderIndex = session.senderIndex)
  | _, _ => false

/-- What is noted of a step of `loop_inbound`. -/
def inboundMarks (n : PeerNode) (now : Instant) : List Mark :=
  if n.completes then [.completed now] else []

end PeerNode

/-- What is noted of a step, as far as the peer `p` goes. -/
def Device.marks (p : Key) (d : Device) : Action → List Mark
  | .handshake q env =>
    if q = p then (d.peers p).elim [] fun n => n.handshakeMarks env.now else []
  | .inbound q env => if q = p then (d.peers p).elim [] fun n => n.inboundMarks env.now else []
  | .insertPeer cfg now =>
    if cfg.publicKey = p ∧ (d.peers p).isNone then [.created now] else []
  | _ => []

/-! ## The device and its clock -/

/-- A device and the last reading of its clock. -/
structure Timed where
  device : Device
  clock : Instant

namespace Timed

/-- One step; `none` if the action is not possible, or if it would turn the clock back. -/
def tick (C : Crypto) (s : Timed) (a : Action) : Option (Timed × List Event) :=
  let now := a.reading.getD s.clock
  if s.clock ≤ now then (s.device.step C a).map fun r => (⟨r.1, now⟩, r.2) else none

/-- The same, with what is noted of the peer `p`. -/
def step (C : Crypto) (p : Key) (s : Timed) (a : Action) : Option (Timed × List Mark) :=
  (s.tick C a).map fun r => (r.1, s.device.marks p a)

/-- A step under the clock is a step of the device that does not turn the clock back. -/
lemma tick_eq_some {C : Crypto} {s s' : Timed} {a : Action} {evs : List Event} :
    s.tick C a = some (s', evs) ↔ s.clock ≤ a.reading.getD s.clock ∧
      s'.clock = a.reading.getD s.clock ∧ s.device.step C a = some (s'.device, evs) := by
  unfold tick
  dsimp only
  split_ifs with hle
  · simp only [hle, true_and, Option.map_eq_some_iff, Prod.mk.injEq, Prod.exists]
    constructor
    · rintro ⟨d, evs, h, rfl, rfl⟩
      exact ⟨rfl, h⟩
    · rintro ⟨hc, h⟩
      exact ⟨_, _, h, by cases s'; cases hc; rfl, rfl⟩
  · simp [hle]

/-- What is noted does not matter for what can happen. -/
lemma step_eq_some {C : Crypto} {p : Key} {s s' : Timed} {a : Action} {marks : List Mark} :
    s.step C p a = some (s', marks) ↔
      (∃ evs, s.tick C a = some (s', evs)) ∧ marks = s.device.marks p a := by
  simp only [step, Option.map_eq_some_iff, Prod.mk.injEq, Prod.exists]
  constructor
  · rintro ⟨_, evs, h, rfl, rfl⟩
    exact ⟨⟨evs, h⟩, rfl⟩
  · rintro ⟨⟨evs, h⟩, rfl⟩
    exact ⟨_, evs, h, rfl, rfl⟩

/-- A run of a new device whose clock does not go back, all of whose steps meet `guard`, leads to
`s`, and `tr` is noted of the peer `p`. -/
def Reaches (C : Crypto) (p : Key) (s : Timed) (privateKey : Key) (start : UInt32) (t₀ : Instant)
    (guard : Timed → Action → Prop) (tr : List Mark) : Prop :=
  Run (step C p) guard ⟨.new C privateKey start, t₀⟩ tr s

end Timed

/-! ## What a step does to the monitors of a peer -/

/-- How far `loop_handshake` has come. -/
inductive PacePoint where
  /-- Not on its way to an initiation. -/
  | idle
  /-- `can_handshake` has returned true, and the initiation is not sent yet. -/
  | committed
  /-- The initiation is sent, and `initiated` not called yet. -/
  | sent
deriving DecidableEq

/-- Where the handshake task is. -/
def HandshakeTask.point : HandshakeTask → PacePoint
  | .initiating | .preparing _ _ | .sending _ => .committed
  | .sent => .sent
  | .waiting | .resting | .sleeping _ | .dead => .idle

/-- The monitors of a peer, and where its handshake loop is. -/
structure Pace where
  monitor : PeerMonitor
  point : PacePoint

/-- The monitors of a peer. -/
def PeerNode.pace (n : PeerNode) : Pace := ⟨n.peer.monitor, n.handshakeTask.point⟩

/-- What a step at the time `now` can do to the monitors of a peer, and what is noted of it. -/
inductive Pace.Step (now : Instant) (s : Pace) : List Mark → Pace → Prop
  /-- Traffic is counted, or nothing happens. The handshake loop may panic before it sends. -/
  | rest {traffic : TrafficMonitor} {point : PacePoint}
      (hp : point = s.point ∨ s.point = .committed ∧ point = .idle) :
      Step now s [] ⟨{ s.monitor with traffic }, point⟩
  /-- `can_handshake`. -/
  | check (hp : s.point = .idle) :
      Step now s (s.monitor.checkMarks now)
        ⟨(s.monitor.canHandshake now).2,
          if (s.monitor.canHandshake now).1 then .committed else .idle⟩
  /-- `send_outbound` in `loop_handshake`. -/
  | send (hp : s.point = .committed) :
      Step now s [.initiation now s.monitor.handshake.attemptBefore.toStd] ⟨s.monitor, .sent⟩
  /-- `initiated`, in `loop_handshake` or in `handle_handshake_initiation`. -/
  | initiated {point : PacePoint} (hp : point = s.point ∨ s.point = .sent ∧ point = .idle) :
      Step now s []
        ⟨{ s.monitor with handshake := s.monitor.handshake.initiated now }, point⟩
  /-- `completed`. -/
  | completed {traffic : TrafficMonitor} {wall : SystemTime} :
      Step now s [.completed now]
        ⟨{ s.monitor with traffic, handshake := s.monitor.handshake.completed now wall }, s.point⟩
  /-- `attempt` of the keepalives. -/
  | attempt : Step now s []
      ⟨{ s.monitor with keepalive := s.monitor.keepalive.attempt now }, s.point⟩

/-- The monitors stay as they are. -/
lemma Pace.Step.same {now : Instant} {s : Pace} : Pace.Step now s [] s :=
  @Pace.Step.rest now s s.monitor.traffic s.point (.inl rfl)

namespace PeerNode

variable {C : Crypto} {n n' : PeerNode} {st st' : Store} {env : Env} {evs : List Event}

/-- The handshake loop in the monitors. -/
lemma handshakeStep_pace (h : n.handshakeStep C st env = some (.ret (st', n', evs))) :
    Pace.Step env.now n.pace (n.handshakeMarks env.now) n'.pace := by
  cases handshakeStep_move h with
  | check ht =>
    have hcheck : Pace.Step env.now n.pace (n.handshakeMarks env.now)
        ⟨(n.peer.monitor.canHandshake env.now).2,
          if (n.peer.monitor.canHandshake env.now).1 then .committed else .idle⟩ := by
      rw [handshakeMarks, ht]
      exact .check (by rw [pace, ht]; rfl)
    by_cases hcan : (n.peer.monitor.canHandshake env.now).1 = true
    · rw [if_pos hcan] at hcheck ⊢
      exact hcheck
    · rw [if_neg hcan] at hcheck ⊢
      exact hcheck
  | send ht =>
    rw [handshakeMarks, ht]
    exact .send (by rw [pace, ht]; rfl)
  | initiated ht =>
    rw [handshakeMarks, ht]
    exact .initiated (.inr ⟨by rw [pace, ht]; rfl, rfl⟩)
  | initiate ht | prepare ht | rest ht | wake ht =>
    rw [handshakeMarks, ht]
    exact .rest (.inl (by rw [pace, ht]; rfl))

/-- The handshake loop panics before it sends an initiation. -/
lemma handshakePanic_pace (h : n.handshakeStep C st env = some .panic) :
    Pace.Step env.now n.pace (n.handshakeMarks env.now)
      ({ n with handshakeTask := .dead } : PeerNode).pace := by
  cases ht : n.handshakeTask with
  | initiating | preparing _ _ =>
    rw [handshakeMarks, ht]
    exact .rest (.inr ⟨by rw [pace, ht]; rfl, rfl⟩)
  | waiting | sleeping _ =>
    simp only [handshakeStep, ht] at h
    split_ifs at h <;> cases h
  | sending _ | sent | resting | dead => simp [handshakeStep, ht] at h

/-- Whether the next data packet completes a handshake, when the inbound loop waits for events. -/
lemma completes_transportData {endpoint : OutboundSender} {packet : TransportData}
    {session : Session} {inbox : List InboundEvent} (ht : n.inboundTask = .idle)
    (hinbox : n.inbox = .transportData endpoint packet session :: inbox) :
    n.completes = true ↔
      ∃ next, n.peer.sessions.next = some next ∧ next.senderIndex = session.senderIndex := by
  simp [completes, ht, hinbox, Option.any_eq_true]

/-- The inbound loop in the monitors. -/
lemma inboundStep_pace (h : n.inboundStep C st env = some (.ret (st', n', evs))) :
    Pace.Step env.now n.pace (n.inboundMarks env.now) n'.pace := by
  cases inboundStep_move h with
  | respond ht hbox hr =>
    rw [Peer.respond_peer hr]
    simp only [inboundMarks, completes, ht, hbox]
    exact .rest (.inl rfl)
  | finalize ht hbox hf =>
    rw [Peer.finalize_peer hf]
    simp only [inboundMarks, completes, ht, hbox]
    exact .rest (.inl rfl)
  | cookie ht hbox =>
    simp only [inboundMarks, completes, ht, hbox]
    exact .rest (.inl rfl)
  | @promote endpoint packet session _ _ _ _ ht hbox hret =>
    have hiff := completes_transportData ht hbox
    rcases Peer.promote_cases n.peer st env packet session with
      ⟨hother, hp⟩ | ⟨next, t, hnext, hsame, -, -, hp⟩
    · rw [hp] at hret
      cases hret
      have hno : ¬ n.completes = true := fun hyes => by
        obtain ⟨next, hnext, hsame⟩ := hiff.mp hyes
        exact hother next hnext hsame
      rw [inboundMarks, if_neg hno]
      exact .rest (.inl rfl)
    · rw [hp] at hret
      cases hret
      rw [inboundMarks, if_pos (hiff.mpr ⟨next, hnext, hsame⟩)]
      exact .completed
  | prepareNext ht hp =>
    obtain ⟨_, rfl⟩ := Peer.prepareNext_peer hp
    simp only [inboundMarks, completes, ht]
    exact .same
  | completeUninit ht hc =>
    obtain ⟨_, rfl⟩ := Peer.completeUninit_peer hc
    simp only [inboundMarks, completes, ht]
    exact .same
  | receive ht hc =>
    simp only [inboundMarks, completes, ht]
    rcases Peer.receive_peer hc with ⟨-, rfl⟩ | ⟨-, rfl⟩
    · exact .same
    · exact .same
  | initiated ht =>
    simp only [inboundMarks, completes, ht]
    exact .initiated (.inl rfl)
  | completed ht =>
    simp only [inboundMarks, completes, ht]
    exact .completed
  | updateEndpoint ht | reply ht | confirm ht =>
    simp only [inboundMarks, completes, ht]
    exact .same

/-- The inbound loop does not panic when it completes a handshake. -/
lemma inboundPanic_pace (h : n.inboundStep C st env = some .panic) :
    Pace.Step env.now n.pace (n.inboundMarks env.now)
      ({ n with inboundTask := .dead } : PeerNode).pace := by
  have hno : ¬ n.completes = true := by
    intro hyes
    cases ht : n.inboundTask with
    | idle =>
      cases hinbox : n.inbox with
      | nil => simp [inboundStep, ht, hinbox] at h
      | cons e inbox =>
        cases e with
        | transportData endpoint packet session =>
          simp only [inboundStep, ht, hinbox, Option.some.injEq, takeEvent] at h
          rcases Peer.promote_cases n.peer st env packet session with
            ⟨-, hp⟩ | ⟨_, _, _, _, _, _, hp⟩
          · rw [hp] at h
            cases h
          · rw [hp] at h
            cases h
        | _ => simp [completes, ht, hinbox] at hyes
    | completed endpoint => simp [inboundStep, ht] at h
    | _ => simp [completes, ht] at hyes
  rw [inboundMarks, if_neg hno]
  exact .same

/-- The outbound loop counts traffic. -/
lemma outboundStep_pace (h : n.outboundStep C st env = some (.ret (st', n', evs))) :
    Pace.Step env.now n.pace [] n'.pace := by
  cases ht : n.outboundTask with
  | idle =>
    simp only [outboundStep, ht] at h
    split at h
    · cases h
    · split at h
      · cases h
        exact .same
      · split at h <;> cases h <;> exact .same
  | sending buf =>
    simp only [outboundStep, ht] at h
    cases h
    exact .same
  | sent len =>
    simp only [outboundStep, ht] at h
    cases h
    exact .rest (.inl rfl)

/-- The timer of the outbound loop. -/
lemma keepaliveStep_pace (h : n.keepaliveStep st env = some (.ret (st', n', evs))) :
    Pace.Step env.now n.pace [] n'.pace := by
  unfold keepaliveStep at h
  split at h
  · split_ifs at h
    · cases h
      exact .attempt
    · cases h
      exact .same
  · cases h

end PeerNode

/-! ## The device -/

/-- What a step of a device does to the peer `p`: it is not there, it is made, or it makes a
step. -/
inductive Device.Paced (p : Key) (now : Instant) (d : Device) (a : Action) :
    List Mark → Device → Prop
  | absent {d' : Device} (h : d.peers p = none) (h' : d'.peers p = none) : Paced p now d a [] d'
  | created {d' : Device} {n : PeerNode} {cfg : PeerConfig} (h : d.peers p = none)
      (h' : d'.peers p = some n) (ha : a = .insertPeer cfg now)
      (hn : n.pace = ⟨.new cfg.persistentKeepalive now, .idle⟩) :
      Paced p now d a [.created now] d'
  | stepped {d' : Device} {n n' : PeerNode} {marks : List Mark} (h : d.peers p = some n)
      (h' : d'.peers p = some n') (hstep : Pace.Step now n.pace marks n'.pace) :
      Paced p now d a marks d'

namespace Device

variable {C : Crypto} {p q : Key} {now : Instant} {d d' : Device} {a : Action} {evs : List Event}

/-- The peer `p` stays as it is. -/
lemma Paced.same (h : d'.peers p = d.peers p) : Paced p now d a [] d' := by
  cases hp : d.peers p with
  | none => exact .absent hp (h.trans hp)
  | some n => exact .stepped hp (h.trans hp) .same

/-- One peer makes a step. -/
lemma Paced.one {n n' : PeerNode} {marks : List Mark} (hn : d.peers q = some n)
    (hpeers : d'.peers = Function.update d.peers q (some n'))
    (hstep : Pace.Step now n.pace marks n'.pace) :
    Paced p now d a (if q = p then marks else []) d' := by
  by_cases hq : q = p
  · subst hq
    rw [if_pos rfl]
    exact .stepped hn (by simp [hpeers]) hstep
  · rw [if_neg hq]
    exact .same (by simp [hpeers, Ne.symm hq])

/-- One peer makes a step of which nothing is noted. -/
lemma Paced.silent {n n' : PeerNode} (hn : d.peers q = some n)
    (hpeers : d'.peers = Function.update d.peers q (some n'))
    (hstep : Pace.Step now n.pace [] n'.pace) : Paced p now d a [] d' := by
  have hone : Paced p now d a (if q = p then [] else []) d' := .one hn hpeers hstep
  rwa [ite_self] at hone

/-- What is noted of a peer that is there. -/
lemma marks_of_peer {n : PeerNode} {marks : PeerNode → List Mark} (hn : d.peers q = some n) :
    (if q = p then (d.peers p).elim [] marks else []) = if q = p then marks n else [] := by
  split_ifs with hq
  · rw [← hq, hn]
    rfl
  · rfl

/-- A new peer, or one that is there already. -/
lemma insertPeer_paced (cfg : PeerConfig) :
    Paced p now d (.insertPeer cfg now) (d.marks p (.insertPeer cfg now))
      (d.insertPeer C cfg now) := by
  unfold marks
  dsimp only
  by_cases hq : cfg.publicKey = p
  · subst hq
    cases hn : d.peers cfg.publicKey with
    | none =>
      rw [if_pos ⟨rfl, rfl⟩]
      exact .created hn (by simp only [insertPeer, Function.update_self, hn]; rfl) rfl rfl
    | some n =>
      rw [if_neg (by simp)]
      exact .same (by simp [insertPeer, hn])
  · rw [if_neg fun hand => hq hand.1]
    exact .same (by simp [insertPeer, Ne.symm hq])

/-- What a step of a device does to a peer. -/
theorem step_paced {clock : Instant} (h : d.step C a = some (d', evs)) :
    Paced p (a.reading.getD clock) d a (d.marks p a) d' := by
  cases step_effect h with
  | dropped hpeers => exact .same (congrFun hpeers p)
  | unrouted hpeers => exact .same (congrFun hpeers p)
  | node hn hpeers _ _ hmoves =>
    cases hmoves with
    | handshake hret =>
      rw [marks, marks_of_peer hn]
      exact .one hn hpeers (PeerNode.handshakeStep_pace hret)
    | handshakePanic hpanic =>
      rw [marks, marks_of_peer hn]
      exact .one hn hpeers (PeerNode.handshakePanic_pace hpanic)
    | inbound hret =>
      rw [marks, marks_of_peer hn]
      exact .one hn hpeers (PeerNode.inboundStep_pace hret)
    | inboundPanic hpanic =>
      rw [marks, marks_of_peer hn]
      exact .one hn hpeers (PeerNode.inboundPanic_pace hpanic)
    | outbound hret => exact .silent hn hpeers (PeerNode.outboundStep_pace hret)
    | keepalive hret => exact .silent hn hpeers (PeerNode.keepaliveStep_pace hret)
    | staged | routed | setOnline | updateEndpoint | clearEndpoint =>
      exact .silent hn hpeers .same
  | insertPeer cfg now => exact insertPeer_paced cfg

end Device

namespace Timed

variable {C : Crypto} {p : Key} {s s' : Timed} {a : Action} {tr marks : List Mark}
  {guard : Timed → Action → Prop} {privateKey : Key} {start : UInt32} {t₀ : Instant}

/-- What a step does to the clock and to a peer. -/
theorem step_paced (h : s.step C p a = some (s', marks)) :
    s.clock ≤ s'.clock ∧ s'.clock = a.reading.getD s.clock ∧ marks = s.device.marks p a ∧
      Device.Paced p s'.clock s.device a marks s'.device := by
  obtain ⟨⟨evs, htick⟩, rfl⟩ := step_eq_some.mp h
  obtain ⟨hle, hclock, hstep⟩ := tick_eq_some.mp htick
  exact ⟨hclock ▸ hle, hclock, rfl, hclock ▸ Device.step_paced hstep⟩

/-- **Invariants of the monitors of a peer.** What holds when the peer is made, and is kept by the
steps, holds in every run. Nothing is noted before the peer is made. -/
theorem Reaches.invariant {I : List Mark → Instant → Pace → Prop}
    (hnew : ∀ {s cfg now}, guard s (.insertPeer cfg now) →
      I [.created now] now ⟨.new cfg.persistentKeepalive now, .idle⟩)
    (hstep : ∀ {tr s a n now x}, guard s a → s.device.peers p = some n →
      now = a.reading.getD s.clock → I tr s.clock n.pace → s.clock ≤ now →
      Pace.Step now n.pace (s.device.marks p a) x → I (tr ++ s.device.marks p a) now x)
    (run : Reaches C p s privateKey start t₀ guard tr) :
    (s.device.peers p = none → tr = []) ∧ ∀ n, s.device.peers p = some n → I tr s.clock n.pace := by
  refine Run.invariant (I := fun tr s => (s.device.peers p = none → tr = []) ∧
    ∀ n, s.device.peers p = some n → I tr s.clock n.pace)
    ⟨fun _ => rfl, fun n hn => by cases hn⟩ (fun {tr s a s' marks} _ ih ok h => ?_) run
  obtain ⟨hle, hnow, hmarks, hpaced⟩ := step_paced h
  obtain ⟨hnone, hsome⟩ := ih
  cases hpaced with
  | absent hp hp' =>
    refine ⟨fun _ => by rw [hnone hp]; rfl, fun n hn => ?_⟩
    rw [hp'] at hn
    cases hn
  | created hp hp' ha hn' =>
    refine ⟨fun h => absurd (hp'.symm.trans h) (Option.some_ne_none _), fun n hn => ?_⟩
    obtain rfl := Option.some.inj (hp'.symm.trans hn)
    rw [hnone hp, hn']
    exact hnew (ha ▸ ok)
  | stepped hp hp' hst =>
    refine ⟨fun h => absurd (hp'.symm.trans h) (Option.some_ne_none _), fun n hn => ?_⟩
    obtain rfl := Option.some.inj (hp'.symm.trans hn)
    rw [hmarks] at hst ⊢
    exact hstep ok hp hnow (hsome _ hp) hle hst

end Timed

end Vlink
