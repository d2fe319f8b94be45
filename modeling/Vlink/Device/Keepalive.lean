import Vlink.Device.Outbox
import Vlink.Device.Timed

set_option autoImplicit false

/-!
# Keepalives

`KeepAliveMonitor` decides when a peer is sent an empty packet: when data came from it and nothing
was sent since (`KEEPALIVE_TIMEOUT`), or at a persistent interval. The first rule compares
`last_recv_at` with `last_sent_at`. Nothing ever moves `last_recv_at`, so that the rule is never
used, and without a persistent interval no keepalive is sent. `Peer::keepalive` returns before the
attempt is recorded when the peer is offline. Its deadline stays in the past then, and the timer of
`loop_outbound` fires again at once.

## Main definitions

* `Vlink.Keepalives`, `Vlink.Keepalives.step` — the two monitors, and the calls that change them.
* `Vlink.KeepaliveDue` — the peer has been silent for long enough after it was heard.
* `Vlink.Action.longInterval` — a peer that is made has a persistent interval of at least a
  millisecond, or none.

## Main results

* `Vlink.Keepalives.Inv` holds throughout — in particular the peer counts as never heard.
* `Vlink.can_iff` — when `can` returns true for a keepalive that is due.
* `Vlink.keepalive_missed` — a keepalive that is due and not sent.
* `Vlink.deadline_later_iff` — after `Peer::keepalive` the deadline lies in the future if and only
  if the peer is online or the keepalive was not due.
* `Vlink.timer_spins` — the timer of an offline peer.
-/

namespace Vlink

/-! ## The monitors over time -/

/-- The monitors that keepalives depend on, and the last clock reading. -/
structure Keepalives where
  clock : Instant
  traffic : TrafficMonitor
  keepalive : KeepAliveMonitor
deriving DecidableEq

/-- The calls that change the monitors, each with the clock reading. -/
inductive KeepaliveCall where
  | inbound (bytes : ℕ) (now : Instant)
  | outbound (bytes : ℕ) (now : Instant)
  | attempt (now : Instant)
deriving DecidableEq

namespace KeepaliveCall

/-- When the call is made. -/
def at_ : KeepaliveCall → Instant
  | .inbound _ now => now
  | .outbound _ now => now
  | .attempt now => now

/-- The time of a call of each kind. -/
def inbound? : KeepaliveCall → Option Instant
  | .inbound _ now => some now
  | _ => none

def outbound? : KeepaliveCall → Option Instant
  | .outbound _ now => some now
  | _ => none

def attempt? : KeepaliveCall → Option Instant
  | .attempt now => some now
  | _ => none

end KeepaliveCall

/-- The time of the last call of a kind. -/
def lastTime (kind : KeepaliveCall → Option Instant) (tr : List KeepaliveCall) : Option Instant :=
  (tr.filterMap kind).getLast?

/-- The last time, after one more call. -/
lemma lastTime_concat (kind : KeepaliveCall → Option Instant) (tr : List KeepaliveCall)
    (c : KeepaliveCall) : lastTime kind (tr ++ [c]) = (kind c).or (lastTime kind tr) := by
  unfold lastTime
  cases h : kind c with
  | none => simp [h]
  | some now => simp [h]

namespace Keepalives

/-- Both monitors when they are new. -/
def new (interval : Option Duration) (now : Instant) : Keepalives :=
  ⟨now, .new now, .new interval now⟩

/-- One call; it is not possible before the last one. The trace consists of the calls. -/
def step (s : Keepalives) (c : KeepaliveCall) : Option (Keepalives × List KeepaliveCall) :=
  if s.clock ≤ c.at_ then
    match c with
    | .inbound bytes now =>
      some ({ s with clock := now, traffic := s.traffic.inbound bytes }, [c])
    | .outbound bytes now =>
      some ({ s with clock := now, traffic := s.traffic.outbound bytes now }, [c])
    | .attempt now => some ({ s with clock := now, keepalive := s.keepalive.attempt now }, [c])
  else none

end Keepalives

/-- A keepalive is due at `now`: the peer was heard more than `KEEPALIVE_TIMEOUT` ago, and a
millisecond or more after it was last sent something; and the last attempt was more than
`KEEPALIVE_TIMEOUT` ago. -/
structure KeepaliveDue (tr : List KeepaliveCall) (now heard : Instant) : Prop where
  inbound : lastTime KeepaliveCall.inbound? tr = some heard
  silent : heard + keepaliveTimeout < now
  outbound : ∀ t, lastTime KeepaliveCall.outbound? tr = some t → t + 1000000 ≤ heard
  attempt : ∀ t, lastTime KeepaliveCall.attempt? tr = some t → t + keepaliveTimeout < now

/-! ## What the monitors know -/

/-- The peer counts as never heard, and as sent something when the monitor was made or later. The
last attempt counts as not later than it was. -/
structure Keepalives.Inv (interval : Option Duration) (t₀ : Instant) (tr : List KeepaliveCall)
    (s : Keepalives) : Prop where
  clock : t₀ ≤ s.clock
  recv : s.traffic.lastRecvAt = .fromStd (t₀ - rekeyTimeout)
  sent : s.traffic.lastSentAt.epoch = t₀
  interval : s.keepalive.persistentKeepaliveInterval = interval
  epoch : s.keepalive.lastAttemptAt.epoch = t₀
  attempt : s.keepalive.lastAttemptAt.toStd ≤ (lastTime KeepaliveCall.attempt? tr).getD t₀
  heard : ∀ t, lastTime KeepaliveCall.inbound? tr = some t → t₀ ≤ t

namespace Keepalives

variable {s s' : Keepalives} {interval : Option Duration} {t₀ now heard : Instant}
  {tr evs : List KeepaliveCall} {c : KeepaliveCall}

/-- The invariant holds at the start. -/
lemma inv_new (interval : Option Duration) (t₀ : Instant) :
    (new interval t₀).Inv interval t₀ [] where
  clock := le_refl _
  recv := rfl
  sent := rfl
  interval := rfl
  epoch := rfl
  attempt := by simp [new, KeepAliveMonitor.new, lastTime]
  heard t h := by simp [lastTime] at h

/-- **Step lemma.** -/
lemma Inv.step (h : s.Inv interval t₀ tr) (hstep : s.step c = some (s', evs)) :
    s'.Inv interval t₀ (tr ++ evs) := by
  unfold Keepalives.step at hstep
  split_ifs at hstep with hclock
  have hnow : t₀ ≤ c.at_ := le_trans h.clock hclock
  cases c with
  | inbound bytes now =>
    cases hstep
    refine ⟨hnow, h.recv, h.sent, h.interval, h.epoch, ?_, fun t ht => ?_⟩
    · rw [lastTime_concat]
      exact h.attempt
    · rw [lastTime_concat] at ht
      cases ht
      exact hnow
  | outbound bytes now =>
    cases hstep
    refine ⟨hnow, h.recv, h.sent, h.interval, h.epoch, ?_, fun t ht => ?_⟩
    · rw [lastTime_concat]
      exact h.attempt
    · rw [lastTime_concat] at ht
      exact h.heard t ht
  | attempt now =>
    cases hstep
    refine ⟨hnow, h.recv, h.sent, h.interval, h.epoch, ?_, fun t ht => ?_⟩
    · rw [lastTime_concat]
      exact AtomicInstant.toStd_setNow_le (h.epoch ▸ hnow)
    · rw [lastTime_concat] at ht
      exact h.heard t ht

/-- **Run lemma.** -/
lemma run_inv (run : Run step (fun _ _ => True) (new interval t₀) tr s) :
    s.Inv interval t₀ tr :=
  Run.invariant (I := fun tr s => s.Inv interval t₀ tr) (inv_new interval t₀)
    (fun _ ih _ hstep => ih.step hstep) run

/-- The peer counts as heard before it was last sent something. -/
lemma Inv.not_heard (h : s.Inv interval t₀ tr) :
    ¬ s.traffic.lastSentAt.toStd < s.traffic.lastRecvAt.toStd := by
  have hsent : t₀ ≤ s.traffic.lastSentAt.toStd := h.sent ▸ AtomicInstant.epoch_le_toStd
  have hrecv : s.traffic.lastRecvAt.toStd ≤ t₀ := by
    rw [h.recv]
    simp
  exact not_lt.mpr (le_trans hrecv hsent)

/-- So only a persistent interval makes `can` true. -/
lemma Inv.can_eq_true_iff (h : s.Inv interval t₀ tr) (now : Instant) :
    s.keepalive.can s.traffic now = true ↔
      ∃ v, interval = some v ∧ s.keepalive.lastAttemptAt.toStd + (v : ℕ) ≤ now := by
  unfold KeepAliveMonitor.can KeepAliveMonitor.nextAttemptIn
  rw [if_neg fun hboth => h.not_heard hboth.2, h.interval, decide_eq_true_iff]
  cases interval with
  | none => simp [rekeyAfterTime, Duration.fromSecs]
  | some v => simp

/-- When a keepalive is due, the attempt that is recorded is more than `KEEPALIVE_TIMEOUT` old. -/
lemma Inv.attempt_lt (h : s.Inv interval t₀ tr) (due : KeepaliveDue tr now heard) :
    s.keepalive.lastAttemptAt.toStd + keepaliveTimeout < now := by
  have hle := h.attempt
  cases hlast : lastTime KeepaliveCall.attempt? tr with
  | none =>
    rw [hlast] at hle
    have hheard : s.keepalive.lastAttemptAt.toStd ≤ heard :=
      le_trans hle (h.heard heard due.inbound)
    exact lt_of_le_of_lt (Int.add_le_add_right hheard _) due.silent
  | some t =>
    rw [hlast] at hle
    exact lt_of_le_of_lt (Int.add_le_add_right hle _) (due.attempt t hlast)

end Keepalives

/-- **Main theorem.** When a keepalive is due, `can` returns true if and only if there is a
persistent interval and it has passed since the attempt that is recorded; so if the interval is no
longer than `KEEPALIVE_TIMEOUT`, and never if there is none. -/
theorem can_iff {s : Keepalives} {interval : Option Duration} {t₀ now heard : Instant}
    {tr : List KeepaliveCall}
    (run : Run Keepalives.step (fun _ _ => True) (.new interval t₀) tr s)
    (due : KeepaliveDue tr now heard) :
    (s.keepalive.can s.traffic now = true ↔
      ∃ v, interval = some v ∧ s.keepalive.lastAttemptAt.toStd + (v : ℕ) ≤ now) ∧
    ∀ v, interval = some v → v ≤ keepaliveTimeout → s.keepalive.can s.traffic now = true := by
  have h := Keepalives.run_inv run
  refine ⟨h.can_eq_true_iff now, fun v hv hle => (h.can_eq_true_iff now).mpr ⟨v, hv, ?_⟩⟩
  have hcast : (v : ℤ) ≤ (keepaliveTimeout : ℕ) := Int.ofNat_le.mpr hle
  exact le_trans (Int.add_le_add_left hcast _) (le_of_lt (h.attempt_lt due))

/-- A keepalive is sent, and a second later the peer is heard. -/
def heardOnce : List KeepaliveCall :=
  [.attempt (Duration.fromSecs 1), .outbound 32 (Duration.fromSecs 1),
    .inbound 32 (Duration.fromSecs 2)]

/-- Twenty seconds later a keepalive is due. -/
lemma heardOnce_due :
    KeepaliveDue heardOnce (Duration.fromSecs 22 : ℕ) (Duration.fromSecs 2 : ℕ) where
  inbound := by decide
  silent := by decide
  outbound t h := by
    cases h
    decide
  attempt t h := by
    cases h
    decide

/-- With an interval of ten seconds it is sent. -/
theorem can_iff_sample : ∃ s,
    Run Keepalives.step (fun _ _ => True) (.new (some keepaliveTimeout) 0) heardOnce s ∧
    s.keepalive.can s.traffic (Duration.fromSecs 22 : ℕ) = true := by
  obtain ⟨s, tr, run, hcheck⟩ := exists_run_of_exec Keepalives.step heardOnce
    (.new (some keepaliveTimeout) 0) (fun r => decide (r.2 = heardOnce)) (by decide +kernel)
  obtain rfl : tr = heardOnce := of_decide_eq_true hcheck
  exact ⟨s, run, (can_iff run heardOnce_due).2 _ rfl (le_refl _)⟩

/-- Without one it is not. -/
theorem keepalive_missed : ∃ s,
    Run Keepalives.step (fun _ _ => True) (.new none 0) heardOnce s ∧
    KeepaliveDue heardOnce (Duration.fromSecs 22 : ℕ) (Duration.fromSecs 2 : ℕ) ∧
    s.keepalive.can s.traffic (Duration.fromSecs 22 : ℕ) = false := by
  obtain ⟨s, tr, run, hcheck⟩ := exists_run_of_exec Keepalives.step heardOnce (.new none 0)
    (fun r => decide (r.2 = heardOnce) &&
      !r.1.keepalive.can r.1.traffic (Duration.fromSecs 22 : ℕ)) (by decide +kernel)
  simp only [Bool.and_eq_true, decide_eq_true_eq, Bool.not_eq_true'] at hcheck
  obtain ⟨rfl, hcan⟩ := hcheck
  exact ⟨s, run, heardOnce_due, hcan⟩

/-! ## The timer -/

/-- After an attempt at `now` is recorded the deadline lies in the future, if the interval is a
millisecond or more. -/
lemma KeepAliveMonitor.lt_nextAttemptIn_attempt {m : KeepAliveMonitor} {traffic : TrafficMonitor}
    {now : Instant} (hv : ∀ v, m.persistentKeepaliveInterval = some v → 1000000 ≤ v)
    (hclock : now < m.lastAttemptAt.epoch + (2 ^ 64 * 1000000 : ℕ)) :
    now < (m.attempt now).nextAttemptIn traffic now := by
  have hlt : now < (m.lastAttemptAt.setNow now).toStd + 1000000 :=
    AtomicInstant.lt_toStd_setNow hclock
  have hrecent : ¬ keepaliveTimeout ≤ (m.attempt now).lastAttemptAt.elapsed now := by
    rw [AtomicInstant.elapsed, Instant.le_elapsed_iff (by decide), not_le]
    exact lt_of_lt_of_le hlt (Int.add_le_add_left (by decide) _)
  unfold nextAttemptIn
  rw [if_neg fun hboth => hrecent hboth.1]
  cases hinterval : (m.attempt now).persistentKeepaliveInterval with
  | none => exact Int.lt_add_of_pos_right _ (by decide)
  | some v =>
    have hcast : (1000000 : ℤ) ≤ (v : ℕ) := Int.ofNat_le.mpr (hv v hinterval)
    exact lt_of_lt_of_le hlt (Int.add_le_add_left hcast _)

/-- `Peer::keepalive` comes back with the attempt recorded if it was due and the peer is online,
and else with the monitors as they were. -/
lemma PeerNode.keepaliveStep_cases {n n' : PeerNode} {st st' : Store} {env : Env}
    {evs : List Event} (h : n.keepaliveStep st env = some (.ret (st', n', evs))) :
    (n.peer.monitor.keepalive.can n.peer.monitor.traffic env.now = true ∧ n.peer.online = true ∧
      n'.peer.monitor =
        { n.peer.monitor with keepalive := n.peer.monitor.keepalive.attempt env.now }) ∨
    (¬ (n.peer.monitor.keepalive.can n.peer.monitor.traffic env.now = true ∧
      n.peer.online = true) ∧ n' = n) := by
  unfold keepaliveStep at h
  split at h
  · split_ifs at h with hboth
    · cases h
      exact .inl ⟨hboth.1, hboth.2, rfl⟩
    · cases h
      exact .inr ⟨hboth, rfl⟩
  · cases h

/-- The persistent interval of a peer that is made is a millisecond or more. -/
def Action.longInterval : Action → Bool
  | .insertPeer cfg _ => cfg.persistentKeepalive.all fun v => decide (1000000 ≤ v)
  | _ => true

/-- The interval is that of a peer that was made, and its keepalives count from then. -/
structure TimerInv (tr : List Mark) (x : Pace) : Prop where
  interval : ∀ v, x.monitor.keepalive.persistentKeepaliveInterval = some v → 1000000 ≤ v
  made : .created x.monitor.keepalive.lastAttemptAt.epoch ∈ tr

section Timer

variable {C : Crypto} {p : Key} {s s' : Timed} {privateKey : Key} {start : UInt32} {t₀ : Instant}
  {tr marks : List Mark} {now : Instant} {x x' : Pace}

/-- Intervals and epochs do not change. -/
lemma Pace.Step.keepalive (h : Pace.Step now x marks x') :
    x'.monitor.keepalive.persistentKeepaliveInterval =
        x.monitor.keepalive.persistentKeepaliveInterval ∧
      x'.monitor.keepalive.lastAttemptAt.epoch = x.monitor.keepalive.lastAttemptAt.epoch := by
  cases h with
  | check =>
    rw [PeerMonitor.keepalive_canHandshake]
    exact ⟨rfl, rfl⟩
  | rest | send | initiated | completed => exact ⟨rfl, rfl⟩
  | attempt => exact ⟨rfl, AtomicInstant.epoch_setNow⟩

/-- **Step lemma.** -/
lemma TimerInv.step (h : TimerInv tr x) (hstep : Pace.Step now x marks x') :
    TimerInv (tr ++ marks) x' := by
  obtain ⟨hinterval, hepoch⟩ := hstep.keepalive
  refine ⟨?_, ?_⟩
  · rw [hinterval]
    exact h.interval
  · rw [hepoch]
    exact List.mem_append_left _ h.made

/-- **Run lemma.** -/
lemma Timed.Reaches.timerInv
    (run : s.Reaches C p privateKey start t₀ (fun _ a => a.longInterval = true) tr) {n : PeerNode}
    (hn : s.device.peers p = some n) : TimerInv tr n.pace := by
  refine (run.invariant (I := fun tr _ x => TimerInv tr x) (fun {_ cfg now} ok => ?_)
    fun _ _ _ hI _ hstep => hI.step hstep).2 n hn
  refine ⟨fun v hv => ?_, by simp [PeerMonitor.new, KeepAliveMonitor.new, AtomicInstant.fromStd]⟩
  have hcfg : cfg.persistentKeepalive = some v := hv
  rw [Action.longInterval, hcfg] at ok
  exact of_decide_eq_true ok

/-- **Main theorem.** In every run all of whose peers have a persistent interval of at least a
millisecond, or none: the timer branch of `loop_outbound` runs `Peer::keepalive`, less than `2 ^ 64`
milliseconds after the peer was made. Then the next deadline is later if and only if the peer is
online or the keepalive was not due.

**Proof sketch.** If a keepalive is sent, then the next one is due an interval later. If not, then
the monitor stays as it is, and its deadline is later unless a keepalive is due. -/
theorem deadline_later_iff {n : PeerNode} {env : Env}
    (run : s.Reaches C p privateKey start t₀ (fun _ a => a.longInterval = true) tr)
    (hn : s.device.peers p = some n) (hstep : s.step C p (.keepalive p env) = some (s', marks))
    (hclock : ∀ t, .created t ∈ tr → env.now < t + (2 ^ 64 * 1000000 : ℕ)) :
    ∃ n', s'.device.peers p = some n' ∧
      (env.now < n'.nextAttempt env.now ↔ n.peer.online = true ∨
        n.peer.monitor.keepalive.can n.peer.monitor.traffic env.now = false) := by
  have hinv := run.timerInv hn
  obtain ⟨⟨evs, htick⟩, -⟩ := Timed.step_eq_some.mp hstep
  obtain ⟨-, -, hr⟩ := Timed.tick_eq_some.mp htick
  simp only [Device.step, Device.taskStep, hn] at hr
  split at hr
  · cases hr
  · next hpanic => exact absurd hpanic PeerNode.keepaliveStep_ne_panic
  · next st n' evs h =>
    obtain ⟨hdevice, -⟩ : _ ∧ _ := by simpa only [Option.some.injEq, Prod.mk.injEq] using hr
    refine ⟨n', by rw [← hdevice]; simp, ?_⟩
    rcases PeerNode.keepaliveStep_cases h with ⟨-, honline, hmonitor⟩ | ⟨hnot, rfl⟩
    · refine iff_of_true ?_ (.inl honline)
      unfold PeerNode.nextAttempt
      rw [hmonitor]
      exact KeepAliveMonitor.lt_nextAttemptIn_attempt hinv.interval (hclock _ hinv.made)
    · have hlater : env.now < n'.nextAttempt env.now ↔
          n'.peer.monitor.keepalive.can n'.peer.monitor.traffic env.now = false := by
        unfold PeerNode.nextAttempt KeepAliveMonitor.can
        rw [decide_eq_false_iff_not, not_le]
      rw [hlater]
      refine ⟨.inr, fun hor => hor.elim (fun honline => ?_) id⟩
      simpa [honline] using hnot

end Timer

namespace Sample

/-- The peer with a persistent interval of 25 seconds. -/
def persistent (isOnline : Bool) : PeerConfig :=
  { config with isOnline, persistentKeepalive := some (Duration.fromSecs 25) }

/-- A device with that peer. -/
def persistentDevice (isOnline : Bool) : Device :=
  device.insertPeer .sample (persistent isOnline) 0

/-- The peer there. -/
def persistentNode (isOnline : Bool) : PeerNode where
  peer := .new .sample ((LocalStaticSecret.new .sample localKey).withPeer remote)
    (some (Device.endpointFor endpoint.dst)) (some (Duration.fromSecs 25)) isOnline "" 0
  allowedIps := config.allowedIps
  inbox := []
  outbox := []
  handshakeTask := .waiting
  inboundTask := .idle
  outboundTask := .idle

/-- The device has the peer. -/
lemma peers_persistentDevice (isOnline : Bool) :
    (persistentDevice isOnline).peers remote = some (persistentNode isOnline) := by
  simp [persistentDevice, Device.insertPeer, persistent, config, persistentNode, device, Device.new]

end Sample

/-- The peer was made by a run. -/
lemma persistent_reaches (isOnline : Bool) :
    Timed.Reaches .sample Sample.remote ⟨Sample.persistentDevice isOnline, 0⟩ Sample.localKey
      Sample.start 0 (fun _ a => a.longInterval = true) [.created 0] := by
  refine Run.nil.snoc (a := .insertPeer (Sample.persistent isOnline) 0) rfl ?_
  rfl

/-- The timer of an online peer fires after ten minutes, and its next deadline is later. -/
theorem deadline_later_iff_sample : ∃ s' marks n',
    Timed.step .sample Sample.remote ⟨Sample.persistentDevice true, 0⟩
      (.keepalive Sample.remote (Sample.env 0)) = some (s', marks) ∧
    s'.device.peers Sample.remote = some n' ∧
    (Sample.env 0).now < n'.nextAttempt (Sample.env 0).now := by
  have hstep : ∃ s' marks, Timed.step .sample Sample.remote ⟨Sample.persistentDevice true, 0⟩
      (.keepalive Sample.remote (Sample.env 0)) = some (s', marks) := by
    simp only [Timed.step, Timed.tick, Device.step, Device.taskStep,
      Sample.peers_persistentDevice]
    exact ⟨_, _, rfl⟩
  obtain ⟨s', marks, hstep⟩ := hstep
  obtain ⟨n', hn', hiff⟩ := deadline_later_iff (persistent_reaches true)
    (Sample.peers_persistentDevice true) hstep (fun t ht => by
      obtain rfl : t = 0 := by simpa using ht
      decide)
  exact ⟨s', marks, n', hstep, hn', hiff.mpr (.inl rfl)⟩

/-- The timer of an offline peer fires after ten minutes. Nothing changes, and the next deadline has
long passed. -/
theorem timer_spins :
    Timed.Reaches .sample Sample.remote ⟨Sample.persistentDevice false, 0⟩ Sample.localKey
      Sample.start 0 (fun _ a => a.longInterval = true) [.created 0] ∧
    Timed.step .sample Sample.remote ⟨Sample.persistentDevice false, 0⟩
      (.keepalive Sample.remote (Sample.env 0)) =
      some (⟨Sample.persistentDevice false, (Sample.env 0).now⟩, []) ∧
    (Sample.persistentDevice false).peers Sample.remote = some (Sample.persistentNode false) ∧
    (Sample.persistentNode false).nextAttempt (Sample.env 0).now ≤ (Sample.env 0).now := by
  refine ⟨persistent_reaches false, ?_, Sample.peers_persistentDevice false, by decide⟩
  have hkeep : (Sample.persistentNode false).keepaliveStep (Sample.persistentDevice false).store
      (Sample.env 0) = some (.ret ((Sample.persistentDevice false).store,
        Sample.persistentNode false, [])) := rfl
  have hstep : (Sample.persistentDevice false).step .sample
      (.keepalive Sample.remote (Sample.env 0)) = some (Sample.persistentDevice false, []) := by
    simp only [Device.step, Device.taskStep, Sample.peers_persistentDevice, hkeep]
    rw [Device.setPeer, ← Sample.peers_persistentDevice, Function.update_eq_self]
  simp only [Timed.step, Timed.tick, hstep]
  rfl

end Vlink
