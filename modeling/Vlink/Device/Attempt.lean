import Vlink.Device.Timed

set_option autoImplicit false

/-!
# The window for handshake attempts

The window for attempts ends at `attempt_before`, `REKEY_ATTEMPT_TIME` after it was opened.
`will_initiate_in` looks at its end to find the time to sleep, but `can_handshake` does not. So a
peer that does not answer is sent initiations for ever.

Two tasks of a peer share its monitor without a lock: `loop_handshake`, and `loop_inbound`, which
calls `completed` and `initiated`. Both call `reset_attempt`, which reads the clock, stores the
reading and then adds `REKEY_ATTEMPT_TIME` to what is stored. Two such calls that overlap may leave
a window twice as long. Here every access of the monitor and every reading of the clock is a step of
its own, and the tasks take turns in any order.

## Main definitions

* `Vlink.ResetPoint.step` — the operations of `reset_attempt`.
* `Vlink.Shared`, `Vlink.Shared.step` — the monitor of a peer with the two tasks.
* `Vlink.Within` — an initiation is sent in the window.
* `Vlink.Shared.timely` — a call of `reset_attempt` is not interrupted, and when the check passes
  there is enough time left to send the initiation.
* `Vlink.Shared.settled` — `attempt_before`, when a call of `reset_attempt` that is under way will
  be over.

## Main results

* `Vlink.Shared.run_check`, `Vlink.Shared.run_completed` — without interruption the operations are
  `can_handshake` and `completed`.
* `Vlink.Shared.step_cases` — what a step can do to the window.
* `Vlink.initiations_in_window` — in timely runs initiations are sent in the window.
* `Vlink.initiation_after_window` — an initiation that is sent after it, and one in a window that
  two calls of `reset_attempt` have made too long.

## Design

A step is made at a time that is not earlier than that of the step before it. The accesses of the
monitor take effect in the order of the steps. Of the counter of sent messages only the total
matters here. That the peer is online, and that the handlers of the inbound task call `completed` or
`initiated`, may happen at any time.
-/

namespace Vlink

/-! ## The operations of the two tasks -/

/-- Where a call of `reset_attempt` stands. -/
inductive ResetPoint where
  /-- `set_now` reads the clock, and stores the reading. -/
  | clock
  | store (reading : Instant)
  /-- `add_duration`. -/
  | add
deriving DecidableEq

/-- The next operation of `reset_attempt`. -/
def ResetPoint.step (before : AtomicInstant) (now : Instant) :
    ResetPoint → AtomicInstant × Option ResetPoint
  | .clock => (before, some (.store now))
  | .store reading => (before.setNow reading, some .add)
  | .add => (before.addDuration rekeyAttemptTime, none)

/-- Where `loop_handshake` stands. -/
inductive LoopPoint where
  /-- In `await_online`. -/
  | waiting
  /-- In `can_handshake`: at the counter of messages; at `last_complete_at` and the clock; at
  `attempt_before` and again `last_complete_at`; in `reset_attempt`; at `last_attempt_at` and the
  clock. -/
  | counter
  | complete
  | completeElapsed (complete : Instant)
  | before
  | compare (before : Instant)
  | resetting (r : ResetPoint)
  | attempt
  | attemptElapsed (attempt : Instant)
  /-- `can_handshake` has returned true, at the time `since`. -/
  | committed (since : Instant)
  /-- In `initiated`: at the clock, and at `last_attempt_at`. -/
  | sent
  | record (reading : Instant)
  /-- In `will_initiate_in`: at `attempt_before` and the clock; at `last_complete_at` and the clock;
  at the clock, or at `last_attempt_at`. -/
  | resting
  | restingMax (before : Instant)
  | restingComplete
  | restingElapsed (complete : Instant)
  | restingClock
  | restingAttempt
  | sleeping (wake : Instant)
deriving DecidableEq

/-- Where `loop_inbound` stands, as far as it concerns the monitor of handshakes. -/
inductive InboundPoint where
  | idle
  /-- In `completed`: at the clock, at `last_complete_at` and at `last_complete_ts`; in
  `reset_attempt`. -/
  | completeClock
  | completeStore (reading : Instant)
  | stamp
  | resetting (r : ResetPoint)
  /-- In `initiated`. -/
  | attemptClock
  | attemptStore (reading : Instant)
deriving DecidableEq

/-- The call of `reset_attempt` that the handshake loop is in. -/
def LoopPoint.reset? : LoopPoint → Option ResetPoint
  | .resetting r => some r
  | _ => none

/-- The call of `reset_attempt` that the inbound loop is in. -/
def InboundPoint.reset? : InboundPoint → Option ResetPoint
  | .resetting r => some r
  | _ => none

/-- The monitor of a peer, the tasks that use it, and the time of the last step. -/
structure Shared where
  handshake : HandshakeMonitor
  txMessages : UInt64
  clock : Instant
  loop : LoopPoint
  inbound : InboundPoint

/-- The steps, each with its time. -/
inductive MonitorAction where
  /-- The next operation of the handshake loop. -/
  | loop (now : Instant)
  /-- The inbound loop calls `completed` or `initiated`, or goes on with the call; `wall` is the
  wall clock. -/
  | completed (now : Instant)
  | initiated (now : Instant)
  | inbound (now : Instant) (wall : SystemTime)
  /-- A message is counted. -/
  | outbound (now : Instant)

/-- The time of a step. -/
def MonitorAction.time : MonitorAction → Instant
  | .loop now | .completed now | .initiated now | .inbound now _ | .outbound now => now

namespace Shared

/-- A new peer. -/
def new (t₀ : Instant) : Shared where
  handshake := .new t₀
  txMessages := 0
  clock := t₀
  loop := .waiting
  inbound := .idle

/-- The next operation of `loop_handshake`. -/
def loopStep (s : Shared) (now : Instant) : Option (Shared × List Mark) :=
  let m := s.handshake
  match s.loop with
  | .waiting => some ({ s with loop := .counter }, [])
  | .counter =>
    if rekeyAfterMessages ≤ s.txMessages then some ({ s with loop := .committed now }, [])
    else some ({ s with loop := .complete }, [])
  | .complete => some ({ s with loop := .completeElapsed m.lastCompleteAt.toStd }, [])
  | .completeElapsed t =>
    if t.elapsed now < rekeyAfterTime then some ({ s with loop := .resting }, [])
    else some ({ s with loop := .before }, [])
  | .before => some ({ s with loop := .compare m.attemptBefore.toStd }, [])
  | .compare t =>
    if t < m.lastCompleteAt.toStd + rekeyAfterTime then
      some ({ s with loop := .resetting .clock }, [])
    else some ({ s with loop := .attempt }, [])
  | .resetting r =>
    let (attemptBefore, next) := r.step m.attemptBefore now
    some ({ s with
      handshake := { m with attemptBefore }
      loop := next.elim .attempt .resetting }, if r = .clock then [.reopened now] else [])
  | .attempt => some ({ s with loop := .attemptElapsed m.lastAttemptAt.toStd }, [])
  | .attemptElapsed t =>
    if rekeyTimeout ≤ t.elapsed now then some ({ s with loop := .committed now }, [])
    else some ({ s with loop := .resting }, [])
  -- `initiate`, `prepare_uninit` and the call of `send_outbound`
  | .committed _ => some ({ s with loop := .sent }, [.initiation now m.attemptBefore.toStd])
  | .sent => some ({ s with loop := .record now }, [])
  | .record reading => some ({ s with handshake := m.initiated reading, loop := .resting }, [])
  | .resting => some ({ s with loop := .restingMax m.attemptBefore.toStd }, [])
  | .restingMax t =>
    if t < now then some ({ s with loop := .restingClock }, [])
    else some ({ s with loop := .restingComplete }, [])
  | .restingComplete => some ({ s with loop := .restingElapsed m.lastCompleteAt.toStd }, [])
  | .restingElapsed t =>
    if t.elapsed now < rekeyAfterTime then some ({ s with loop := .restingClock }, [])
    else some ({ s with loop := .restingAttempt }, [])
  | .restingClock => some ({ s with loop := .sleeping (now + rekeyTimeout) }, [])
  | .restingAttempt =>
    some ({ s with loop := .sleeping (m.lastAttemptAt.toStd + rekeyTimeout) }, [])
  | .sleeping wake => if wake ≤ now then some ({ s with loop := .waiting }, []) else none

/-- The next operation of `completed` or `initiated` in `loop_inbound`. -/
def inboundStep (s : Shared) (now : Instant) (wall : SystemTime) :
    Option (Shared × List Mark) :=
  let m := s.handshake
  match s.inbound with
  | .idle => none
  | .completeClock => some ({ s with inbound := .completeStore now }, [])
  | .completeStore reading =>
    some ({ s with
      handshake := { m with lastCompleteAt := m.lastCompleteAt.setNow reading }
      inbound := .stamp }, [])
  | .stamp =>
    some ({ s with handshake := { m with lastCompleteTs := wall }, inbound := .resetting .clock },
      [])
  | .resetting r =>
    let (attemptBefore, next) := r.step m.attemptBefore now
    some ({ s with
      handshake := { m with attemptBefore }
      inbound := next.elim .idle .resetting }, if r = .clock then [.completed now] else [])
  | .attemptClock => some ({ s with inbound := .attemptStore now }, [])
  | .attemptStore reading =>
    some ({ s with handshake := m.initiated reading, inbound := .idle }, [])

/-- What a step does, apart from the time. -/
def act (s : Shared) : MonitorAction → Option (Shared × List Mark)
  | .loop now => s.loopStep now
  | .completed _ =>
    if s.inbound = .idle then some ({ s with inbound := .completeClock }, []) else none
  | .initiated _ =>
    if s.inbound = .idle then some ({ s with inbound := .attemptClock }, []) else none
  | .inbound now wall => s.inboundStep now wall
  | .outbound _ => some ({ s with txMessages := s.txMessages + 1 }, [])

/-- One step; `none` if it is not possible, or would turn the clock back. -/
def step (s : Shared) (a : MonitorAction) : Option (Shared × List Mark) :=
  if s.clock ≤ a.time then (s.act a).map fun r => ({ r.1 with clock := a.time }, r.2) else none

/-- A run whose steps meet `guard` leads from a new peer to `s`, and `tr` is noted of it after the
making of the peer. -/
def Reaches (s : Shared) (t₀ : Instant) (guard : Shared → MonitorAction → Prop) (tr : List Mark) :
    Prop :=
  Run step guard (new t₀) tr s

/-- The counter of sent messages is below its limit, and the end of a window that is opened now fits
its 64 bits. -/
def ordinary (s : Shared) (a : MonitorAction) : Bool :=
  decide (s.txMessages < rekeyAfterMessages) &&
    decide (a.time + rekeyAttemptTime < s.handshake.attemptBefore.epoch + (2 ^ 64 * 1000000 : ℕ))

/-- While one task is in `reset_attempt`, the other makes no step. When `can_handshake` is about to
return true, `margin` is left of the window; and the initiation is sent no later than that. -/
def timely (margin : Duration) (s : Shared) (a : MonitorAction) : Bool :=
  s.ordinary a &&
    match a with
    | .loop now => s.inbound.reset?.isNone &&
      match s.loop with
      | .attemptElapsed t => decide (t.elapsed now < rekeyTimeout) ||
          decide (now + margin ≤ s.handshake.attemptBefore.toStd)
      | .committed since => decide (now ≤ since + margin)
      | _ => true
    | .completed _ | .initiated _ | .inbound _ _ => s.loop.reset?.isNone
    | .outbound _ => true

end Shared

/-! ## The tasks without interruption -/

namespace Shared

variable {s s₀ s' : Shared} {m : PeerMonitor} {now : Instant} {wall : SystemTime}
  {tr evs : List Mark}

/-- A run is continued by a step at the time `now`. -/
lemma run_act {guard : Shared → MonitorAction → Prop} {a : MonitorAction}
    (run : Run step guard s₀ tr s) (ok : guard s a) (htime : a.time = now) (hclock : s.clock ≤ now)
    (h : s.act a = some (s', evs)) : Run step guard s₀ (tr ++ evs) { s' with clock := now } :=
  run.snoc ok (by simp [step, htime, hclock, h])

/-- The handshake loop makes a step, and no other task has made one. -/
lemma run_loop (run : Run step (fun _ a => a = .loop now) s₀ tr s) (hclock : s.clock ≤ now)
    (h : s.loopStep now = some (s', evs)) :
    Run step (fun _ a => a = .loop now) s₀ (tr ++ evs) { s' with clock := now } :=
  run_act run rfl rfl hclock h

/-- The inbound loop goes on with a call, and no other task has made a step. -/
lemma run_inbound (run : Run step (fun _ a => a = .completed now ∨ a = .inbound now wall) s₀ tr s)
    (hclock : s.clock ≤ now) (h : s.inboundStep now wall = some (s', evs)) :
    Run step (fun _ a => a = .completed now ∨ a = .inbound now wall) s₀ (tr ++ evs)
      { s' with clock := now } :=
  run_act (a := .inbound now wall) run (.inr rfl) rfl hclock h

/-- The end of the check. -/
lemma run_attempt (run : Run step (fun _ a => a = .loop now) s₀ tr s) (hclock : s.clock ≤ now)
    (hloop : s.loop = .attempt) :
    Run step (fun _ a => a = .loop now) s₀ tr { s with
      clock := now
      loop := if decide (rekeyTimeout ≤ s.handshake.lastAttemptAt.elapsed now) then .committed now
        else .resting } := by
  have hread : s.loopStep now =
      some ({ s with loop := .attemptElapsed s.handshake.lastAttemptAt.toStd }, []) := by
    simp [loopStep, hloop]
  have hcheck : ({ s with
      clock := now
      loop := .attemptElapsed s.handshake.lastAttemptAt.toStd } : Shared).loopStep now =
      some ({ s with
        clock := now
        loop := if decide (rekeyTimeout ≤ s.handshake.lastAttemptAt.elapsed now) then .committed now
          else .resting }, []) := by
    by_cases hspaced : rekeyTimeout ≤ s.handshake.lastAttemptAt.toStd.elapsed now <;>
      simp [loopStep, AtomicInstant.elapsed, hspaced]
  simpa using run_loop (run_loop run hclock hread) le_rfl hcheck

/-- **The operations of the check are `can_handshake`**, when no other task makes a step.

**Proof sketch.** The run is put together operation by operation. Its last part is the same whether
or not `reset_attempt` is called, and `run_attempt` is that part. -/
theorem run_check (hloop : s.loop = .counter) (hhandshake : s.handshake = m.handshake)
    (htx : s.txMessages = m.traffic.txMessages) (hclock : s.clock ≤ now) :
    ∃ tr, Run step (fun _ a => a = .loop now) s tr { s with
      clock := now
      handshake := (m.canHandshake now).2.handshake
      loop := if (m.canHandshake now).1 then .committed now else .resting } := by
  obtain ⟨handshake, txMessages, clock, loop, inbound⟩ := s
  obtain rfl : loop = .counter := hloop
  obtain rfl : handshake = m.handshake := hhandshake
  obtain rfl : txMessages = m.traffic.txMessages := htx
  have start : Run step (fun _ a => a = .loop now)
    ⟨m.handshake, m.traffic.txMessages, clock, .counter, inbound⟩ [] _ := .nil
  unfold PeerMonitor.canHandshake
  by_cases hlimit : rekeyAfterMessages ≤ m.traffic.txMessages
  · rw [if_pos hlimit]
    exact ⟨_, run_loop start hclock (if_pos hlimit)⟩
  rw [if_neg hlimit]
  have elapsed := run_loop (run_loop start hclock (if_neg hlimit)) le_rfl rfl
  by_cases hrecent : m.handshake.lastCompleteAt.elapsed now < rekeyAfterTime
  · rw [if_pos hrecent]
    exact ⟨_, run_loop elapsed le_rfl (if_pos hrecent)⟩
  rw [if_neg hrecent]
  have compare := run_loop (run_loop elapsed le_rfl (if_neg hrecent)) le_rfl rfl
  by_cases hdue : m.handshake.attemptBefore.toStd <
      m.handshake.lastCompleteAt.toStd + rekeyAfterTime
  · rw [if_pos hdue]
    have reset := run_loop (run_loop (run_loop (run_loop compare le_rfl (if_pos hdue)) le_rfl rfl)
      le_rfl rfl) le_rfl rfl
    exact ⟨_, run_attempt reset le_rfl rfl⟩
  · rw [if_neg hdue]
    exact ⟨_, run_attempt (run_loop compare le_rfl (if_neg hdue)) le_rfl rfl⟩

/-- The operations of the inbound loop are `completed`, when no other task makes a step. -/
theorem run_completed (hidle : s.inbound = .idle) (hclock : s.clock ≤ now) :
    ∃ tr, Run step (fun _ a => a = .completed now ∨ a = .inbound now wall) s tr
      { s with clock := now, handshake := s.handshake.completed now wall } := by
  obtain ⟨handshake, txMessages, clock, loop, inbound⟩ := s
  obtain rfl : inbound = .idle := hidle
  have start : Run step (fun _ a => a = .completed now ∨ a = .inbound now wall)
    ⟨handshake, txMessages, clock, loop, .idle⟩ [] _ := .nil
  have hcall : act ⟨handshake, txMessages, clock, loop, .idle⟩ (.completed now) =
      some (⟨handshake, txMessages, clock, loop, .completeClock⟩, []) := by
    simp only [act, if_true]
  have call := run_act start (Or.inl rfl) rfl hclock hcall
  have stored := run_inbound (run_inbound (run_inbound call le_rfl rfl) le_rfl rfl) le_rfl rfl
  exact ⟨_, run_inbound (run_inbound (run_inbound stored le_rfl rfl) le_rfl rfl) le_rfl rfl⟩

end Shared

/-! ## The window -/

/-- The time of an event that opens the window. -/
def Mark.opening? : Mark → Option Instant
  | .created now => some now
  | .completed now => some now
  | .reopened now => some now
  | _ => none

/-- An initiation is sent in the window, which ends `REKEY_ATTEMPT_TIME` after it was opened. -/
def Within (earlier : List Mark) (e : Mark) : Prop :=
  ∀ t before, e = .initiation t before →
    t ≤ before ∧ ∃ t' ∈ earlier.filterMap Mark.opening?, t ≤ t' + rekeyAttemptTime

/-- `attempt_before`, when the call of `reset_attempt` that is under way will be over. -/
def settle (before : AtomicInstant) : Option ResetPoint → AtomicInstant
  | some (.store reading) => (before.setNow reading).addDuration rekeyAttemptTime
  | some .add => before.addDuration rekeyAttemptTime
  | some .clock | none => before

/-- An operation of `reset_attempt` changes what `attempt_before` will be only when it reads the
clock. -/
lemma settle_step (before : AtomicInstant) (now : Instant) (r : ResetPoint) :
    settle (r.step before now).1 (r.step before now).2 =
      if r = .clock then (before.setNow now).addDuration rekeyAttemptTime
      else settle before (some r) := by
  cases r <;> rfl

namespace Shared

/-- The end of the window, when the call of `reset_attempt` that is under way will be over. -/
def settled (s : Shared) : AtomicInstant :=
  settle s.handshake.attemptBefore (s.loop.reset? <|> s.inbound.reset?)

/-- What a step can do to the window, and what is noted of it. -/
inductive Change (s : Shared) : MonitorAction → Shared → List Mark → Prop
  /-- The window stays as it is. If the loop has passed its check, it did so before. -/
  | keep {a : MonitorAction} {s' : Shared} (hsettled : s'.settled = s.settled)
      (hloop : ∀ since, s'.loop = .committed since → s.loop = .committed since) :
      Change s a s' []
  /-- The window is opened again. -/
  | reopen {a : MonitorAction} {s' : Shared} {e : Mark} (hopening : e.opening? = some a.time)
      (hsettled : s'.settled = (s.handshake.resetAttempt a.time).attemptBefore)
      (hloop : ∀ since, s'.loop = .committed since → s.loop = .committed since) :
      Change s a s' [e]
  /-- The check passes. -/
  | pass {s' : Shared} {now t : Instant} (hpoint : s.loop = .attemptElapsed t)
      (helapsed : rekeyTimeout ≤ t.elapsed now) (hloop : s'.loop = .committed now)
      (hsettled : s'.settled = s.settled) : Change s (.loop now) s' []
  /-- The initiation is sent. -/
  | send {s' : Shared} {now since : Instant} (hpoint : s.loop = .committed since)
      (hsettled : s'.settled = s.settled) (hloop : ∀ since, s'.loop ≠ .committed since) :
      Change s (.loop now) s' [.initiation now s.handshake.attemptBefore.toStd]

variable {s s' : Shared} {a : MonitorAction} {now : Instant} {wall : SystemTime}
  {tr evs : List Mark} {margin : Duration}

/-- The handshake loop, while the inbound loop is not in `reset_attempt`. -/
lemma loopStep_change (hother : s.inbound.reset? = none)
    (hbelow : s.txMessages < rekeyAfterMessages) (h : s.loopStep now = some (s', evs)) :
    s.Change (.loop now) { s' with clock := now } evs := by
  obtain ⟨handshake, txMessages, clock, loop, inbound⟩ := s
  cases loop with
  | committed since =>
    cases h
    exact .send rfl rfl (by simp)
  | resetting r =>
    have hsettle := settle_step handshake.attemptBefore now r
    cases r with
    | clock =>
      cases h
      refine .reopen rfl ?_ (by simp)
      rw [HandshakeMonitor.attemptBefore_resetAttempt]
      simpa [settled, LoopPoint.reset?, ResetPoint.step, MonitorAction.time] using hsettle
    | store reading | add =>
      cases h
      refine .keep ?_ (by simp)
      simpa [settled, LoopPoint.reset?, ResetPoint.step, hother] using hsettle
  | attemptElapsed t =>
    simp only [loopStep] at h
    split_ifs at h with hspaced <;> cases h
    · exact .pass rfl hspaced rfl rfl
    · exact .keep rfl (by simp)
  | counter =>
    simp only [loopStep, if_neg (UInt64.not_le.mpr hbelow)] at h
    cases h
    exact .keep rfl (by simp)
  | compare t =>
    simp only [loopStep] at h
    split_ifs at h <;> cases h
    · refine .keep ?_ (by simp)
      -- `reset_attempt` is called, but has not read the clock
      simp [settled, LoopPoint.reset?, settle, hother]
    · exact .keep rfl (by simp)
  | completeElapsed t | restingMax t | restingElapsed t | sleeping t =>
    simp only [loopStep] at h
    split_ifs at h <;> cases h <;> exact .keep rfl (by simp)
  | waiting | complete | before | attempt | sent | record _ | resting | restingComplete
    | restingClock | restingAttempt =>
    cases h
    exact .keep rfl (by simp)

/-- The inbound loop, while the handshake loop is not in `reset_attempt`. -/
lemma inboundStep_change (hother : s.loop.reset? = none)
    (h : s.inboundStep now wall = some (s', evs)) :
    s.Change (.inbound now wall) { s' with clock := now } evs := by
  obtain ⟨handshake, txMessages, clock, loop, inbound⟩ := s
  cases inbound with
  | idle => cases h
  | resetting r =>
    have hsettle := settle_step handshake.attemptBefore now r
    cases r with
    | clock =>
      cases h
      refine .reopen rfl ?_ fun _ => id
      rw [HandshakeMonitor.attemptBefore_resetAttempt]
      simpa [settled, InboundPoint.reset?, ResetPoint.step, MonitorAction.time, hother]
        using hsettle
    | store reading | add =>
      cases h
      refine .keep ?_ fun _ => id
      simpa [settled, InboundPoint.reset?, ResetPoint.step, hother] using hsettle
  | completeClock | completeStore _ | stamp | attemptClock | attemptStore _ =>
    cases h
    refine .keep ?_ fun _ => id
    simp [settled, InboundPoint.reset?, settle, HandshakeMonitor.initiated, hother]

/-- **What a step can do to the window**, if a call of `reset_attempt` is not interrupted. -/
theorem step_cases (ok : s.timely margin a = true) (h : s.step a = some (s', evs)) :
    s.clock ≤ a.time ∧ s'.clock = a.time ∧ s.Change a s' evs := by
  unfold step at h
  split_ifs at h with hclock
  obtain ⟨⟨s₁, evs'⟩, hact, heq⟩ := Option.map_eq_some_iff.mp h
  cases heq
  refine ⟨hclock, rfl, ?_⟩
  obtain ⟨hordinary, halone⟩ : s.ordinary a = true ∧ _ := Bool.and_eq_true_iff.mp ok
  have hbelow : s.txMessages < rekeyAfterMessages :=
    of_decide_eq_true (Bool.and_eq_true_iff.mp hordinary).1
  cases a with
  | loop now =>
    exact loopStep_change (Option.isNone_iff_eq_none.mp (Bool.and_eq_true_iff.mp halone).1) hbelow
      hact
  | inbound now wall => exact inboundStep_change (Option.isNone_iff_eq_none.mp halone) hact
  | completed now | initiated now =>
    simp only [act] at hact
    split_ifs at hact with hidle
    cases hact
    refine .keep ?_ fun _ => id
    simp [settled, InboundPoint.reset?, hidle]
  | outbound now =>
    cases hact
    exact .keep rfl fun _ => id

/-- The epoch of the end of the window never changes. -/
lemma epoch_settled : s.settled.epoch = s.handshake.attemptBefore.epoch := by
  unfold settled settle
  split
  · rw [AtomicInstant.epoch_addDuration, AtomicInstant.epoch_setNow]
  · rw [AtomicInstant.epoch_addDuration]
  · rfl
  · rfl

/-- When no call of `reset_attempt` is under way, the window ends at `attempt_before`. -/
lemma settled_of_none (hloop : s.loop.reset? = none) (hinbound : s.inbound.reset? = none) :
    s.settled = s.handshake.attemptBefore := by
  simp [settled, hloop, hinbound, settle]

/-- What is known of the window in a timely run: its end is at most `REKEY_ATTEMPT_TIME` after it
was opened, and when the loop has passed its check at the time `since`, it does not end within
`margin` of that. -/
structure Window (margin : Duration) (tr : List Mark) (s : Shared) : Prop where
  epoch : s.settled.epoch ≤ s.clock
  opened : ∃ t ∈ tr.filterMap Mark.opening?, s.settled.toStd ≤ t + rekeyAttemptTime
  ready : ∀ since, s.loop = .committed since →
    since ≤ s.clock ∧ since + margin ≤ s.settled.toStd
  within : Historically Within tr

/-- The window of a new peer. -/
lemma window_new (margin : Duration) (t₀ : Instant) : (new t₀).Window margin [.created t₀] where
  epoch := by
    rw [epoch_settled]
    exact le_refl t₀
  opened := by
    have hend := (AtomicInstant.fromStd t₀).toStd_addDuration_le rekeyAttemptTime
    rw [AtomicInstant.toStd_fromStd] at hend
    refine ⟨t₀, by simp [Mark.opening?], ?_⟩
    rw [settled_of_none rfl rfl]
    exact hend
  ready _ h := by cases h
  within := by
    rw [← List.nil_append [Mark.created t₀], historically_concat]
    exact ⟨historically_nil, fun _ _ h => by cases h⟩

/-- The window stays as it is. The loop may pass its check. -/
lemma Window.keep (h : s.Window margin tr) (hle : s.clock ≤ s'.clock)
    (hsettled : s'.settled = s.settled)
    (hloop : ∀ since, s'.loop = .committed since → s.loop = .committed since ∨
      since ≤ s'.clock ∧ since + margin ≤ s.settled.toStd) :
    s'.Window margin tr where
  epoch := by
    rw [hsettled]
    exact le_trans h.epoch hle
  opened := by
    rw [hsettled]
    exact h.opened
  ready since hp := by
    rw [hsettled]
    rcases hloop since hp with hp | hp
    · exact ⟨le_trans (h.ready since hp).1 hle, (h.ready since hp).2⟩
    · exact hp
  within := h.within

/-- The window is opened again. If the loop has passed its check, it did so before. -/
lemma Window.reopen (h : s.Window margin tr) (hle : s.clock ≤ now) (hclock : s'.clock = now)
    (hmargin : margin + 1000000 ≤ rekeyAttemptTime)
    (hfits : now + rekeyAttemptTime < s.handshake.attemptBefore.epoch + (2 ^ 64 * 1000000 : ℕ))
    {e : Mark} (hopening : e.opening? = some now)
    (hsettled : s'.settled = (s.handshake.resetAttempt now).attemptBefore)
    (hloop : ∀ since, s'.loop = .committed since → s.loop = .committed since) :
    s'.Window margin (tr ++ [e]) where
  epoch := by
    rw [hsettled, HandshakeMonitor.epoch_attemptBefore_resetAttempt, ← epoch_settled, hclock]
    exact le_trans h.epoch hle
  opened := by
    refine ⟨now, by simp [hopening], ?_⟩
    rw [hsettled]
    exact HandshakeMonitor.attemptBefore_resetAttempt_le (epoch_settled ▸ le_trans h.epoch hle)
  ready since hp := by
    have hsince : since ≤ now := le_trans (h.ready since (hloop since hp)).1 hle
    have hend := HandshakeMonitor.lt_attemptBefore_resetAttempt hfits
    have hlater : ∀ (t now e : ℤ) (m w : ℕ), m + 1000000 ≤ w → t ≤ now → now + w < e + 1000000 →
        t + m ≤ e := by omega
    rw [hsettled, hclock]
    exact ⟨hsince, hlater _ _ _ _ _ hmargin hsince hend⟩
  within := by
    rw [historically_concat]
    refine ⟨h.within, fun t before he => ?_⟩
    rw [he] at hopening
    cases hopening

/-- **Step lemma.** A timely step keeps what is known of the window.

**Proof sketch.** By `step_cases` a step leaves the window alone, opens it, passes the check or
sends the initiation. A window that is opened after the check lasts at least `margin` from the
check. When the check passes, `margin` is left; when the initiation is sent, no more than `margin`
has gone by since, and no call of `reset_attempt` is under way, so that the window still ends at
`attempt_before`. -/
lemma Window.step (h : s.Window margin tr) (hmargin : margin + 1000000 ≤ rekeyAttemptTime)
    (ok : s.timely margin a = true) (hstep : s.step a = some (s', evs)) :
    s'.Window margin (tr ++ evs) := by
  obtain ⟨hle, hclock, hchange⟩ := step_cases ok hstep
  obtain ⟨hordinary, htimely⟩ : s.ordinary a = true ∧ _ := Bool.and_eq_true_iff.mp ok
  have hfits := of_decide_eq_true (Bool.and_eq_true_iff.mp hordinary).2
  cases hchange with
  | keep hsettled hloop =>
    rw [List.append_nil]
    exact h.keep (hclock ▸ hle) hsettled fun since hp => .inl (hloop since hp)
  | reopen hopening hsettled hloop =>
    exact h.reopen hle hclock hmargin hfits hopening hsettled hloop
  | @pass _ now t hpoint helapsed hloop hsettled =>
    obtain ⟨halone, hleft⟩ := Bool.and_eq_true_iff.mp htimely
    have hsame := settled_of_none (by rw [hpoint]; rfl) (Option.isNone_iff_eq_none.mp halone)
    simp only [hpoint, Bool.or_eq_true, decide_eq_true_eq] at hleft
    rw [List.append_nil]
    refine h.keep (hclock ▸ hle) hsettled fun since hp => .inr ?_
    obtain rfl : now = since := LoopPoint.committed.inj (hloop.symm.trans hp)
    rw [hsame, hclock]
    exact ⟨le_refl _, hleft.resolve_left (Nat.not_lt.mpr helapsed)⟩
  | @send _ now since hpoint hsettled hloop =>
    obtain ⟨halone, hprompt⟩ := Bool.and_eq_true_iff.mp htimely
    have hsame := settled_of_none (by rw [hpoint]; rfl) (Option.isNone_iff_eq_none.mp halone)
    simp only [hpoint, decide_eq_true_eq] at hprompt
    obtain ⟨t, ht, hend⟩ := h.opened
    have hbefore : now ≤ s.handshake.attemptBefore.toStd :=
      le_trans hprompt (hsame ▸ (h.ready since hpoint).2)
    refine ⟨?_, ⟨t, ?_, ?_⟩, fun since hp => absurd hp (hloop since), ?_⟩
    · rw [hsettled, hclock]
      exact le_trans h.epoch hle
    · rw [List.filterMap_append]
      exact List.mem_append_left _ ht
    · rwa [hsettled]
    · rw [historically_concat]
      refine ⟨h.within, fun t' before heq => ?_⟩
      cases heq
      exact ⟨hbefore, t, ht, le_trans hbefore (hsame ▸ hend)⟩

end Shared

/-- **Main theorem.** In every run in which the counter of sent messages stays below its limit, no
call of `reset_attempt` is interrupted, `margin` is left of the window whenever the check passes,
and the initiation is sent within `margin` of that: each initiation is sent not later than
`attempt_before`, and not later than `REKEY_ATTEMPT_TIME` after the window was opened.

**Proof sketch.** `Shared.Window` holds of a new peer and is kept by every step
(`Shared.Window.step`), and its field `within` is the statement. -/
theorem initiations_in_window {s : Shared} {t₀ : Instant} {margin : Duration} {tr : List Mark}
    (hmargin : margin + 1000000 ≤ rekeyAttemptTime)
    (run : s.Reaches t₀ (fun s a => s.timely margin a = true) tr) :
    Historically Within (.created t₀ :: tr) := by
  have hwindow : s.Window margin (.created t₀ :: tr) :=
    Run.invariant (I := fun tr s => Shared.Window margin (.created t₀ :: tr) s)
      (Shared.window_new margin t₀) (fun _ ih ok hstep => ih.step hmargin ok hstep) run
  exact hwindow.within

namespace Sample

/-- A number of seconds. -/
def secs (n : ℕ) : Instant := (Duration.fromSecs n : ℕ)

/-- The handshake loop makes a number of operations, all at one time. -/
def loopFor (n : ℕ) (t : ℕ) : List MonitorAction := List.replicate n (.loop (secs t))

/-- The inbound loop goes on with its call. -/
def inboundFor (n : ℕ) (t : ℕ) : List MonitorAction := List.replicate n (.inbound (secs t) 0)

end Sample

open Sample

/-- A peer that is made at the time zero is sent an initiation after a minute. -/
theorem initiations_in_window_sample :
    Duration.fromSecs 5 + 1000000 ≤ rekeyAttemptTime ∧ ∃ s tr,
    Shared.Reaches s 0 (fun s a => s.timely (Duration.fromSecs 5) a = true) tr ∧
    tr = [.initiation (secs 60) (secs 90)] ∧ Historically Within (.created 0 :: tr) := by
  refine ⟨by decide, ?_⟩
  obtain ⟨s, tr, run, hcheck⟩ := exists_run_of_exec
    (checked Shared.step (Shared.timely (Duration.fromSecs 5))) (loopFor 9 60) (.new 0)
    (fun r => decide (r.2 = [.initiation (secs 60) (secs 90)])) (by decide +kernel)
  exact ⟨s, tr, run.of_checked, of_decide_eq_true hcheck,
    initiations_in_window (by decide) run.of_checked⟩

/-- Two runs. In the first, a peer that does not answer is sent initiations one minute and 95
seconds after it was made, when its window is over. In the second, a handshake is completed at the
time zero, and two minutes later `can_handshake` and a second call of `completed` open the window at
the same time: both store their reading before either adds `REKEY_ATTEMPT_TIME`. So the window lasts
for three minutes, and an initiation is sent two minutes after it was opened. -/
theorem initiation_after_window :
    (∃ s tr, Shared.Reaches s 0 (fun s a => s.ordinary a = true) tr ∧
      tr = [.initiation (secs 60) (secs 90), .initiation (secs 95) (secs 90)] ∧
      ¬ Historically Within (.created 0 :: tr)) ∧
    ∃ s tr, Shared.Reaches s 0 (fun s a => s.ordinary a = true) tr ∧
      tr = [.completed 0, .reopened (secs 120), .completed (secs 120),
        .initiation (secs 120) (secs 300), .initiation (secs 240) (secs 300)] ∧
      ¬ Historically Within (.created 0 :: tr) := by
  constructor
  · obtain ⟨s, tr, run, hcheck⟩ := exists_run_of_exec (checked Shared.step Shared.ordinary)
      (loopFor 16 60 ++ loopFor 10 95) (.new 0)
      (fun r => decide (r.2 = [.initiation (secs 60) (secs 90), .initiation (secs 95) (secs 90)]))
      (by decide +kernel)
    obtain rfl := of_decide_eq_true hcheck
    refine ⟨s, _, run.of_checked, rfl, fun h => ?_⟩
    have hlast := (h [.created 0, .initiation (secs 60) (secs 90)] _ [] rfl _ _ rfl).1
    exact absurd hlast (by decide)
  · obtain ⟨s, tr, run, hcheck⟩ := exists_run_of_exec (checked Shared.step Shared.ordinary)
      (.completed 0 :: inboundFor 6 0 ++ loopFor 8 120 ++ .completed (secs 120) ::
        inboundFor 5 120 ++ loopFor 1 120 ++ inboundFor 1 120 ++ loopFor 10 120 ++ loopFor 10 240)
      (.new 0)
      (fun r => decide (r.2 = [.completed 0, .reopened (secs 120), .completed (secs 120),
        .initiation (secs 120) (secs 300), .initiation (secs 240) (secs 300)]))
      (by decide +kernel)
    obtain rfl := of_decide_eq_true hcheck
    refine ⟨s, _, run.of_checked, rfl, fun h => ?_⟩
    obtain ⟨-, t, ht, hlate⟩ := h [.created 0, .completed 0, .reopened (secs 120),
      .completed (secs 120), .initiation (secs 120) (secs 300)] _ [] rfl _ _ rfl
    have hopenings : ∀ t ∈ [0, 0, secs 120, secs 120], ¬ secs 240 ≤ t + rekeyAttemptTime := by
      decide
    exact hopenings t ht hlate

end Vlink
