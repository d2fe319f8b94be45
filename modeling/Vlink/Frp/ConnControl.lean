import Vlink.Lib.Outcome
import Vlink.Lib.Runs

set_option autoImplicit false

/-!
# Opening streams of a connection

`frp-client/src/conn_control.rs`: `ConnControl` sends commands through a queue to
`ConnControlFuture`, which owns the connection and is polled by a task. One call of `poll` takes at
most one command. If the connection cannot open a stream at once, the command is lost with its reply
sender; and after a command was taken the queue is not asked again, so the task is not registered
for the next one.

The connection is not modelled: what it answers in a call of `poll` is part of the action. The queue
has eight places, and a sender waits for one. It wakes the task when a command arrives, provided the
task is registered with it, which it is after `recv` has returned `Pending`. The connection may wake
the task at any time.

## Main definitions

* `Vlink.Frp.ConnControlFuture`, `ConnControlFuture.poll` — the future, and one call of `poll`.
* `Vlink.Frp.Control`, `Vlink.Frp.Control.step` — the future with its task and its queue.
* `Vlink.Frp.Attends` — every command that was taken was answered, in order, and whenever `poll`
  returned `Pending`, the queue had returned `Pending` in that call.
* `Vlink.Frp.Control.attentive` — a poll that finds the queue empty, or a connection that answers at
  once.

## Main results

* `Vlink.Frp.Control.attends_polled_iff` — one call of `poll`.
* `Vlink.Frp.attends_iff_attentive` — in a run, all commands are attended to if and only if it can
  be made of attentive steps; a command that waits has then woken the task.
* `Vlink.Frp.command_lost` — a command whose sender is dropped, and a command that nobody is woken
  for.
-/

namespace Vlink.Frp

variable {σ ε : Type}

/-! ## The future -/

/-- `Poll`. -/
inductive Poll (α : Type) where
  | ready (a : α)
  | pending
deriving DecidableEq

/-- `Poll::is_pending`. -/
def Poll.isPending {α : Type} : Poll α → Bool
  | ready _ => false
  | pending => true

/-- `ControlCommand`; the reply senders are numbered. -/
inductive ControlCommand where
  | openStream (tx : ℕ)
  | closeConnection (tx : ℕ)
deriving DecidableEq

/-- What the connection answers in one call of `poll`. -/
structure Answers (σ ε : Type) where
  /-- `poll_new_outbound`. -/
  newOutbound : Poll (Except ε σ)
  /-- `poll_next_inbound`. -/
  nextInbound : Poll (Option (Except ε σ))

/-- What is recorded of the commands. -/
inductive CommandEvent (σ ε : Type) where
  /-- `open_stream` has sent its command. -/
  | sent (tx : ℕ)
  /-- The command was taken from the queue. -/
  | taken (tx : ℕ)
  /-- The reply was sent. -/
  | answered (tx : ℕ) (res : Except ε σ)
  /-- The reply sender was dropped. -/
  | dropped (tx : ℕ)
  /-- `poll` has returned; `asked` if `recv` returned `Pending` in the same call. -/
  | returned (asked : Bool) (res : Poll (Except ε Unit))
  /-- `poll` has panicked. -/
  | panicked
deriving DecidableEq

/-- `ConnControlFuture`, without the connection: the commands in the queue, and whether the sender
is gone. -/
structure ConnControlFuture where
  queue : List ControlCommand
  closed : Bool
deriving DecidableEq

namespace ConnControlFuture

/-- A command comes into the queue. -/
def push (f : ConnControlFuture) (cmd : ControlCommand) : ConnControlFuture :=
  { f with queue := f.queue ++ [cmd] }

/-- `self.receiver.recv()`, polled once. -/
def recv (f : ConnControlFuture) : Poll (Option ControlCommand) × ConnControlFuture :=
  match f.queue with
  | cmd :: queue => (.ready (some cmd), { f with queue })
  | [] => (if f.closed then .ready none else .pending, f)

/-- The second half of `poll`: an error is returned, and everything but `Pending` panics. -/
def pollInbound : Poll (Option (Except ε σ)) → Outcome (Poll (Except ε Unit))
  | .ready (some (.error e)) => .ret (.ready (.error e))
  | .ready (some (.ok _)) => .panic
  | .ready none => .panic
  | .pending => .ret .pending

/-- `ConnControlFuture::poll`: what it does to the command it takes, and what it returns. -/
def poll (f : ConnControlFuture) (ans : Answers σ ε) :
    ConnControlFuture × List (CommandEvent σ ε) × Outcome (Poll (Except ε Unit)) :=
  match f.recv with
  | (.ready (some (.openStream tx)), f) =>
    match ans.newOutbound with
    | .ready res => (f, [.taken tx, .answered tx res], pollInbound ans.nextInbound)
    -- `tx` goes out of scope
    | .pending => (f, [.taken tx, .dropped tx], .ret .pending)
  -- `todo!()`
  | (.ready (some (.closeConnection tx)), f) => (f, [.taken tx, .dropped tx], .panic)
  | (.ready none, f) => (f, [], pollInbound ans.nextInbound)
  | (.pending, f) => (f, [], pollInbound ans.nextInbound)

end ConnControlFuture

/-! ## The task -/

/-- The future, and the task that polls it. -/
structure Control where
  future : ConnControlFuture
  /-- The task is registered with the queue. -/
  waker : Bool
  /-- The task is due to poll the future. -/
  woken : Bool
  /-- The future has returned `Ready` or panicked. -/
  done : Bool
deriving DecidableEq

/-- What can happen. -/
inductive ControlAction (σ ε : Type) where
  /-- `open_stream` sends its command. -/
  | openStream (tx : ℕ)
  /-- `ConnControl` is dropped. -/
  | drop
  /-- The task is woken, by the connection or for no reason. -/
  | wake
  /-- The task polls the future. -/
  | poll (ans : Answers σ ε)

namespace Control

/-- `ConnControl::new`; the task polls the future once when it starts. -/
def new : Control := ⟨⟨[], false⟩, false, true, false⟩

/-- The queue wakes the task, if it is registered. -/
def notify (s : Control) : Control := { s with waker := false, woken := s.woken || s.waker }

/-- What is recorded of the end of a call. -/
def ending (asked : Bool) : Outcome (Poll (Except ε Unit)) → CommandEvent σ ε
  | .ret res => .returned asked res
  | .panic => .panicked

/-- The future is not polled again. -/
def ends : Outcome (Poll (Except ε Unit)) → Bool
  | .ret .pending => false
  | _ => true

/-- What a call of `poll` leaves and what is recorded of it. -/
def polled (s : Control) (ans : Answers σ ε) : Control × List (CommandEvent σ ε) :=
  let asked := decide (s.future.recv.1 = .pending)
  let (future, evs, res) := s.future.poll ans
  (⟨future, s.waker || asked, false, ends res⟩, evs ++ [ending asked res])

/-- One step; `none` if the action is not possible. The queue has eight places. -/
def step (s : Control) : ControlAction σ ε → Option (Control × List (CommandEvent σ ε))
  | .openStream tx =>
    if s.done = false ∧ s.future.closed = false ∧ s.future.queue.length < 8 then
      some ({ s with future := s.future.push (.openStream tx) }.notify, [.sent tx])
    else none
  | .drop =>
    if s.future.closed then none
    else some ({ s with future := { s.future with closed := true } }.notify, [])
  | .wake => some ({ s with woken := true }, [])
  | .poll ans => if s.woken = true ∧ s.done = false then some (s.polled ans) else none

end Control

/-! ## What is asked -/

namespace CommandEvent

/-- The command that was taken. -/
def takenTx : CommandEvent σ ε → Option ℕ
  | taken tx => some tx
  | _ => none

/-- The command that was answered. -/
def answeredTx : CommandEvent σ ε → Option ℕ
  | answered tx _ => some tx
  | _ => none

end CommandEvent

/-- The commands that were taken were answered, in order; and whenever `poll` returned `Pending`,
the queue had returned `Pending` in that call. -/
def Attends (tr : List (CommandEvent σ ε)) : Prop :=
  tr.filterMap CommandEvent.answeredTx = tr.filterMap CommandEvent.takenTx ∧
    ∀ asked, .returned asked .pending ∈ tr → asked = true

/-- A command that waits in the queue has woken the task. -/
def Control.Roused (s : Control) : Prop :=
  s.done = false → s.future.queue ≠ [] → s.woken = true

/-- The call of `poll` has no command to take and waits for one, or the connection opens a stream at
once and has more to say than `Pending`. -/
def ConnControlFuture.ready (f : ConnControlFuture) (ans : Answers σ ε) : Bool :=
  match f.queue with
  | [] => !f.closed || !ans.nextInbound.isPending
  | .openStream _ :: _ => !ans.newOutbound.isPending && !ans.nextInbound.isPending
  | .closeConnection _ :: _ => false

/-- Every poll is such a call. -/
def Control.attentive (s : Control) : ControlAction σ ε → Bool
  | .poll ans => s.future.ready ans
  | _ => true

/-! ## One call of poll -/

section Attends

variable {tr evs : List (CommandEvent σ ε)}

/-- The answers are counted with the commands they belong to. -/
def Counts (tr : List (CommandEvent σ ε)) : Prop :=
  (tr.filterMap CommandEvent.answeredTx).length ≤ (tr.filterMap CommandEvent.takenTx).length

/-- Two parts that count. -/
lemma Counts.append (h : Counts tr) (h' : Counts evs) : Counts (tr ++ evs) := by
  unfold Counts at *
  rw [List.filterMap_append, List.filterMap_append, List.length_append, List.length_append]
  omega

/-- All commands are attended to in a trace exactly if they are in its parts: there are never more
answers than commands, so a later answer cannot stand in for an earlier one. -/
lemma attends_append (h : Counts tr) (h' : Counts evs) :
    Attends (tr ++ evs) ↔ Attends tr ∧ Attends evs := by
  unfold Counts at h h'
  unfold Attends
  rw [List.filterMap_append, List.filterMap_append]
  constructor
  · rintro ⟨heq, hasked⟩
    have hlen := congrArg List.length heq
    rw [List.length_append, List.length_append] at hlen
    obtain ⟨htr, hevs⟩ := List.append_inj heq (by omega)
    exact ⟨⟨htr, fun b hb => hasked b (List.mem_append_left _ hb)⟩,
      hevs, fun b hb => hasked b (List.mem_append_right _ hb)⟩
  · rintro ⟨⟨htr, hasked⟩, hevs, hasked'⟩
    refine ⟨by rw [htr, hevs], fun b hb => ?_⟩
    rcases List.mem_append.mp hb with hb | hb
    · exact hasked b hb
    · exact hasked' b hb

/-- No events. -/
lemma attends_nil : Attends ([] : List (CommandEvent σ ε)) :=
  ⟨rfl, fun _ h => by cases h⟩

/-- A command was sent. -/
lemma attends_sent (tx : ℕ) : Attends [(.sent tx : CommandEvent σ ε)] :=
  ⟨rfl, fun _ h => by simp at h⟩

/-- The end of a call of `poll`. -/
lemma attends_ending (asked : Bool) (res : Outcome (Poll (Except ε Unit))) :
    Attends [(Control.ending asked res : CommandEvent σ ε)] ↔
      (res = .ret .pending → asked = true) := by
  have hcommands : ∀ e : CommandEvent σ ε, e = Control.ending asked res →
      [e].filterMap CommandEvent.answeredTx = [e].filterMap CommandEvent.takenTx := by
    rintro _ rfl
    cases res <;> rfl
  rw [Attends, and_iff_right (hcommands _ rfl)]
  rcases res with (_ | _) | _ <;> simp [Control.ending, eq_comm]

end Attends

/-- The second half of `poll` returns `Pending` if the connection does. -/
lemma ConnControlFuture.pollInbound_eq_pending {ans : Poll (Option (Except ε σ))} :
    pollInbound ans = .ret .pending ↔ ans.isPending = true := by
  rcases ans with (_ | _ | _) | _ <;> simp [pollInbound, Poll.isPending]

namespace Control

variable {s s' : Control} {a : ControlAction σ ε} {ans : Answers σ ε}
  {tr evs : List (CommandEvent σ ε)}

/-- A poll of an empty queue. -/
lemma poll_nil (closed : Bool) (ans : Answers σ ε) : ConnControlFuture.poll ⟨[], closed⟩ ans =
    (⟨[], closed⟩, [], ConnControlFuture.pollInbound ans.nextInbound) := by
  cases closed <;> rfl

/-- What is recorded of a poll counts. -/
lemma counts_poll (f : ConnControlFuture) (ans : Answers σ ε) : Counts (f.poll ans).2.1 := by
  obtain ⟨queue, closed⟩ := f
  obtain ⟨newOutbound, nextInbound⟩ := ans
  cases queue with
  | nil => rw [poll_nil]; exact Nat.le_refl 0
  | cons cmd queue =>
    cases cmd with
    | closeConnection tx => exact Nat.zero_le 1
    | openStream tx =>
      cases newOutbound with
      | ready res => exact Nat.le_refl 1
      | pending => exact Nat.zero_le 1

/-- The task ends once. -/
lemma counts_ending (asked : Bool) (res : Outcome (Poll (Except ε Unit))) :
    Counts [(ending asked res : CommandEvent σ ε)] := by
  cases res <;> exact Nat.le_refl 0

/-- A command whose reply sender is dropped is not attended to. -/
lemma not_attends_dropped (tx : ℕ) : ¬ Attends [(.taken tx : CommandEvent σ ε), .dropped tx] := by
  rintro ⟨h, -⟩
  cases h

/-- A command was answered. -/
lemma attends_answered (tx : ℕ) (res : Except ε σ) :
    Attends [.taken tx, .answered tx res] :=
  ⟨rfl, fun asked h => by simp at h⟩

/-- One call of `poll` attends to the command it takes, and leaves the task registered when it
returns `Pending`, if and only if it finds the queue empty and waits for it, or the connection has
an answer at once. -/
theorem attends_polled_iff (s : Control) (ans : Answers σ ε) :
    Attends (s.polled ans).2 ↔ s.future.ready ans = true := by
  rw [polled, attends_append (counts_poll _ _) (counts_ending _ _), attends_ending]
  obtain ⟨⟨queue, closed⟩, waker, woken, done⟩ := s
  obtain ⟨newOutbound, nextInbound⟩ := ans
  cases queue with
  | nil =>
    rw [poll_nil, ConnControlFuture.pollInbound_eq_pending, and_iff_right attends_nil]
    cases closed <;> simp [ConnControlFuture.recv, ConnControlFuture.ready]
  | cons cmd queue =>
    cases cmd with
    | closeConnection tx =>
      exact iff_of_false (fun h => not_attends_dropped tx h.1) Bool.false_ne_true
    | openStream tx =>
      cases newOutbound with
      | ready res =>
        have hpoll : Attends [.taken tx, .answered tx res] := attends_answered tx res
        simp only [ConnControlFuture.poll, ConnControlFuture.recv, ConnControlFuture.ready,
          ConnControlFuture.pollInbound_eq_pending, and_iff_right hpoll]
        simp [Poll.isPending]
      | pending =>
        exact iff_of_false (fun h => not_attends_dropped tx h.1) Bool.false_ne_true

/-! ## Runs -/

/-- What a step can do. -/
inductive Step (s : Control) :
    ControlAction σ ε → Control → List (CommandEvent σ ε) → Prop
  | openStream {tx : ℕ} (alive : s.done = false) (opened : s.future.closed = false) :
      Step s (.openStream tx) { s with future := s.future.push (.openStream tx) }.notify [.sent tx]
  | drop : Step s .drop { s with future := { s.future with closed := true } }.notify []
  | wake : Step s .wake { s with woken := true } []
  | poll {ans : Answers σ ε} (alive : s.done = false) :
      Step s (.poll ans) (s.polled ans).1 (s.polled ans).2

/-- What a step does. -/
lemma step_cases (h : s.step a = some (s', evs)) : Step s a s' evs := by
  cases a with
  | openStream tx =>
    simp only [step] at h
    split_ifs at h with hc
    cases h
    exact .openStream hc.1 hc.2.1
  | drop =>
    simp only [step] at h
    split_ifs at h
    cases h
    exact .drop
  | wake =>
    cases h
    exact .wake
  | poll ans =>
    simp only [step] at h
    split_ifs at h with hc
    obtain ⟨rfl, rfl⟩ := Prod.ext_iff.mp (Option.some.inj h)
    exact .poll hc.2

/-- What is recorded of a step counts. -/
lemma counts_step (h : s.step a = some (s', evs)) : Counts evs := by
  cases step_cases h with
  | openStream | drop | wake => exact Nat.le_refl 0
  | poll => exact (counts_poll _ _).append (counts_ending _ _)

/-- A step attends to all commands if and only if it is attentive. -/
lemma attends_step_iff (h : s.step a = some (s', evs)) : Attends evs ↔ s.attentive a = true := by
  cases step_cases h with
  | openStream => exact iff_of_true (attends_sent _) rfl
  | drop | wake => exact iff_of_true attends_nil rfl
  | poll => exact attends_polled_iff s _

/-- Until the future ends, its task is due to poll it, or is registered with an empty queue. -/
def Waiting (s : Control) : Prop :=
  s.done = false → s.woken = true ∨ s.waker = true ∧ s.future.queue = []

/-- A future that has not ended has returned `Pending`. -/
lemma poll_eq_pending (h : (s.polled ans).1.done = false) :
    (s.future.poll ans).2.2 = .ret .pending := by
  have hends : ∀ res : Outcome (Poll (Except ε Unit)), ends res = false → res = .ret .pending := by
    rintro ((_ | _) | _) h
    · cases h
    · rfl
    · cases h
  exact hends _ h

/-- An attentive poll that does not end the future has found the queue empty, and leaves the task
registered. -/
lemma waiting_polled (hr : s.future.ready ans = true) : (s.polled ans).1.Waiting := by
  intro hdone
  have hpending := poll_eq_pending hdone
  obtain ⟨⟨queue, closed⟩, waker, woken, done⟩ := s
  obtain ⟨newOutbound, nextInbound⟩ := ans
  right
  cases queue with
  | nil =>
    rw [poll_nil, ConnControlFuture.pollInbound_eq_pending] at hpending
    have hopen : closed = false := by simpa [ConnControlFuture.ready, hpending] using hr
    subst hopen
    simp [polled, poll_nil, ConnControlFuture.recv]
  | cons cmd queue =>
    cases cmd with
    | closeConnection tx => cases hr
    | openStream tx =>
      cases newOutbound with
      | pending => cases hr
      | ready res =>
        have hinbound := ConnControlFuture.pollInbound_eq_pending.mp hpending
        simp [ConnControlFuture.ready, hinbound] at hr

/-- A command that arrives wakes the task that waits for it. -/
lemma waiting_step (hw : s.Waiting) (ha : s.attentive a = true) (h : s.step a = some (s', evs)) :
    s'.Waiting := by
  cases step_cases h with
  | openStream alive =>
    intro _
    left
    rcases hw alive with h | h <;> simp [notify, h]
  | drop =>
    intro alive
    left
    rcases hw alive with h | h <;> simp [notify, h]
  | wake => exact fun _ => .inl rfl
  | poll => exact waiting_polled ha

end Control

section Runs

variable {s : Control} {tr : List (CommandEvent σ ε)}

/-- There are never more answers than commands. -/
lemma counts_run {guard : Control → ControlAction σ ε → Prop}
    (run : Run Control.step guard Control.new tr s) : Counts tr := by
  refine Run.invariant (I := fun tr _ => Counts tr) (Nat.le_refl 0) ?_ run
  intro tr s a s' evs _ ih _ h
  exact ih.append (Control.counts_step h)

/-- In a run of attentive steps all commands are attended to, and the task is due or registered. -/
lemma attends_of_attentive
    (run : Run Control.step (fun s a => s.attentive a = true) Control.new tr s) :
    Attends tr ∧ s.Waiting := by
  refine Run.invariant (I := fun tr s => Attends tr ∧ s.Waiting)
    ⟨attends_nil, fun _ => .inl rfl⟩ ?_ run
  intro tr s a s' evs run ih ok h
  have hevs := (Control.attends_step_iff h).mpr ok
  exact ⟨(attends_append (counts_run run) (Control.counts_step h)).mpr ⟨ih.1, hevs⟩,
    Control.waiting_step ih.2 ok h⟩

/-- **Commands are attended to exactly in attentive runs.** The commands of a run were answered in
order, the queue had returned `Pending` whenever `poll` did, and a command that waits has woken the
task, if and only if the run can be made of attentive steps. -/
theorem attends_iff_attentive (run : Run Control.step (fun _ _ => True) Control.new tr s) :
    (Attends tr ∧ s.Roused) ↔
      Run Control.step (fun s a => s.attentive a = true) Control.new tr s := by
  constructor
  · rintro ⟨hattends, -⟩
    induction run with
    | nil => exact .nil
    | snoc run _ h ih =>
      obtain ⟨htr, hevs⟩ := (attends_append (counts_run run) (Control.counts_step h)).mp hattends
      exact (ih htr).snoc ((Control.attends_step_iff h).mp hevs) h
  · intro run
    obtain ⟨hattends, hwaiting⟩ := attends_of_attentive run
    refine ⟨hattends, fun alive hqueue => ?_⟩
    exact (hwaiting alive).resolve_right fun h => hqueue h.2

/-- A command is sent to a future that waits for it, and answered; then the connection fails. -/
theorem attends_iff_attentive_sample : ∃ s tr,
    Run Control.step (fun _ _ => True) Control.new (tr : List (CommandEvent ℕ String)) s ∧
      Attends tr ∧ s.Roused ∧ .answered 0 (.ok 5) ∈ tr := by
  obtain ⟨s, tr, run, h⟩ := exists_run_of_exec (checked Control.step Control.attentive)
    [.poll ⟨.pending, .pending⟩, .openStream 0,
      .poll ⟨.ready (.ok 5), .ready (some (.error "closed"))⟩] Control.new
    (fun r => decide (CommandEvent.answered 0 (.ok 5) ∈ r.2)) (by decide)
  have hrun := run.of_checked.mono fun _ _ _ => trivial
  have hall := (attends_iff_attentive hrun).mpr run.of_checked
  exact ⟨s, tr, hrun, hall.1, hall.2, of_decide_eq_true h⟩

/-- The connection cannot open a stream at once, and the reply sender is dropped. Or it can, but a
second command has come in the meantime: the task is not registered with the queue and nothing wakes
it for the command. -/
theorem command_lost :
    (∃ s tr, Run Control.step (fun _ _ => True) Control.new (tr : List (CommandEvent ℕ String)) s ∧
      .taken 0 ∈ tr ∧ .dropped 0 ∈ tr ∧ ¬ Attends tr) ∧
    (∃ s tr, Run Control.step (fun _ _ => True) Control.new (tr : List (CommandEvent ℕ String)) s ∧
      s = ⟨⟨[.openStream 1], false⟩, false, false, false⟩ ∧ ¬ Attends tr ∧ ¬ s.Roused) := by
  constructor
  · obtain ⟨s, tr, run, h⟩ := exists_run_of_exec Control.step
      [.openStream 0, .poll ⟨.pending, .pending⟩] Control.new
      (fun r : Control × List (CommandEvent ℕ String) =>
        decide (r.2 = [.sent 0, .taken 0, .dropped 0, .returned false .pending])) (by decide)
    obtain rfl : tr = _ := of_decide_eq_true h
    refine ⟨s, _, run, by simp, by simp, fun hattends => ?_⟩
    exact absurd hattends.1 (by decide)
  · obtain ⟨s, tr, run, h⟩ := exists_run_of_exec Control.step
      [.openStream 0, .openStream 1, .poll ⟨.ready (.ok 5), .pending⟩] Control.new
      (fun r : Control × List (CommandEvent ℕ String) =>
        decide (r.1 = ⟨⟨[.openStream 1], false⟩, false, false, false⟩) &&
          decide (.returned false .pending ∈ r.2)) (by decide)
    simp only [Bool.and_eq_true, decide_eq_true_eq] at h
    obtain ⟨rfl, hmem⟩ := h
    refine ⟨_, tr, run, rfl, fun hattends => ?_, fun hroused => ?_⟩
    · exact Bool.false_ne_true (hattends.2 false hmem)
    · exact Bool.false_ne_true (hroused rfl (List.cons_ne_nil _ _))

end Runs

end Vlink.Frp
