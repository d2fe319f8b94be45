import Mathlib.Data.Nat.Notation
import Mathlib.Tactic.Lemma
import Mathlib.Tactic.TypeStar

set_option autoImplicit false

/-!
# Receivers of a broadcast channel

A broadcast channel keeps the last `cap` messages. Each receiver sees the messages that were sent
after its subscription, in order; one that falls behind by more than `cap` messages loses the
oldest, and is told so the next time it asks. This is what `tokio::sync::broadcast` documents under
"Lagging"; there, `cap` is the requested capacity rounded up to a power of two.

## Main definitions

* `Receiver` — what a receiver has not taken yet.
* `Receiver.push` — a message is sent.
* `Receiver.Reply`, `Receiver.recv` — the receiver asks for the next message.

## Main results

* `Receiver.queue_push` — what a receiver has after a message was sent.
* `Receiver.lagged_pushes` — when a receiver misses one of several messages.
* `Receiver.recv_eq_item` — what a receiver takes.
-/

/-- What a receiver has not taken yet, and whether messages were lost since it last asked. -/
structure Receiver (α : Type*) where
  queue : List α := []
  lagged : Bool := false
deriving DecidableEq

namespace Receiver

variable {α : Type*}

/-- `Sender::send`, as seen by one receiver. -/
def push (cap : ℕ) (r : Receiver α) (a : α) : Receiver α :=
  if r.queue.length < cap then { r with queue := r.queue ++ [a] }
  else ⟨(r.queue ++ [a]).tail, true⟩

/-- What a receiver has after a message was sent. -/
lemma mem_push {cap : ℕ} {r : Receiver α} {a x : α} (h : x ∈ (r.push cap a).queue) :
    x ∈ r.queue ∨ x = a := by
  have hmem : x ∈ r.queue ++ [a] := by
    unfold push at h
    split at h
    · exact h
    · exact List.mem_of_mem_tail h
  simpa using hmem

/-- A message that is sent comes last; what is lost was the oldest, and then the receiver knows. -/
theorem queue_push (cap : ℕ) (r : Receiver α) (a : α) :
    ∃ lost, r.queue ++ [a] = lost ++ (r.push cap a).queue ∧
      ((r.push cap a).lagged = false → lost = [] ∧ r.lagged = false) := by
  unfold push
  split
  · exact ⟨[], rfl, fun h => ⟨rfl, h⟩⟩
  · refine ⟨(r.queue ++ [a]).take 1, ?_, fun h => by cases h⟩
    rw [← List.drop_one]
    exact (List.take_append_drop 1 _).symm

/-- Several messages are sent: a receiver misses none of them exactly if they all find room beside
what it has not taken. -/
lemma lagged_pushes (cap : ℕ) (l : List α) (r : Receiver α) :
    (l.foldl (push cap) r).lagged = false ↔
      r.lagged = false ∧ (l = [] ∨ r.queue.length + l.length ≤ cap) := by
  induction l generalizing r with
  | nil => simp
  | cons a l ih =>
    rw [List.foldl_cons, ih]
    unfold push
    split
    · next hroom =>
      simp only [List.length_append, List.length_cons, List.length_nil, reduceCtorEq, false_or]
      refine and_congr_right fun _ => ⟨?_, fun h => .inr (by omega)⟩
      rintro (rfl | h)
      · exact hroom
      · omega
    · next hfull =>
      simp only [List.length_cons, reduceCtorEq, false_or, false_and, false_iff, not_and,
        Bool.true_eq_false]
      omega

/-- The answer of `Receiver::recv`. -/
inductive Reply (α : Type*) where
  /-- There is nothing; the receiver waits. -/
  | empty
  /-- `Err(Lagged)`. -/
  | lagged (rest : Receiver α)
  /-- The next message. -/
  | item (a : α) (rest : Receiver α)

/-- `Receiver::recv`. -/
def recv (r : Receiver α) : Reply α :=
  if r.lagged then .lagged { r with lagged := false }
  else
    match r.queue with
    | [] => .empty
    | a :: queue => .item a { r with queue }

/-- The next message is the first of those that were not taken. -/
theorem recv_eq_item {r rest : Receiver α} {a : α} :
    r.recv = .item a rest ↔ r.lagged = false ∧ r = ⟨a :: rest.queue, rest.lagged⟩ := by
  obtain ⟨queue, lagged⟩ := r
  obtain ⟨queue', lagged'⟩ := rest
  cases lagged <;> cases queue <;> simp [recv]
  grind

end Receiver
