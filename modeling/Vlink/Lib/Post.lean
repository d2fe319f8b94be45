import Mathlib.Data.List.Basic
import Mathlib.Logic.Function.Basic
import Vlink.Lib.Runs

set_option autoImplicit false

/-!
# Packets through a relay

Stations send packets to each other through one relay. A packet waits in the queue of its sender,
is on its way up to the relay, and then on its way down to the station that it is addressed to. Each
of these is first in, first out, and the packets of all stations are mixed in them. Packets may be
lost, from a queue or at the relay.

For two stations, what has been received and what is still on its way, one after the other, are a
sublist of what was sent: nothing is made up, doubled or overtaken. They are all of it if nothing
was lost.

## Main definitions

* `Vlink.Post`, `Vlink.Post.step` — what is on its way, and the steps of a packet.
* `Vlink.Post.pending` — what is on its way from one station to another, oldest first.
* `Vlink.Post.sentTo`, `Vlink.Post.receivedFrom` — the packets of two stations in a trace.

## Main results

* `Vlink.Post.received_sublist` — in every run.
* `Vlink.Post.received_eq` — in every run that loses nothing.
-/

namespace Vlink

/-- What is on its way: the addressee or the sender of each packet, and the packet. -/
structure Post (κ δ : Type) where
  queued : κ → List (κ × δ)
  up : κ → List (κ × δ)
  down : κ → List (κ × δ)

namespace Post

variable {κ δ : Type}

/-- What can be seen of a packet. -/
inductive Event (κ δ : Type) where
  | sent (a b : κ) (x : δ)
  | received (b a : κ) (x : δ)
deriving DecidableEq

/-- The steps of packets; the station is the one whose packets move. -/
inductive Action (κ δ : Type) where
  | send (a b : κ) (x : δ)
  | write (a : κ)
  | pass (a : κ)
  | receive (b : κ)
  /-- The relay drops a packet. -/
  | drop (a : κ)
  /-- The queue of a station is dropped. -/
  | clear (a : κ)

/-- The step loses nothing. -/
def Action.keeps : Action κ δ → Prop
  | .drop _ | .clear _ => False
  | _ => True

/-- Nothing is on its way. -/
def empty : Post κ δ := ⟨fun _ => [], fun _ => [], fun _ => []⟩

section Steps

variable [DecidableEq κ]

/-- One step; `none` if there is no such packet. -/
def step (p : Post κ δ) : Action κ δ → Option (Post κ δ × List (Event κ δ))
  | .send a b x =>
    some ({ p with queued := Function.update p.queued a (p.queued a ++ [(b, x)]) }, [.sent a b x])
  | .write a =>
    match p.queued a with
    | [] => none
    | y :: ys =>
      some ({ p with
        queued := Function.update p.queued a ys
        up := Function.update p.up a (p.up a ++ [y]) }, [])
  | .pass a =>
    match p.up a with
    | [] => none
    | y :: ys =>
      some ({ p with
        up := Function.update p.up a ys
        down := Function.update p.down y.1 (p.down y.1 ++ [(a, y.2)]) }, [])
  | .receive b =>
    match p.down b with
    | [] => none
    | y :: ys => some ({ p with down := Function.update p.down b ys }, [.received b y.1 y.2])
  | .drop a =>
    match p.up a with
    | [] => none
    | _ :: ys => some ({ p with up := Function.update p.up a ys }, [])
  | .clear a => some ({ p with queued := Function.update p.queued a [] }, [])

section Equations

variable {p : Post κ δ} {a b : κ} {y : κ × δ} {ys : List (κ × δ)}

/-- Writing the first message. -/
lemma step_write (h : p.queued a = y :: ys) : p.step (.write a) = some ({ p with
    queued := Function.update p.queued a ys
    up := Function.update p.up a (p.up a ++ [y]) }, []) := by
  rw [step, h]

/-- Passing the first message on. -/
lemma step_pass (h : p.up a = y :: ys) : p.step (.pass a) = some ({ p with
    up := Function.update p.up a ys
    down := Function.update p.down y.1 (p.down y.1 ++ [(a, y.2)]) }, []) := by
  rw [step, h]

/-- Receiving the first message. -/
lemma step_receive (h : p.down b = y :: ys) : p.step (.receive b) = some ({ p with
    down := Function.update p.down b ys }, [.received b y.1 y.2]) := by
  rw [step, h]

/-- Dropping the first message. -/
lemma step_drop (h : p.up a = y :: ys) : p.step (.drop a) = some ({ p with
    up := Function.update p.up a ys }, []) := by
  rw [step, h]

end Equations

/-! ## The packets of two stations -/

/-- The packets with a label. -/
def addressed (k : κ) (l : List (κ × δ)) : List δ :=
  l.filterMap fun y => if y.1 = k then some y.2 else none

/-- No messages. -/
@[simp]
lemma addressed_nil (k : κ) : addressed k ([] : List (κ × δ)) = [] := rfl

/-- Two lists of messages. -/
@[simp]
lemma addressed_append (k : κ) (l l' : List (κ × δ)) :
    addressed k (l ++ l') = addressed k l ++ addressed k l' :=
  List.filterMap_append

/-- A message to `k`. -/
@[simp]
lemma addressed_cons_self (k : κ) (x : δ) (l : List (κ × δ)) :
    addressed k ((k, x) :: l) = x :: addressed k l := by
  simp [addressed]

/-- A message to another one. -/
lemma addressed_cons_of_ne {k k' : κ} (h : k' ≠ k) (x : δ) (l : List (κ × δ)) :
    addressed k ((k', x) :: l) = addressed k l := by
  simp [addressed, h]

/-- One packet more at the front. -/
lemma sublist_addressed_cons (k : κ) (y : κ × δ) (l : List (κ × δ)) :
    (addressed k l).Sublist (addressed k (y :: l)) :=
  (List.sublist_cons_self y l).filterMap _

/-- What is on its way from `a` to `b`, oldest first. -/
def pending (p : Post κ δ) (a b : κ) : List δ :=
  addressed a (p.down b) ++ addressed b (p.up a) ++ addressed b (p.queued a)

/-- What `a` has sent to `b`. -/
def sentTo (a b : κ) (tr : List (Event κ δ)) : List δ :=
  tr.filterMap fun
    | .sent a' b' x => if a' = a ∧ b' = b then some x else none
    | _ => none

/-- What `b` has received from `a`. -/
def receivedFrom (a b : κ) (tr : List (Event κ δ)) : List δ :=
  tr.filterMap fun
    | .received b' a' x => if a' = a ∧ b' = b then some x else none
    | _ => none

/-- Nothing was sent. -/
@[simp]
lemma sentTo_nil (a b : κ) : sentTo a b ([] : List (Event κ δ)) = [] := rfl

/-- Nothing was received. -/
@[simp]
lemma receivedFrom_nil (a b : κ) : receivedFrom a b ([] : List (Event κ δ)) = [] := rfl

/-- What was sent in a longer trace. -/
@[simp]
lemma sentTo_append (a b : κ) (tr tr' : List (Event κ δ)) :
    sentTo a b (tr ++ tr') = sentTo a b tr ++ sentTo a b tr' :=
  List.filterMap_append

/-- What was received in a longer trace. -/
@[simp]
lemma receivedFrom_append (a b : κ) (tr tr' : List (Event κ δ)) :
    receivedFrom a b (tr ++ tr') = receivedFrom a b tr ++ receivedFrom a b tr' :=
  List.filterMap_append

variable {p p' : Post κ δ} {act : Action κ δ} {evs tr : List (Event κ δ)}

/-! ## Accounting -/

/-- A step that loses nothing moves the packets of two stations along.

**Proof sketch.** Each step takes a packet from the front of one list and puts it at the end of the
next one. -/
lemma pending_of_keeps (hk : act.keeps) (h : p.step act = some (p', evs)) (a b : κ) :
    receivedFrom a b evs ++ p'.pending a b = p.pending a b ++ sentTo a b evs := by
  cases act with
  | send c d x =>
    cases h
    by_cases hc : c = a
    · subst hc
      by_cases hd : d = b
      · subst hd
        simp [pending, sentTo, receivedFrom]
      · simp [pending, sentTo, receivedFrom, addressed_cons_of_ne hd, hd]
    · simp [pending, sentTo, receivedFrom, Function.update_of_ne (Ne.symm hc), hc]
  | write c =>
    rw [step] at h
    cases hq : p.queued c with
    | nil => simp [hq] at h
    | cons y ys =>
      simp only [hq, Option.some.injEq, Prod.mk.injEq] at h
      obtain ⟨rfl, rfl⟩ := h
      by_cases hc : c = a
      · subst hc
        have happ := addressed_append b [y] ys
        rw [List.singleton_append, ← hq] at happ
        simp [pending, happ]
      · simp [pending, Function.update_of_ne (Ne.symm hc)]
  | pass c =>
    rw [step] at h
    cases hu : p.up c with
    | nil => simp [hu] at h
    | cons y ys =>
      obtain ⟨d, x⟩ := y
      simp only [hu, Option.some.injEq, Prod.mk.injEq] at h
      obtain ⟨rfl, rfl⟩ := h
      by_cases hc : c = a
      · subst hc
        by_cases hd : d = b
        · subst hd
          simp [pending, hu]
        · simp [pending, hu, Function.update_of_ne (Ne.symm hd), addressed_cons_of_ne hd]
      · by_cases hd : d = b
        · subst hd
          simp [pending, Function.update_of_ne (Ne.symm hc), addressed_cons_of_ne hc]
        · simp [pending, Function.update_of_ne (Ne.symm hc), Function.update_of_ne (Ne.symm hd)]
  | receive c =>
    rw [step] at h
    cases hd : p.down c with
    | nil => simp [hd] at h
    | cons y ys =>
      obtain ⟨s, x⟩ := y
      simp only [hd, Option.some.injEq, Prod.mk.injEq] at h
      obtain ⟨rfl, rfl⟩ := h
      by_cases hc : c = b
      · subst hc
        by_cases hs : s = a
        · subst hs
          simp [pending, receivedFrom, sentTo, hd]
        · simp [pending, receivedFrom, sentTo, hd, addressed_cons_of_ne hs, hs]
      · simp [pending, receivedFrom, sentTo, Function.update_of_ne (Ne.symm hc), hc]
  | drop c => exact hk.elim
  | clear c => exact hk.elim

/-- A step moves the packets of two stations along, and may lose some. -/
lemma pending_sublist (h : p.step act = some (p', evs)) (a b : κ) :
    (receivedFrom a b evs ++ p'.pending a b).Sublist (p.pending a b ++ sentTo a b evs) := by
  by_cases hk : act.keeps
  · rw [pending_of_keeps hk h]
  cases act with
  | drop c =>
    rw [step] at h
    cases hu : p.up c with
    | nil => simp [hu] at h
    | cons y ys =>
      simp only [hu, Option.some.injEq, Prod.mk.injEq] at h
      obtain ⟨rfl, rfl⟩ := h
      by_cases hc : c = a
      · subst hc
        have hlost := sublist_addressed_cons b y ys
        rw [← hu] at hlost
        simpa [pending] using hlost.append_right (addressed b (p.queued c))
      · simp [pending, Function.update_of_ne (Ne.symm hc)]
  | clear c =>
    cases h
    by_cases hc : c = a
    · subst hc
      simp [pending]
    · simp [pending, Function.update_of_ne (Ne.symm hc)]
  | send | write | pass | receive => exact absurd trivial hk

variable {guard : Post κ δ → Action κ δ → Prop}

/-- A step is a run. -/
lemma run_of_step (h : p.step act = some (p', evs)) (ok : guard p act) :
    Run step guard p evs p' :=
  Run.snoc .nil ok h

/-- **What has come out and what is still inside are a sublist of what has gone in.** -/
theorem received_sublist (run : Run step guard empty tr p) (a b : κ) :
    (receivedFrom a b tr ++ p.pending a b).Sublist (sentTo a b tr) := by
  refine run.invariant (I := fun tr p => (receivedFrom a b tr ++ p.pending a b).Sublist
    (sentTo a b tr)) (List.Sublist.refl _) ?_
  intro tr p act p' evs _ ih _ h
  rw [receivedFrom_append, sentTo_append, List.append_assoc]
  refine ((pending_sublist h a b).append_left _).trans ?_
  rw [← List.append_assoc]
  exact ih.append_right _

/-- **They are all of it if nothing was lost.** -/
theorem received_eq (run : Run step (fun _ act => act.keeps) empty tr p) (a b : κ) :
    receivedFrom a b tr ++ p.pending a b = sentTo a b tr := by
  refine run.invariant (I := fun tr p => receivedFrom a b tr ++ p.pending a b = sentTo a b tr)
    rfl ?_
  intro tr p act p' evs _ ih hk h
  rw [receivedFrom_append, sentTo_append, List.append_assoc, pending_of_keeps hk h,
    ← List.append_assoc, ih]

end Steps

end Post

end Vlink
