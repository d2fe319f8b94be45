import Vlink.Device.Session
import Vlink.Lib.Registry

set_option autoImplicit false

/-!
# The session slots of a peer

`ActiveSession` of `device/peer/session.rs`: a peer has a slot for a half-initialised session,
and one each for the previous, current and next session. The operations move sessions between
the slots and enter and remove them in the index that all peers share.

## Main definitions

* `Vlink.ActiveSession` — the slots, with `prepareUninit`, `completeUninit`, `prepareNext` and
  `completeNext`.
* `Vlink.Place` — a slot, or a task that holds a session which is not in a slot yet.

## Main results

* `Vlink.ActiveSession.prepareUninit_spec`, `completeUninit_spec`, `prepareNext_spec`,
  `completeNext_spec` — each operation comes back; what it leaves in the slots and in the index.
* `Vlink.ActiveSession.prepareUninit_registry` and its companions — each operation keeps the
  index in agreement with the slots of all peers.
-/

namespace Vlink

/-- The four slots of a peer. -/
inductive Slot where
  | uninit
  | previous
  | current
  | next
deriving DecidableEq

/-- `ActiveSession`, without its handle on the index. -/
structure ActiveSession where
  uninit : Option Session
  previous : Option Session
  current : Option Session
  next : Option Session
deriving DecidableEq

namespace ActiveSession

/-- `ActiveSession::new`. -/
def new : ActiveSession := ⟨none, none, none, none⟩

/-- The content of a slot. -/
def get (a : ActiveSession) : Slot → Option Session
  | .uninit => a.uninit
  | .previous => a.previous
  | .current => a.current
  | .next => a.next

/-- Overwrite a slot. -/
def set (a : ActiveSession) (v : Option Session) : Slot → ActiveSession
  | .uninit => { a with uninit := v }
  | .previous => { a with previous := v }
  | .current => { a with current := v }
  | .next => { a with next := v }

/-- All slots are empty at first. -/
@[simp] lemma get_new (k : Slot) : new.get k = none := by cases k <;> rfl

/-- The slots after one was set. -/
lemma get_set (a : ActiveSession) (v : Option Session) (k k' : Slot) :
    (a.set v k).get k' = if k' = k then v else a.get k' := by
  cases k <;> cases k' <;> rfl

/-- Emptying an empty slot. -/
lemma set_none_of_get {a : ActiveSession} {k : Slot} (h : a.get k = none) : a.set none k = a := by
  cases k <;> cases a <;> cases h <;> rfl

/-! ## The operations -/

/-- `ActiveSession::activate`. -/
def activate (t : SessionIndex) (s : Session) : SessionIndex := t.insert s

/-- `ActiveSession::deactivate`. -/
def deactivate (t : SessionIndex) (s : Session) : Outcome SessionIndex := do
  let (t, _) ← t.remove s
  return t

/-- Empty a slot, and deactivate the session that was in it. -/
def deactivateSlot (k : Slot) (t : SessionIndex) (a : ActiveSession) :
    Outcome (SessionIndex × ActiveSession) :=
  match a.get k with
  | none => .ret (t, a)
  | some s => do
    let t ← deactivate t s
    return (t, a.set none k)

/-- `ActiveSession::deactivate_uninit`. -/
def deactivateUninit := deactivateSlot .uninit

/-- `ActiveSession::deactivate_previous`. -/
def deactivatePrevious := deactivateSlot .previous

/-- `ActiveSession::deactivate_next`. -/
def deactivateNext := deactivateSlot .next

/-- `ActiveSession::prepare_uninit`. -/
def prepareUninit (t : SessionIndex) (a : ActiveSession) (session : Session) :
    Outcome (SessionIndex × ActiveSession) := do
  let (t, a) ← deactivateUninit t a
  let t := activate t session
  return (t, { a with uninit := some session })

/-- `ActiveSession::complete_uninit`. -/
def completeUninit (t : SessionIndex) (a : ActiveSession) (session : Session) :
    Outcome (Bool × SessionIndex × ActiveSession) :=
  match a.uninit with
  | some uninit =>
    if uninit.senderIndex = session.senderIndex then do
      let (t, a) ← deactivateUninit t a
      let t := activate t session
      let (t, a) ← deactivatePrevious t a
      return (true, t, { a with previous := a.current, current := some session })
    else .ret (false, t, a)
  | none => .ret (false, t, a)

/-- `ActiveSession::prepare_next`. -/
def prepareNext (t : SessionIndex) (a : ActiveSession) (session : Session) :
    Outcome (SessionIndex × ActiveSession) := do
  let (t, a) ←
    match a.next with
    | some next => do
      let (t, a) ← deactivatePrevious t { a with next := none }
      pure (t, { a with previous := some next })
    | none => .ret (t, a)
  let t := activate t session
  return (t, { a with next := some session })

/-- `ActiveSession::complete_next`. -/
def completeNext (t : SessionIndex) (a : ActiveSession) (session : Session) :
    Outcome (Bool × SessionIndex × ActiveSession) :=
  match a.next with
  | some next =>
    if next.senderIndex = session.senderIndex then do
      let (t, a) ← deactivateNext t a
      let (t, a) ← deactivatePrevious t a
      let t := activate t session
      return (true, t, { a with previous := a.current, current := some session })
    else .ret (false, t, a)
  | none => .ret (false, t, a)

/-! ## What the operations do -/

/-- A table without the entry for the content of a slot. -/
def forget (table : UInt32 → Option Session) : Option Session → UInt32 → Option Session
  | none => table
  | some s => Function.update table s.senderIndex none

/-- The entries that are left. -/
lemma forget_eq_some {table : UInt32 → Option Session} {o : Option Session} {i : UInt32}
    {s : Session} : forget table o i = some s ↔
      table i = some s ∧ ∀ u, o = some u → u.senderIndex ≠ i := by
  cases o with
  | none => simp [forget]
  | some u =>
    rw [forget, Function.update_apply]
    split_ifs with hi
    · simp [hi]
    · simp [Ne.symm hi]

/-- Emptying a slot comes back, and removes the entry of what was in it. -/
lemma deactivateSlot_spec (k : Slot) (t : SessionIndex) (a : ActiveSession) :
    ∃ t', deactivateSlot k t a = .ret (t', a.set none k) ∧ t'.index = t.index ∧
      t'.indexes = forget t.indexes (a.get k) := by
  unfold deactivateSlot
  cases h : a.get k with
  | none =>
    exact ⟨t, by rw [set_none_of_get h], rfl, rfl⟩
  | some s =>
    obtain ⟨t', _, hr, -, hi, ht⟩ := t.remove_spec s
    exact ⟨t', by simp [deactivate, hr], hi, ht⟩

variable (t : SessionIndex) (a : ActiveSession) (s : Session)

/-- `prepare_uninit` replaces the half-initialised session. -/
theorem prepareUninit_spec :
    ∃ t', prepareUninit t a s = .ret (t', { a with uninit := some s }) ∧ t'.index = t.index ∧
      t'.indexes = Function.update (forget t.indexes a.uninit) s.senderIndex (some s) := by
  obtain ⟨t₁, h₁, hi₁, ht₁⟩ := deactivateSlot_spec .uninit t a
  refine ⟨t₁.insert s, ?_, hi₁, ?_⟩
  · simp [prepareUninit, deactivateUninit, h₁, activate, set]
  · rw [SessionIndex.indexes_insert, ht₁]
    rfl

/-- `complete_uninit` for a session with the index of the half-initialised one makes it the
current session. -/
theorem completeUninit_spec {u : Session} (hu : a.uninit = some u)
    (hi : u.senderIndex = s.senderIndex) :
    ∃ t', completeUninit t a s = .ret (true, t',
        { a with uninit := none, previous := a.current, current := some s }) ∧
      t'.index = t.index ∧
      t'.indexes = forget (Function.update (forget t.indexes (some u)) s.senderIndex (some s))
        a.previous := by
  obtain ⟨t₁, h₁, hi₁, ht₁⟩ := deactivateSlot_spec .uninit t a
  obtain ⟨t₂, h₂, hi₂, ht₂⟩ := deactivateSlot_spec .previous (t₁.insert s) (a.set none .uninit)
  refine ⟨t₂, ?_, hi₂.trans hi₁, ?_⟩
  · simp only [completeUninit, hu, if_pos hi, deactivateUninit, h₁, Outcome.ret_bind, activate,
      deactivatePrevious, h₂]
    rfl
  · rw [ht₂, SessionIndex.indexes_insert, ht₁]
    simp [get, set, hu]

/-- `complete_uninit` for any other session does nothing. -/
lemma completeUninit_other
    (h : ∀ u, a.uninit = some u → u.senderIndex ≠ s.senderIndex) :
    completeUninit t a s = .ret (false, t, a) := by
  unfold completeUninit
  split
  next u hu => rw [if_neg (h u hu)]
  next => rfl

/-- `prepare_next` moves a session that waits in the next slot to the previous slot. -/
theorem prepareNext_spec :
    ∃ t', prepareNext t a s = .ret (t',
        { a with previous := a.next.or a.previous, next := some s }) ∧ t'.index = t.index ∧
      t'.indexes = Function.update
        (if a.next.isSome then forget t.indexes a.previous else t.indexes) s.senderIndex
        (some s) := by
  cases hn : a.next with
  | none =>
    refine ⟨t.insert s, ?_, rfl, rfl⟩
    simp [prepareNext, hn, activate]
  | some n =>
    obtain ⟨t₁, h₁, hi₁, ht₁⟩ := deactivateSlot_spec .previous t { a with next := none }
    refine ⟨t₁.insert s, ?_, hi₁, ?_⟩
    · simp only [prepareNext, hn, deactivatePrevious, h₁, Outcome.ret_bind, Outcome.pure_eq]
      rfl
    · rw [SessionIndex.indexes_insert, ht₁]
      rfl

/-- `complete_next` for a session with the index of the next one makes it the current
session. -/
theorem completeNext_spec {n : Session} (hn : a.next = some n)
    (hi : n.senderIndex = s.senderIndex) :
    ∃ t', completeNext t a s = .ret (true, t',
        { a with next := none, previous := a.current, current := some s }) ∧
      t'.index = t.index ∧
      t'.indexes = Function.update (forget (forget t.indexes (some n)) a.previous)
        s.senderIndex (some s) := by
  obtain ⟨t₁, h₁, hi₁, ht₁⟩ := deactivateSlot_spec .next t a
  obtain ⟨t₂, h₂, hi₂, ht₂⟩ := deactivateSlot_spec .previous t₁ (a.set none .next)
  refine ⟨t₂.insert s, ?_, hi₂.trans hi₁, ?_⟩
  · simp only [completeNext, hn, if_pos hi, deactivateNext, h₁, Outcome.ret_bind, activate,
      deactivatePrevious, h₂]
    rfl
  · rw [SessionIndex.indexes_insert, ht₂, ht₁]
    simp [get, set, hn]

/-- `complete_next` for any other session does nothing. -/
lemma completeNext_other (h : ∀ n, a.next = some n → n.senderIndex ≠ s.senderIndex) :
    completeNext t a s = .ret (false, t, a) := by
  unfold completeNext
  split
  next n hn => rw [if_neg (h n hn)]
  next => rfl

end ActiveSession

/-! ## Slots and index agree -/

/-- Where a session of a peer can be before it retires: in a slot, or in the hands of the
handshake loop or of the inbound loop on its way into one. -/
inductive Place where
  | slot (k : Slot)
  | preparing
  | responding
deriving DecidableEq

/-- The sessions in slots are in the index. -/
def Place.Listed : Key × Place → Prop
  | (_, .slot _) => True
  | _ => False

/-- The index agrees with the places of all peers. -/
abbrev IndexRegistry (at_ : Key × Place → Option Session) (table : UInt32 → Option Session) :
    Prop :=
  Registry Session.senderIndex Place.Listed at_ table

namespace ActiveSession

/-- The places `at_`, with the slots of the peer `p` replaced by `a`. -/
def overlay (at_ : Key × Place → Option Session) (p : Key) (a : ActiveSession) :
    Key × Place → Option Session
  | (q, .slot k) => if q = p then a.get k else at_ (q, .slot k)
  | (q, .preparing) => at_ (q, .preparing)
  | (q, .responding) => at_ (q, .responding)

section Overlay

variable {at_ : Key × Place → Option Session} {p : Key} {a : ActiveSession}
  {table : UInt32 → Option Session} {s : Session}

/-- A slot of the peer itself. -/
@[simp] lemma overlay_slot (k : Slot) : overlay at_ p a (p, .slot k) = a.get k := if_pos rfl

/-- A slot of the peer itself is set. -/
lemma overlay_set (v : Option Session) (k : Slot) :
    overlay at_ p (a.set v k) = Function.update (overlay at_ p a) (p, .slot k) v := by
  funext ⟨q, pl⟩
  cases pl with
  | slot k' =>
    by_cases hq : q = p
    · subst hq
      simp [overlay, Function.update_apply, get_set]
    · simp [overlay, hq]
  | preparing => simp [overlay]
  | responding => simp [overlay]

/-- No place holds a session with the index of `s`. -/
def Fresh (at_ : Key × Place → Option Session) (s : Session) : Prop :=
  ∀ x s', at_ x = some s' → s'.senderIndex ≠ s.senderIndex

/-- A fresh index stays fresh when a slot is overwritten with something else. -/
lemma Fresh.set (h : Fresh (overlay at_ p a) s) (k : Slot) {v : Option Session}
    (hv : ∀ s', v = some s' → s'.senderIndex ≠ s.senderIndex) :
    Fresh (overlay at_ p (a.set v k)) s := by
  intro x s' hx
  rw [overlay_set, Function.update_apply] at hx
  split_ifs at hx
  · exact hv s' hx
  · exact h x s' hx

/-- A fresh index stays fresh when a slot is emptied. -/
lemma Fresh.erase (h : Fresh (overlay at_ p a) s) (k : Slot) :
    Fresh (overlay at_ p (a.set none k)) s :=
  h.set k (by simp)

/-- Emptying a slot and removing its entry. -/
lemma registry_forget (h : IndexRegistry (overlay at_ p a) table) (k : Slot) :
    IndexRegistry (overlay at_ p (a.set none k)) (forget table (a.get k)) := by
  cases hk : a.get k with
  | none => rwa [set_none_of_get hk]
  | some s =>
    rw [overlay_set]
    exact h.drop (by rw [overlay_slot, hk])

/-- Filling an empty slot and entering the session. -/
lemma registry_activate (h : IndexRegistry (overlay at_ p a) table) (k : Slot)
    (hk : a.get k = none) (hs : Fresh (overlay at_ p a) s) :
    IndexRegistry (overlay at_ p (a.set (some s) k))
      (Function.update table s.senderIndex (some s)) := by
  rw [overlay_set]
  exact h.put trivial (by rw [overlay_slot, hk]) hs

/-- Moving the content of a slot to an empty one. -/
lemma registry_move (h : IndexRegistry (overlay at_ p a) table) (k k' : Slot)
    (hk' : a.get k' = none) :
    IndexRegistry (overlay at_ p ((a.set none k).set (a.get k) k')) table := by
  cases hk : a.get k with
  | none => rwa [set_none_of_get hk, set_none_of_get hk']
  | some s =>
    rw [overlay_set, overlay_set]
    exact h.move trivial trivial (by rw [overlay_slot, hk]) (by rw [overlay_slot, hk'])

/-- `prepare_uninit` with a session whose index is new keeps slots and index in agreement. -/
theorem prepareUninit_registry (h : IndexRegistry (overlay at_ p a) table)
    (hs : Fresh (overlay at_ p a) s) :
    IndexRegistry (overlay at_ p { a with uninit := some s })
      (Function.update (forget table a.uninit) s.senderIndex (some s)) :=
  registry_activate (registry_forget h .uninit) .uninit rfl (hs.erase .uninit)

/-- A session with the index of the one in a slot is fresh once the slot is empty. -/
lemma fresh_of_slot (h : IndexRegistry (overlay at_ p a) table) {k : Slot} {u : Session}
    (hu : a.get k = some u) (hi : u.senderIndex = s.senderIndex) :
    Fresh (overlay at_ p (a.set none k)) s := by
  intro x s' hx hkey
  rw [overlay_set, Function.update_apply] at hx
  split_ifs at hx with hne
  exact hne (h.place_unique hx (by rw [overlay_slot, hu]) (hkey.trans hi.symm))

/-- `complete_uninit` keeps slots and index in agreement.

**Proof sketch.** The half-initialised session leaves its slot and the new one takes its place
there; the previous session goes, the current one becomes the previous and the new one the
current. -/
lemma completeUninit_registry (h : IndexRegistry (overlay at_ p a) table) {u : Session}
    (hu : a.uninit = some u) (hi : u.senderIndex = s.senderIndex) :
    IndexRegistry
      (overlay at_ p { a with uninit := none, previous := a.current, current := some s })
      (forget (Function.update (forget table (some u)) s.senderIndex (some s)) a.previous) := by
  have left := registry_forget h .uninit
  have entered := registry_activate left .uninit rfl (fresh_of_slot h (k := .uninit) hu hi)
  have retired := registry_forget entered .previous
  have shifted := registry_move retired .current .previous rfl
  have done := registry_move shifted .uninit .current rfl
  rw [show a.get .uninit = some u from hu] at done
  exact done

/-- `complete_next` keeps slots and index in agreement. -/
lemma completeNext_registry (h : IndexRegistry (overlay at_ p a) table) {n : Session}
    (hn : a.next = some n) (hi : n.senderIndex = s.senderIndex) :
    IndexRegistry
      (overlay at_ p { a with next := none, previous := a.current, current := some s })
      (Function.update (forget (forget table (some n)) a.previous) s.senderIndex (some s)) := by
  have left := registry_forget h .next
  have retired := registry_forget left .previous
  have entered := registry_activate retired .next rfl
    ((fresh_of_slot h (k := .next) hn hi).erase .previous)
  have shifted := registry_move entered .current .previous rfl
  have done := registry_move shifted .next .current rfl
  rw [show a.get .next = some n from hn] at done
  exact done

/-- `prepare_next` with a session whose index is new keeps slots and index in agreement. -/
lemma prepareNext_registry (h : IndexRegistry (overlay at_ p a) table)
    (hs : Fresh (overlay at_ p a) s) :
    IndexRegistry
      (overlay at_ p { a with previous := a.next.or a.previous, next := some s })
      (Function.update (if a.next.isSome then forget table a.previous else table)
        s.senderIndex (some s)) := by
  cases hn : a.next with
  | none =>
    have entered := registry_activate h .next hn hs
    simpa [set] using entered
  | some n =>
    have retired := registry_forget h .previous
    have shifted := registry_move retired .next .previous rfl
    rw [show (a.set none .previous).get .next = some n from hn] at shifted
    have fresh := ((hs.erase .previous).erase .next).set .previous (v := some n) fun s' h' => by
      cases h'
      exact hs (p, .slot .next) n (by rw [overlay_slot]; exact hn)
    exact registry_activate shifted .next rfl fresh

end Overlay

end ActiveSession

end Vlink
