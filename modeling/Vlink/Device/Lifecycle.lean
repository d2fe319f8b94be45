import Vlink.Device.System
import Vlink.Device.View

set_option autoImplicit false

/-!
# The life of a session

A session is born in `initiate`, `respond` or `finalize`. A task holds it for a moment, then puts
it into a slot of its peer; from there it moves on until it is replaced. `initiate` and `respond`
draw a new index for it, and `finalize` takes over the index of the initiation. As long as the
counter of indexes has not gone round, the index of all peers lists exactly the sessions in their
slots, and a session that has left the slots does not come back.

## Main definitions

* `Vlink.drawnIndexes` — the indexes that `next_index` has handed out.
* `Vlink.View.places` — the sessions of all peers in their places.
* `Vlink.Lifecycle` — the invariant of views.

## Main results

* `Vlink.Lifecycle.step` — steps keep the invariant while indexes are new.
* `Vlink.Device.index_exact` — the index lists exactly the sessions in slots, each under its own
  index, and never again a session that has left the slots.
-/

namespace Vlink

/-! ## Indexes and cells are handed out once -/

/-- The index that `next_index` handed out. -/
def Event.drawnIndex? : Event → Option UInt32
  | .initiated _ _ s | .responded _ _ _ s => some s.senderIndex
  | _ => none

/-- The ephemeral key that was drawn with the index. -/
def Event.ephemeral? : Event → Option Key
  | .initiated _ e _ | .responded _ _ e _ => some e
  | _ => none

/-- The cell of a new session. -/
def Event.cell? : Event → Option ℕ
  | .initiated _ _ s | .responded _ _ _ s | .finalized _ _ s => some s.shared
  | _ => none

/-- The indexes that `next_index` has handed out. -/
def drawnIndexes (tr : List Event) : List UInt32 := tr.filterMap Event.drawnIndex?

/-- A part of a run has no more draws than the run. -/
lemma length_drawnIndexes_lt {tr evs : List Event} {n : ℕ}
    (h : (drawnIndexes (tr ++ evs)).length < n) : (drawnIndexes tr).length < n := by
  rw [drawnIndexes, List.filterMap_append, List.length_append] at h
  exact Nat.lt_of_le_of_lt (Nat.le_add_right ..) h

/-- The counters for indexes and cells agree with what was handed out. -/
structure Numbered (start : UInt32) (tr : List Event) (st : Store) : Prop where
  counter : st.index.index = start + UInt32.ofNat (drawnIndexes tr).length
  indexes : drawnIndexes tr = tickets start (drawnIndexes tr).length
  cells : tr.filterMap Event.cell? = List.range st.heap.size

namespace Numbered

variable {start : UInt32} {tr evs : List Event} {st st' : Store}

/-- Nothing is handed out. -/
lemma keep (h : Numbered start tr st) (hi : st'.index.index = st.index.index)
    (hh : st'.heap.size = st.heap.size)
    (hevs : ∀ e ∈ evs, e.drawnIndex? = none ∧ e.cell? = none) : Numbered start (tr ++ evs) st' := by
  have hd : drawnIndexes (tr ++ evs) = drawnIndexes tr := by
    rw [drawnIndexes, List.filterMap_append,
      List.filterMap_eq_nil_iff.mpr fun e he => (hevs e he).1, List.append_nil, drawnIndexes]
  refine ⟨?_, ?_, ?_⟩
  · rw [hi, hd, h.counter]
  · rw [hd]
    exact h.indexes
  · rw [hh, List.filterMap_append, List.filterMap_eq_nil_iff.mpr fun e he => (hevs e he).2,
      List.append_nil, h.cells]

/-- An index and a cell are handed out. -/
lemma draw (h : Numbered start tr st) {e : Event} (hd : e.drawnIndex? = some st.index.index)
    (hc : e.cell? = some st.heap.size) :
    Numbered start (tr ++ [e]) ⟨st.index.nextIndex.2, st.heap.alloc⟩ := by
  have hdrawn : drawnIndexes (tr ++ [e]) = drawnIndexes tr ++ [st.index.index] := by
    simp [drawnIndexes, hd]
  refine ⟨?_, ?_, ?_⟩
  · rw [hdrawn, List.length_append, List.length_singleton, UInt32.ofNat_add, ← UInt32.add_assoc,
      ← h.counter]
    rfl
  · rw [hdrawn, List.length_append, List.length_singleton, tickets_succ, ← h.indexes, h.counter]
  · rw [List.filterMap_append, h.cells, Heap.size_alloc, List.range_succ]
    simp [hc]

/-- A cell is handed out. -/
lemma alloc (h : Numbered start tr st) {e : Event} (hd : e.drawnIndex? = none)
    (hc : e.cell? = some st.heap.size) :
    Numbered start (tr ++ [e]) { st with heap := st.heap.alloc } := by
  have hdrawn : drawnIndexes (tr ++ [e]) = drawnIndexes tr := by
    simp [drawnIndexes, hd]
  refine ⟨?_, ?_, ?_⟩
  · rw [hdrawn, h.counter]
  · rw [hdrawn]
    exact h.indexes
  · rw [List.filterMap_append, h.cells, Heap.size_alloc, List.range_succ]
    simp [hc]

/-- The counters agree after every step. -/
theorem step {C : Crypto} {inp : Option Bytes} {p : Key} {v v' : PeerView}
    (h : Numbered start tr st) (hstep : PeerView.Step C inp p st v evs st' v') :
    Numbered start (tr ++ evs) st' := by
  cases hstep with
  | lose silent =>
    refine h.keep rfl rfl fun e he => ?_
    have hs := silent e he
    cases e <;> first | exact ⟨rfl, rfl⟩ | exact hs.elim
  | initiate _ index cell => exact h.draw (congrArg some index) (congrArg some cell)
  | prepareUninit _ index => exact h.keep index rfl (by simp)
  | respond _ index cell => exact h.draw (congrArg some index) (congrArg some cell)
  | prepareNext _ index => exact h.keep index rfl (by simp)
  | finalize _ _ cell => exact h.alloc rfl (congrArg some cell)
  | completeUninit _ _ _ index => exact h.keep index rfl (by simp [Event.drawnIndex?, Event.cell?])
  | stage => exact h.keep rfl rfl (by simp [Event.drawnIndex?, Event.cell?])
  | completeNext _ _ _ index => exact h.keep index rfl (by simp [Event.drawnIndex?, Event.cell?])
  | forged => exact h.keep rfl rfl (by simp [Event.drawnIndex?, Event.cell?])
  | keepalive => exact h.keep rfl rfl (by simp [Event.drawnIndex?, Event.cell?])
  | deliver _ _ _ _ accepted =>
    exact h.keep rfl (Session.size_aceept accepted) (by simp [Event.drawnIndex?, Event.cell?])
  | encrypt => exact h.keep rfl rfl (by simp [Event.drawnIndex?, Event.cell?])

/-- A draw is known by the index that it handed out. -/
lemma draw_unique (h : Numbered start tr st) (hlt : (drawnIndexes tr).length < 2 ^ 32)
    {e e' : Event} {i : UInt32} (he : e ∈ tr) (he' : e' ∈ tr) (hi : e.drawnIndex? = some i)
    (hi' : e'.drawnIndex? = some i) : e = e' := by
  have nodup : (drawnIndexes tr).Nodup := by
    rw [h.indexes]
    exact nodup_tickets start hlt.le
  exact eq_of_nodup_label nodup he he' hi hi'

/-- A birth is known by the cell of the session. -/
lemma birth_unique (h : Numbered start tr st) {e e' : Event} {r : ℕ} (he : e ∈ tr) (he' : e' ∈ tr)
    (hr : e.cell? = some r) (hr' : e'.cell? = some r) : e = e' :=
  eq_of_nodup_label (h.cells ▸ List.nodup_range) he he' hr hr'

/-- The next index has not been drawn. -/
lemma index_not_mem (h : Numbered start tr st) (hlt : (drawnIndexes tr).length < 2 ^ 32) :
    st.index.index ∉ drawnIndexes tr := by
  have nodup := nodup_tickets start (n := (drawnIndexes tr).length + 1) hlt
  rw [tickets_succ, ← h.indexes, ← h.counter] at nodup
  exact fun hm => (List.nodup_append.mp nodup).2.2 _ hm _ (List.mem_singleton_self _) rfl

/-- The cells of sessions that have been born are allocated. -/
lemma cell_lt (h : Numbered start tr st) {e : Event} {r : ℕ} (he : e ∈ tr)
    (hr : e.cell? = some r) : r < st.heap.size := by
  rw [← List.mem_range, ← h.cells]
  exact List.mem_filterMap.mpr ⟨e, he, hr⟩

end Numbered

/-! ## How a session was born -/

/-- `initiate` returned the session. -/
def Initiated (tr : List Event) (s : Session) : Prop := ∃ p e, .initiated p e s ∈ tr

/-- `respond` returned the session. -/
def Responded (tr : List Event) (s : Session) : Prop := ∃ p inc e, .responded p inc e s ∈ tr

/-- An initiation with the ephemeral key `e` drew the index `i`. -/
def InitiatedWith (tr : List Event) (i : UInt32) (e : Key) : Prop :=
  ∃ q s₀, .initiated q e s₀ ∈ tr ∧ s₀.senderIndex = i

/-- `finalize` of the peer `p` returned the session, for an initiation with its index. -/
def Finalized (tr : List Event) (p : Key) (s : Session) : Prop :=
  ∃ e, .finalized p e s ∈ tr ∧ InitiatedWith tr s.senderIndex e

/-- The session has been derived, for an index that was drawn. -/
def Settled (tr : List Event) (s : Session) : Prop := Responded tr s ∨ ∃ p, Finalized tr p s

/-- The session has been born. -/
def Known (tr : List Event) (s : Session) : Prop := Initiated tr s ∨ Settled tr s

section Births

variable {tr : List Event} {s : Session} {p : Key} (evs : List Event)

/-- More events change nothing. -/
lemma Initiated.append (h : Initiated tr s) : Initiated (tr ++ evs) s := by
  obtain ⟨p, e, h⟩ := h
  exact ⟨p, e, List.mem_append_left _ h⟩

/-- More events change nothing. -/
lemma Responded.append (h : Responded tr s) : Responded (tr ++ evs) s := by
  obtain ⟨p, inc, e, h⟩ := h
  exact ⟨p, inc, e, List.mem_append_left _ h⟩

/-- More events change nothing. -/
lemma InitiatedWith.append {i : UInt32} {e : Key} (h : InitiatedWith tr i e) :
    InitiatedWith (tr ++ evs) i e := by
  obtain ⟨q, s₀, h, hi⟩ := h
  exact ⟨q, s₀, List.mem_append_left _ h, hi⟩

/-- More events change nothing. -/
lemma Finalized.append (h : Finalized tr p s) : Finalized (tr ++ evs) p s := by
  obtain ⟨e, h, hi⟩ := h
  exact ⟨e, List.mem_append_left _ h, hi.append evs⟩

/-- More events change nothing. -/
lemma Settled.append (h : Settled tr s) : Settled (tr ++ evs) s := by
  rcases h with h | ⟨p, h⟩
  · exact .inl (h.append evs)
  · exact .inr ⟨p, h.append evs⟩

/-- More events change nothing. -/
lemma Known.append (h : Known tr s) : Known (tr ++ evs) s :=
  h.imp (·.append evs) (·.append evs)

/-- The index of a session that has been born was drawn. -/
lemma Known.drawn (h : Known tr s) : s.senderIndex ∈ drawnIndexes tr := by
  rcases h with ⟨p, e, h⟩ | ⟨p, inc, e, h⟩ | ⟨p, e, -, q, s₀, h, hi⟩
  · exact List.mem_filterMap.mpr ⟨_, h, rfl⟩
  · exact List.mem_filterMap.mpr ⟨_, h, rfl⟩
  · exact List.mem_filterMap.mpr ⟨_, h, congrArg some hi⟩

/-- The cell of a session that has been born is allocated. -/
lemma Known.cell_lt {start : UInt32} {st : Store} (h : Known tr s) (hn : Numbered start tr st) :
    s.shared < st.heap.size := by
  rcases h with ⟨p, e, h⟩ | ⟨p, inc, e, h⟩ | ⟨p, e, h, -⟩
  · exact hn.cell_lt h rfl
  · exact hn.cell_lt h rfl
  · exact hn.cell_lt h rfl

/-- A session that was born in `respond` is the only one with its index. -/
lemma Responded.eq_of_index {start : UInt32} {st : Store} {s' : Session} (h : Responded tr s)
    (h' : Known tr s') (hn : Numbered start tr st) (hlt : (drawnIndexes tr).length < 2 ^ 32)
    (hi : s.senderIndex = s'.senderIndex) : s' = s := by
  obtain ⟨p, inc, e, h⟩ := h
  rcases h' with ⟨p', e', h'⟩ | ⟨p', inc', e', h'⟩ | ⟨p', e', -, q, s₀, h', hi'⟩
  · cases hn.draw_unique hlt h h' rfl (congrArg some hi.symm)
  · cases hn.draw_unique hlt h h' rfl (congrArg some hi.symm)
    rfl
  · cases hn.draw_unique hlt h h' rfl (congrArg some (hi'.trans hi.symm))

end Births

/-! ## Places -/

/-- The session of a peer in a place. -/
def PeerView.at (v : PeerView) : Place → Option Session
  | .slot k => v.slots.get k
  | .preparing => v.preparing
  | .responding => v.responding

/-- The sessions of all peers in their places. -/
def View.places (v : View) (x : Key × Place) : Option Session := (v.peer x.1).at x.2

namespace View

open ActiveSession

variable (v : View) (st : Store) (p : Key) {pv : PeerView}

/-- Only what the handshake task holds has changed. -/
lemma places_preparing (hs : pv.slots = (v.peer p).slots)
    (hr : pv.responding = (v.peer p).responding) :
    View.places ⟨st, Function.update v.peer p pv⟩ =
      Function.update v.places (p, .preparing) pv.preparing := by
  funext ⟨q, x⟩
  by_cases hq : q = p
  · subst hq
    cases x <;> simp [places, PeerView.at, hs, hr]
  · simp [places, hq]

/-- Only what the inbound task holds has changed. -/
lemma places_responding (hs : pv.slots = (v.peer p).slots)
    (hp : pv.preparing = (v.peer p).preparing) :
    View.places ⟨st, Function.update v.peer p pv⟩ =
      Function.update v.places (p, .responding) pv.responding := by
  funext ⟨q, x⟩
  by_cases hq : q = p
  · subst hq
    cases x <;> simp [places, PeerView.at, hs, hp]
  · simp [places, hq]

/-- No place has changed. -/
lemma places_same (hs : pv.slots = (v.peer p).slots) (hp : pv.preparing = (v.peer p).preparing)
    (hr : pv.responding = (v.peer p).responding) :
    View.places ⟨st, Function.update v.peer p pv⟩ = v.places := by
  rw [v.places_preparing st p hs hr, hp]
  exact Function.update_eq_self (p, Place.preparing) v.places

/-- The slots of a peer have changed, and what its tasks hold. -/
lemma places_update : View.places ⟨st, Function.update v.peer p pv⟩ =
    overlay (Function.update (Function.update v.places (p, .preparing) pv.preparing)
      (p, .responding) pv.responding) p pv.slots := by
  funext ⟨q, x⟩
  by_cases hq : q = p
  · subst hq
    cases x <;> simp [places, PeerView.at, overlay]
  · cases x <;> simp [places, PeerView.at, overlay, hq]

section Registry

variable {v p} {table : UInt32 → Option Session} {a b : Option Session}

/-- Tasks may give up the sessions they hold. -/
lemma registry_hands (h : IndexRegistry v.places table)
    (ha : a = none ∨ a = (v.peer p).preparing) (hb : b = none ∨ b = (v.peer p).responding) :
    IndexRegistry (overlay (Function.update (Function.update v.places (p, .preparing) a)
      (p, .responding) b) p (v.peer p).slots) table := by
  have heq : overlay (Function.update (Function.update v.places (p, .preparing) a)
      (p, .responding) b) p (v.peer p).slots =
      Function.update (Function.update v.places (p, .preparing) a) (p, .responding) b := by
    funext ⟨q, x⟩
    by_cases hq : q = p
    · subst hq
      cases x <;> simp [overlay, places, PeerView.at]
    · cases x <;> simp [overlay, hq]
  have first : IndexRegistry (Function.update v.places (p, .preparing) a) table := by
    rcases ha with rfl | rfl
    · exact h.release id
    · rwa [show (v.peer p).preparing = v.places (p, .preparing) from rfl, Function.update_eq_self]
  rw [heq]
  rcases hb with rfl | rfl
  · exact first.release id
  · have hsame : (v.peer p).responding =
        Function.update v.places (p, .preparing) a (p, .responding) := by
      rw [Function.update_of_ne (by simp)]
      rfl
    rwa [hsame, Function.update_eq_self]

/-- When a task gives up a session, the index of the session is free. -/
lemma fresh_of_released {at_ : Key × Place → Option Session} {y : Key × Place} {s : Session}
    (h : IndexRegistry v.places table) (hle : ∀ x s', at_ x = some s' → v.places x = some s')
    (hs : v.places y = some s) (hy : at_ y = none) : Fresh at_ s := by
  intro x s' hx hi
  obtain rfl := h.place_unique (hle x s' hx) hs hi
  rw [hy] at hx
  cases hx

/-- The places after tasks have given up sessions. -/
lemma hands_le (ha : a = none ∨ a = (v.peer p).preparing)
    (hb : b = none ∨ b = (v.peer p).responding) (x : Key × Place) (s : Session)
    (hx : overlay (Function.update (Function.update v.places (p, .preparing) a)
      (p, .responding) b) p (v.peer p).slots x = some s) : v.places x = some s := by
  obtain ⟨q, x⟩ := x
  by_cases hq : q = p
  · subst hq
    cases x with
    | slot k => simpa [overlay, places, PeerView.at] using hx
    | preparing =>
      rcases ha with rfl | rfl
      · simp [overlay] at hx
      · simpa [overlay, places, PeerView.at] using hx
    | responding =>
      rcases hb with rfl | rfl
      · simp [overlay] at hx
      · simpa [overlay, places, PeerView.at] using hx
  · cases x <;> simpa [overlay, hq] using hx

end Registry

end View

/-! ## The invariant -/

/-- Where the sessions of the peer `p` come from. -/
structure PeerView.Born (tr : List Event) (p : Key) (v : PeerView) : Prop where
  uninit : ∀ {s}, v.slots.uninit = some s → Initiated tr s
  next : ∀ {s}, v.slots.next = some s → Responded tr s
  current : ∀ {s}, v.slots.current = some s → Settled tr s
  previous : ∀ {s}, v.slots.previous = some s → Settled tr s
  initiation : ∀ {i e}, v.initiation = some (i, e) → InitiatedWith tr i e
  preparing : ∀ {s}, v.preparing = some s → Initiated tr s
  responding : ∀ {s}, v.responding = some s → Responded tr s
  finalized : ∀ {s}, v.finalized = some s → Finalized tr p s
  queue : ∀ {x}, x ∈ v.queue → Known tr x.2

namespace PeerView.Born

variable {tr : List Event} {p : Key} {v : PeerView}

/-- More events change nothing. -/
lemma append (h : v.Born tr p) (evs : List Event) : v.Born (tr ++ evs) p where
  uninit hs := (h.uninit hs).append evs
  next hs := (h.next hs).append evs
  current hs := (h.current hs).append evs
  previous hs := (h.previous hs).append evs
  initiation hs := (h.initiation hs).append evs
  preparing hs := (h.preparing hs).append evs
  responding hs := (h.responding hs).append evs
  finalized hs := (h.finalized hs).append evs
  queue hx := (h.queue hx).append evs

/-- A session in a slot has been born. -/
lemma slot (h : v.Born tr p) {k : Slot} {s : Session} (hs : v.slots.get k = some s) :
    Known tr s := by
  cases k with
  | uninit => exact .inl (h.uninit hs)
  | previous => exact .inr (h.previous hs)
  | current => exact .inr (h.current hs)
  | next => exact .inr (.inl (h.next hs))

/-- A session in a place has been born. -/
lemma place (h : v.Born tr p) {x : Place} {s : Session} (hs : v.at x = some s) :
    Known tr s := by
  cases x with
  | slot k => exact h.slot hs
  | preparing => exact .inl (h.preparing hs)
  | responding => exact .inr (.inl (h.responding hs))

end PeerView.Born

/-- A slot of some peer holds the session. -/
def View.InSlot (v : View) (s : Session) : Prop := ∃ p k, (v.peer p).slots.get k = some s

/-- The invariant of views. -/
structure Lifecycle (start : UInt32) (tr : List Event) (v : View) : Prop where
  numbered : Numbered start tr v.store
  born : ∀ p, (v.peer p).Born tr p
  /-- Slots and index agree. -/
  registry : IndexRegistry v.places v.store.index.indexes
  /-- A session that `finalize` has returned is in no slot as long as the task holds it. -/
  apart : ∀ {p f}, (v.peer p).finalized = some f → ¬ v.InSlot f

namespace Lifecycle

variable {C : Crypto} {inp : Option Bytes} {start : UInt32} {tr evs : List Event} {v : View}
  {p : Key} {st : Store} {pv : PeerView}

/-- The sessions in the index have been born. -/
lemma known_of_index (h : Lifecycle start tr v) {i : UInt32} {s : Session}
    (hs : v.store.index.indexes i = some s) : Known tr s := by
  obtain ⟨⟨q, x⟩, -, hx, -⟩ := h.registry.table_iff.mp hs
  exact (h.born q).place hx

/-- The session of a data packet that has the index of the next session is the next session. -/
lemma promoted (h : Lifecycle start tr v) (hlt : (drawnIndexes tr).length < 2 ^ 32)
    {x : TransportData × Session} {n : Session} (hx : x ∈ (v.peer p).queue)
    (hn : (v.peer p).slots.next = some n) (hi : n.senderIndex = x.2.senderIndex) : x.2 = n :=
  ((h.born p).next hn).eq_of_index ((h.born p).queue hx) h.numbered hlt hi

/-- A step keeps track of where sessions come from. -/
lemma born_step (h : Lifecycle start tr v) (hlt : (drawnIndexes tr).length < 2 ^ 32)
    (hstep : PeerView.Step C inp p v.store (v.peer p) evs st pv) : pv.Born (tr ++ evs) p := by
  have h' := (h.born p).append evs
  cases hstep with
  | lose _ slots initiation preparing responding finalized queue =>
    exact
      { uninit := fun hs => h'.uninit (slots ▸ hs)
        next := fun hs => h'.next (slots ▸ hs)
        current := fun hs => h'.current (slots ▸ hs)
        previous := fun hs => h'.previous (slots ▸ hs)
        initiation := fun hs => h'.initiation (initiation ▸ hs)
        preparing := fun hs => h'.preparing (preparing hs)
        responding := fun hs => h'.responding (responding hs)
        finalized := fun hs => h'.finalized (finalized hs)
        queue := fun hx => h'.queue (queue _ hx) }
  | @initiate e s _ index =>
    have hmem : .initiated p e s ∈ tr ++ [.initiated p e s] := by simp
    refine { h' with initiation := fun hs => ?_, preparing := fun hs => ?_ }
    · cases hs
      exact ⟨p, s, hmem, index⟩
    · cases hs
      exact ⟨p, e, hmem⟩
  | prepareUninit held =>
    refine { h' with uninit := fun hs => ?_, preparing := fun hs => by cases hs }
    cases hs
    exact h'.preparing held
  | @respond inc e s =>
    refine { h' with responding := fun hs => ?_ }
    cases hs
    exact ⟨p, inc, e, by simp⟩
  | prepareNext held =>
    refine { h' with
      next := fun hs => ?_, previous := fun hs => ?_, responding := fun hs => by cases hs }
    · cases hs
      exact h'.responding held
    · rcases Option.or_eq_some_iff.mp hs with hn | ⟨-, hp⟩
      · exact .inl (h'.next hn)
      · exact h'.previous hp
  | @finalize i e s initiation index =>
    refine { h' with finalized := fun hs => ?_ }
    cases hs
    exact ⟨e, by simp, index ▸ h'.initiation initiation⟩
  | completeUninit held =>
    refine { h' with
      previous := fun hs => h'.current hs
      uninit := fun hs => by cases hs
      current := fun hs => ?_
      finalized := fun hs => by cases hs }
    cases hs
    exact .inr ⟨p, h'.finalized held⟩
  | stage _ _ found =>
    refine { h' with queue := fun hx => ?_ }
    rcases List.mem_append.mp hx with hx | hx
    · exact h'.queue hx
    · cases List.mem_singleton.mp hx
      exact (h.known_of_index found).append _
  | completeNext held next same =>
    refine { h' with
      previous := fun hs => h'.current hs
      next := fun hs => by cases hs
      current := fun hs => ?_ }
    cases hs
    cases h.promoted hlt held next same
    exact .inl (h'.next next)
  | forged handled => exact { h' with queue := fun hx => h'.queue (by simp [handled, hx]) }
  | keepalive handled => exact { h' with queue := fun hx => h'.queue (by simp [handled, hx]) }
  | deliver handled => exact { h' with queue := fun hx => h'.queue (by simp [handled, hx]) }
  | encrypt => exact h'

/-- A new index is free. -/
lemma fresh_of_draw (h : Lifecycle start tr v) (hlt : (drawnIndexes tr).length < 2 ^ 32)
    {s : Session} (hs : s.senderIndex = v.store.index.index) : ActiveSession.Fresh v.places s := by
  rintro ⟨q, x⟩ s' hx hi
  have drawn := ((h.born q).place hx).drawn
  rw [hi, hs] at drawn
  exact h.numbered.index_not_mem hlt drawn

/-- A step keeps slots and index in agreement.

**Proof sketch.** Only sections that fill or empty a slot change the index, and each of them does
both. -/
lemma registry_step (h : Lifecycle start tr v) (hlt : (drawnIndexes tr).length < 2 ^ 32)
    (hstep : PeerView.Step C inp p v.store (v.peer p) evs st pv) :
    IndexRegistry (View.places ⟨st, Function.update v.peer p pv⟩) st.index.indexes := by
  have gone : ∀ {o o' : Option Session}, (∀ {s}, o' = some s → o = some s) →
      o' = none ∨ o' = o := by
    intro o o' ho
    cases o' with
    | none => exact .inl rfl
    | some s => exact .inr (ho rfl).symm
  have unchanged : ∀ (st : Store) (pv : PeerView), pv.slots = (v.peer p).slots →
      pv.preparing = (v.peer p).preparing → pv.responding = (v.peer p).responding →
      IndexRegistry (View.places ⟨st, Function.update v.peer p pv⟩) v.store.index.indexes := by
    intro st pv hs hp hr
    rw [v.places_same st p hs hp hr]
    exact h.registry
  cases hstep with
  | lose _ slots _ preparing responding =>
    rw [View.places_update, slots]
    exact View.registry_hands h.registry (gone preparing) (gone responding)
  | initiate _ index =>
    rw [View.places_preparing]
    · exact h.registry.hold id (h.fresh_of_draw hlt index)
    · rfl
    · rfl
  | prepareUninit held _ indexes =>
    rw [View.places_update, indexes]
    have released := View.registry_hands h.registry (p := p) (a := none) (.inl rfl) (.inr rfl)
    have fresh := View.fresh_of_released (y := (p, .preparing)) h.registry
      (View.hands_le (p := p) (a := none) (.inl rfl) (.inr rfl)) held
      (by simp [ActiveSession.overlay])
    exact ActiveSession.prepareUninit_registry released fresh
  | respond _ index =>
    rw [View.places_responding]
    · exact h.registry.hold id (h.fresh_of_draw hlt index)
    · rfl
    · rfl
  | prepareNext held _ indexes =>
    rw [View.places_update, indexes]
    have released := View.registry_hands h.registry (p := p) (b := none) (.inr rfl) (.inl rfl)
    have fresh := View.fresh_of_released (y := (p, .responding)) h.registry
      (View.hands_le (p := p) (b := none) (.inr rfl) (.inl rfl)) held
      (by simp [ActiveSession.overlay])
    exact ActiveSession.prepareNext_registry released fresh
  | completeUninit held uninit same _ indexes =>
    rw [View.places_update, indexes]
    have kept := View.registry_hands h.registry (p := p) (.inr rfl) (.inr rfl)
    exact ActiveSession.completeUninit_registry kept uninit same
  | completeNext held next same _ indexes =>
    rw [View.places_update, indexes]
    have kept := View.registry_hands h.registry (p := p) (.inr rfl) (.inr rfl)
    exact ActiveSession.completeNext_registry kept next same
  | finalize => exact unchanged _ _ rfl rfl rfl
  | stage => exact unchanged _ _ rfl rfl rfl
  | forged => exact unchanged _ _ rfl rfl rfl
  | keepalive => exact unchanged _ _ rfl rfl rfl
  | deliver => exact unchanged _ _ rfl rfl rfl
  | encrypt => exact unchanged _ _ rfl rfl rfl

/-- A session in a slot of the peer was in one of its slots before the step, or a task has just
put it there. -/
lemma slot_from (h : Lifecycle start tr v) (hlt : (drawnIndexes tr).length < 2 ^ 32)
    (hstep : PeerView.Step C inp p v.store (v.peer p) evs st pv) {k : Slot} {s : Session}
    (hs : pv.slots.get k = some s) :
    (∃ k', (v.peer p).slots.get k' = some s) ∨ (v.peer p).preparing = some s ∨
      (v.peer p).responding = some s ∨ (v.peer p).finalized = some s ∧ pv.finalized = none := by
  cases hstep with
  | lose _ slots => exact .inl ⟨k, slots ▸ hs⟩
  | prepareUninit held =>
    cases k with
    | uninit =>
      cases hs
      exact .inr (.inl held)
    | previous => exact .inl ⟨.previous, hs⟩
    | current => exact .inl ⟨.current, hs⟩
    | next => exact .inl ⟨.next, hs⟩
  | prepareNext held =>
    cases k with
    | uninit => exact .inl ⟨.uninit, hs⟩
    | previous =>
      rcases Option.or_eq_some_iff.mp hs with hn | ⟨-, hp⟩
      · exact .inl ⟨.next, hn⟩
      · exact .inl ⟨.previous, hp⟩
    | current => exact .inl ⟨.current, hs⟩
    | next =>
      cases hs
      exact .inr (.inr (.inl held))
  | completeUninit held =>
    cases k with
    | uninit => cases hs
    | previous => exact .inl ⟨.current, hs⟩
    | current =>
      cases hs
      exact .inr (.inr (.inr ⟨held, rfl⟩))
    | next => exact .inl ⟨.next, hs⟩
  | completeNext held next same =>
    cases k with
    | uninit => exact .inl ⟨.uninit, hs⟩
    | previous => exact .inl ⟨.current, hs⟩
    | current =>
      cases hs
      cases h.promoted hlt held next same
      exact .inl ⟨.next, next⟩
    | next => cases hs
  | _ => exact .inl ⟨k, hs⟩

/-- What the inbound task holds after `finalize` was there before the step or has a new cell. -/
lemma finalized_from (hstep : PeerView.Step C inp p v.store (v.peer p) evs st pv) {f : Session}
    (hf : pv.finalized = some f) :
    (v.peer p).finalized = some f ∨ f.shared = v.store.heap.size := by
  cases hstep with
  | lose _ _ _ _ _ finalized => exact .inl (finalized hf)
  | finalize _ _ cell =>
    cases hf
    exact .inr cell
  | completeUninit => cases hf
  | _ => exact .inl hf

/-- What `finalize` has returned is held by one task, after `finalize`. -/
lemma finalized_unique (h : Lifecycle start tr v) {q : Key} {f : Session}
    (hf : (v.peer q).finalized = some f) :
    (v.peer p).preparing ≠ some f ∧ (v.peer p).responding ≠ some f ∧
      ((v.peer p).finalized = some f → p = q) := by
  obtain ⟨e, hmem, -⟩ := (h.born q).finalized hf
  refine ⟨fun hs => ?_, fun hs => ?_, fun hs => ?_⟩
  · obtain ⟨p', e', hmem'⟩ := (h.born p).preparing hs
    cases h.numbered.birth_unique hmem hmem' rfl rfl
  · obtain ⟨p', inc, e', hmem'⟩ := (h.born p).responding hs
    cases h.numbered.birth_unique hmem hmem' rfl rfl
  · obtain ⟨e', hmem', -⟩ := (h.born p).finalized hs
    cases h.numbered.birth_unique hmem hmem' rfl rfl
    rfl

/-- A session in a slot after a step was in a slot before, or a task of the peer has just put it
there. -/
lemma inSlot_from (h : Lifecycle start tr v) (hlt : (drawnIndexes tr).length < 2 ^ 32)
    (hstep : PeerView.Step C inp p v.store (v.peer p) evs st pv) {s : Session}
    (hs : View.InSlot ⟨st, Function.update v.peer p pv⟩ s) :
    v.InSlot s ∨ (v.peer p).preparing = some s ∨ (v.peer p).responding = some s ∨
      (v.peer p).finalized = some s ∧ pv.finalized = none := by
  obtain ⟨q, k, hs⟩ := hs
  simp only [Function.update_apply] at hs
  split_ifs at hs
  · rcases h.slot_from hlt hstep hs with ⟨k', hk'⟩ | held
    · exact .inl ⟨p, k', hk'⟩
    · exact .inr held
  · exact .inl ⟨q, k, hs⟩

/-- A step keeps sessions that are held after `finalize` out of the slots. -/
lemma apart_step (h : Lifecycle start tr v) (hlt : (drawnIndexes tr).length < 2 ^ 32)
    (hstep : PeerView.Step C inp p v.store (v.peer p) evs st pv) {q : Key} {f : Session}
    (hf : (Function.update v.peer p pv q).finalized = some f) :
    ¬ View.InSlot ⟨st, Function.update v.peer p pv⟩ f := by
  intro hs
  have hfrom := h.inSlot_from hlt hstep hs
  have hknown : Known tr f := by
    rcases hfrom with ⟨r, k, hk⟩ | hk | hk | ⟨hk, -⟩
    · exact (h.born r).slot hk
    · exact .inl ((h.born p).preparing hk)
    · exact .inr (.inl ((h.born p).responding hk))
    · exact .inr (.inr ⟨p, (h.born p).finalized hk⟩)
  have hlive := hknown.cell_lt h.numbered
  -- the session is not new, so the task held it before the step
  have hheld : (v.peer q).finalized = some f := by
    rw [Function.update_apply] at hf
    split_ifs at hf with hq
    · subst hq
      exact (finalized_from hstep hf).resolve_right (by omega)
    · exact hf
  obtain ⟨hp, hr, hone⟩ := h.finalized_unique (p := p) hheld
  rcases hfrom with hin | hk | hk | ⟨hk, hnone⟩
  · exact h.apart hheld hin
  · exact hp hk
  · exact hr hk
  · obtain rfl := hone hk
    rw [Function.update_self, hnone] at hf
    cases hf

/-- **Steps keep the invariant** while indexes are new. -/
theorem step {v' : View} (h : Lifecycle start tr v)
    (hlt : (drawnIndexes (tr ++ evs)).length < 2 ^ 32) (hstep : View.Step C inp v evs v') :
    Lifecycle start (tr ++ evs) v' := by
  have hlt := length_drawnIndexes_lt hlt
  obtain @⟨p, st, pv, hpeer⟩ := hstep
  refine ⟨h.numbered.step hpeer, fun q => ?_, h.registry_step hlt hpeer, h.apart_step hlt hpeer⟩
  simp only [Function.update_apply]
  split_ifs with hq
  · subst hq
    exact h.born_step hlt hpeer
  · exact (h.born q).append evs

/-- The invariant holds at the start. -/
lemma initial (start : UInt32) : Lifecycle start [] (Device.initialView start) := by
  have empty : ∀ x, (Device.initialView start).places x = none := by
    rintro ⟨p, x⟩
    cases x <;> simp [View.places, PeerView.at, Device.initialView, PeerView.empty]
  refine ⟨⟨?_, rfl, rfl⟩, fun p => ?_, ⟨fun hx => ?_, fun {i s} => ⟨?_, ?_⟩⟩, ?_⟩
  · simp [Device.initialView, SessionIndex.new, drawnIndexes]
  · constructor <;> intros <;> contradiction
  · rw [empty] at hx
    cases hx
  · rintro ⟨⟩
  · rintro ⟨x, -, hx, -⟩
    rw [empty] at hx
    cases hx
  · rintro p f ⟨⟩

end Lifecycle

/-! ## The device -/

namespace Device

variable {C : Crypto} {privateKey : Key} {start : UInt32} {tr : List Event} {d : Device}

/-- The invariant holds in every state that is reached with fewer than `2 ^ 32` draws. -/
lemma Reaches.lifecycle {guard : Device → Action → Prop}
    (run : d.Reaches C privateKey start guard tr) (hlt : (drawnIndexes tr).length < 2 ^ 32) :
    Lifecycle start tr d.view := by
  have inv : ((drawnIndexes tr).length < 2 ^ 32 → Lifecycle start tr d.view) ∧ d.Keyed := by
    refine run.view_invariant
      (I := fun tr v => (drawnIndexes tr).length < 2 ^ 32 → Lifecycle start tr v)
      (fun _ => .initial start) ?_
    intro d tr a d' evs _ ih _ _ hstep hlt
    exact (ih (length_drawnIndexes_lt hlt)).step hlt hstep
  exact inv.1 hlt

/-- A slot of some peer of the device holds the session. -/
def InSlot (d : Device) (s : Session) : Prop :=
  ∃ p n k, d.peers p = some n ∧ n.peer.sessions.get k = some s

/-- The index has one entry for each occupied slot of each peer, under the index of the session in
it, and no other entries. -/
structure IndexExact (d : Device) : Prop where
  entries : ∀ i s, d.store.index.getByIndex i = some s ↔ d.InSlot s ∧ s.senderIndex = i
  slots : ∀ {p n k s q m l s'}, d.peers p = some n → n.peer.sessions.get k = some s →
    d.peers q = some m → m.peer.sessions.get l = some s' → s.senderIndex = s'.senderIndex →
    p = q ∧ k = l

/-- Views and devices agree on what is in a slot. -/
lemma inSlot_view {s : Session} : d.view.InSlot s ↔ d.InSlot s := by
  constructor
  · rintro ⟨p, k, hs⟩
    cases hp : d.peers p with
    | none => simp [view, hp, PeerView.empty] at hs
    | some n => exact ⟨p, n, k, hp, by rwa [view_peer_some hp] at hs⟩
  · rintro ⟨p, n, k, hp, hs⟩
    exact ⟨p, k, by rwa [view_peer_some hp]⟩

/-- The index is exact as long as indexes are new. -/
lemma indexExact_of_lifecycle (h : Lifecycle start tr d.view) : d.IndexExact where
  entries i s := by
    rw [← inSlot_view]
    constructor
    · intro hs
      obtain ⟨⟨p, x⟩, hl, hx, hi⟩ := h.registry.table_iff.mp hs
      cases x with
      | slot k => exact ⟨⟨p, k, hx⟩, hi⟩
      | preparing => exact hl.elim
      | responding => exact hl.elim
    · rintro ⟨⟨p, k, hs⟩, hi⟩
      exact h.registry.table_iff.mpr ⟨(p, .slot k), trivial, hs, hi⟩
  slots {p n k s q m l s'} hp hs hq hs' hi := by
    have hx : d.view.places (p, .slot k) = some s := by
      rwa [View.places, view_peer_some hp]
    have hy : d.view.places (q, .slot l) = some s' := by
      rwa [View.places, view_peer_some hq]
    have same := h.registry.place_unique hx hy hi
    simp only [Prod.mk.injEq, Place.slot.injEq] at same
    exact same

end Device

/-! ## Retired sessions -/

/-- A task holds the session on its way into a slot. -/
def View.Held (v : View) (s : Session) : Prop :=
  ∃ p, (v.peer p).preparing = some s ∨ (v.peer p).responding = some s ∨
    (v.peer p).finalized = some s

/-- The session is not new, and no task is about to put it into a slot. -/
def View.Released (v : View) (s : Session) : Prop := s.shared < v.store.heap.size ∧ ¬ v.Held s

namespace Lifecycle

variable {C : Crypto} {inp : Option Bytes} {start : UInt32} {tr evs : List Event} {v v' : View}
  {s : Session}

/-- A session in a slot is not held by a task. -/
lemma released_of_inSlot (h : Lifecycle start tr v) (hs : v.InSlot s) : v.Released s := by
  obtain ⟨p, k, hk⟩ := hs
  refine ⟨((h.born p).slot hk).cell_lt h.numbered, ?_⟩
  have hx : v.places (p, .slot k) = some s := hk
  rintro ⟨q, hq | hq | hq⟩
  · have hy : v.places (q, .preparing) = some s := hq
    cases h.registry.place_unique hx hy rfl
  · have hy : v.places (q, .responding) = some s := hq
    cases h.registry.place_unique hx hy rfl
  · exact h.apart hq ⟨p, k, hk⟩

/-- What a task of a peer holds after a step, it held before, or it is new. -/
lemma held_from {p : Key} {st : Store} {pv : PeerView}
    (hstep : PeerView.Step C inp p v.store (v.peer p) evs st pv)
    (hs : pv.preparing = some s ∨ pv.responding = some s ∨ pv.finalized = some s) :
    v.Held s ∨ s.shared = v.store.heap.size := by
  cases hstep with
  | lose _ _ _ preparing responding finalized =>
    exact .inl ⟨p, hs.imp preparing (Or.imp responding finalized)⟩
  | initiate _ _ cell =>
    rcases hs with hs | hs
    · cases hs
      exact .inr cell
    · exact .inl ⟨p, .inr hs⟩
  | prepareUninit => exact .inl ⟨p, .inr (hs.resolve_left (by simp))⟩
  | respond _ _ cell =>
    rcases hs with hs | hs | hs
    · exact .inl ⟨p, .inl hs⟩
    · cases hs
      exact .inr cell
    · exact .inl ⟨p, .inr (.inr hs)⟩
  | prepareNext => exact .inl ⟨p, hs.imp_right fun hs => .inr (hs.resolve_left (by simp))⟩
  | finalize _ _ cell =>
    rcases hs with hs | hs | hs
    · exact .inl ⟨p, .inl hs⟩
    · exact .inl ⟨p, .inr (.inl hs)⟩
    · cases hs
      exact .inr cell
  | completeUninit => exact .inl ⟨p, hs.imp_right fun hs => .inl (hs.resolve_right (by simp))⟩
  | _ => exact .inl ⟨p, hs⟩

/-- A session that is released stays so, and a step does not bring it into a slot. -/
lemma released_step (h : Lifecycle start tr v) (hlt : (drawnIndexes tr).length < 2 ^ 32)
    (hstep : View.Step C inp v evs v') (hs : v.Released s) :
    v'.Released s ∧ (v'.InSlot s → v.InSlot s) := by
  obtain @⟨p, st, pv, hpeer⟩ := hstep
  obtain ⟨hcell, hheld⟩ := hs
  refine ⟨⟨?_, ?_⟩, fun hin => ?_⟩
  · -- cells are not given back
    have hlen := congrArg List.length (h.numbered.step hpeer).cells
    rw [List.filterMap_append, h.numbered.cells, List.length_append, List.length_range,
      List.length_range] at hlen
    show s.shared < st.heap.size
    omega
  · rintro ⟨q, hq⟩
    simp only [Function.update_apply] at hq
    split_ifs at hq
    · rcases held_from hpeer hq with hold | hnew
      · exact hheld hold
      · omega
    · exact hheld ⟨q, hq⟩
  · rcases h.inSlot_from hlt hpeer hin with hin | hp | hr | ⟨hf, -⟩
    · exact hin
    · exact absurd ⟨p, .inl hp⟩ hheld
    · exact absurd ⟨p, .inr (.inl hr)⟩ hheld
    · exact absurd ⟨p, .inr (.inr hf)⟩ hheld

end Lifecycle

namespace Device

variable {C : Crypto} {privateKey : Key} {start : UInt32} {guard : Device → Action → Prop}

/-- A session that is released at some moment is in a slot later on only if it is in a slot at
that moment. -/
lemma Reaches.released_run {d₁ d₂ : Device} {tr₁ tr₂ : List Event}
    (run₁ : d₁.Reaches C privateKey start guard tr₁) (run₂ : Run (step C) guard d₁ tr₂ d₂)
    (hlt : (drawnIndexes (tr₁ ++ tr₂)).length < 2 ^ 32) {s : Session} (hs : d₁.view.Released s) :
    d₂.view.Released s ∧ (d₂.view.InSlot s → d₁.view.InSlot s) := by
  refine Run.invariant (I := fun tr d => (drawnIndexes (tr₁ ++ tr)).length < 2 ^ 32 →
    d.view.Released s ∧ (d.view.InSlot s → d₁.view.InSlot s)) (fun _ => ⟨hs, id⟩) ?_ run₂ hlt
  intro tr d a d' evs run ih _ h hlt
  have hlt' : (drawnIndexes (tr₁ ++ tr)).length < 2 ^ 32 := by
    rw [← List.append_assoc] at hlt
    exact length_drawnIndexes_lt hlt
  have reached : d.Reaches C privateKey start guard (tr₁ ++ tr) := Run.trans run₁ run
  obtain ⟨released, back⟩ := ih hlt'
  obtain ⟨released', back'⟩ := (reached.lifecycle hlt').released_step hlt'
    (step_view reached.keyed h).1 released
  exact ⟨released', fun hin => back (back' hin)⟩

/-- **The index is exact.** In every run of a device with fewer than `2 ^ 32` draws of an index, the
index has at every moment one entry for each occupied slot of each peer and no other entries; and a
session that has left the slots is never found again.

**Proof sketch.** The entries follow from the invariant. A session in a slot is not held by a task;
from then on no step can put it into a slot, because tasks put there only what they hold, and what
they come to hold is new. -/
theorem index_exact (C : Crypto) (privateKey : Key) (start : UInt32) {d₁ d₂ d₃ : Device}
    {tr₁ tr₂ tr₃ : List Event} (run₁ : d₁.Reaches C privateKey start (fun _ _ => True) tr₁)
    (run₂ : Run (step C) (fun _ _ => True) d₁ tr₂ d₂)
    (run₃ : Run (step C) (fun _ _ => True) d₂ tr₃ d₃)
    (hlt : (drawnIndexes (tr₁ ++ tr₂ ++ tr₃)).length < 2 ^ 32) :
    d₃.IndexExact ∧
      ∀ s, d₁.InSlot s → ¬ d₂.InSlot s → ∀ i, d₃.store.index.getByIndex i ≠ some s := by
  have reached₂ : d₂.Reaches C privateKey start (fun _ _ => True) (tr₁ ++ tr₂) :=
    Run.trans run₁ run₂
  have reached₃ : d₃.Reaches C privateKey start (fun _ _ => True) (tr₁ ++ tr₂ ++ tr₃) :=
    Run.trans reached₂ run₃
  have hlt₂ : (drawnIndexes (tr₁ ++ tr₂)).length < 2 ^ 32 := length_drawnIndexes_lt hlt
  have exact₃ := indexExact_of_lifecycle (reached₃.lifecycle hlt)
  refine ⟨exact₃, fun s hin hout i hi => hout ?_⟩
  have released₁ := (run₁.lifecycle (length_drawnIndexes_lt hlt₂)).released_of_inSlot
    (inSlot_view.mpr hin)
  have released₂ := (run₁.released_run run₂ hlt₂ released₁).1
  have back := (reached₂.released_run run₃ hlt released₂).2
  exact inSlot_view.mp (back (inSlot_view.mpr ((exact₃.entries i s).mp hi).1))

/-- A run in which a second initiation replaces the half-initialised session of the first. -/
theorem index_exact_sample : ∃ (d₁ d₂ d₃ : Device) (tr₁ tr₂ tr₃ : List Event),
    d₁.Reaches .sample Sample.localKey Sample.start (fun _ _ => True) tr₁ ∧
      Run (step .sample) (fun _ _ => True) d₁ tr₂ d₂ ∧
      Run (step .sample) (fun _ _ => True) d₂ tr₃ d₃ ∧
      (drawnIndexes (tr₁ ++ tr₂ ++ tr₃)).length < 2 ^ 32 ∧ d₁.InSlot Sample.placeholder ∧
      ¬ d₂.InSlot Sample.placeholder ∧ d₃.IndexExact ∧
      ∀ i, d₃.store.index.getByIndex i ≠ some Sample.placeholder := by
  obtain ⟨d₁, tr₁, run₁, check₁⟩ := exists_run_of_exec (step .sample) Sample.initiate Sample.device
    (fun r₁ => ((r₁.1.peers Sample.remote).any fun n =>
        n.peer.sessions.uninit = some Sample.placeholder) &&
      (exec (step .sample) r₁.1 (List.replicate 3 Sample.handshake ++
        List.replicate 4 Sample.handshakeLater)).any fun r₂ =>
        r₂.1.store.index.getByIndex Sample.start = none && (exec (step .sample) r₂.1
          [.receive Sample.endpoint Sample.initiation.2 (Sample.env 0), Sample.inbound,
            Sample.inbound]).any fun r₃ =>
              (drawnIndexes (r₁.2 ++ r₂.2 ++ r₃.2)).length < 2 ^ 32)
    (by decide +kernel)
  obtain ⟨hslot, check₁⟩ := Bool.and_eq_true_iff.mp check₁
  obtain ⟨d₂, tr₂, run₂, check₂⟩ := exists_run_of_exec (step .sample) _ d₁ _ check₁
  obtain ⟨hnone, check₂⟩ := Bool.and_eq_true_iff.mp check₂
  obtain ⟨d₃, tr₃, run₃, check₃⟩ := exists_run_of_exec (step .sample) _ d₂ _ check₂
  have hlt : (drawnIndexes (tr₁ ++ tr₂ ++ tr₃)).length < 2 ^ 32 := of_decide_eq_true check₃
  have hin : d₁.InSlot Sample.placeholder := by
    cases hn : d₁.peers Sample.remote with
    | none => simp [hn] at hslot
    | some n =>
      have hu : n.peer.sessions.uninit = some Sample.placeholder := by simpa [hn] using hslot
      exact ⟨Sample.remote, n, .uninit, hn, hu⟩
  -- the index is exact in the second state as well, and has no entry for the session
  have hout : ¬ d₂.InSlot Sample.placeholder := by
    intro hin₂
    have entry := ((index_exact _ _ _ run₁ run₂ .nil (by
      rw [List.append_nil]
      exact length_drawnIndexes_lt hlt)).1.entries _ _).mpr ⟨hin₂, rfl⟩
    have none : d₂.store.index.getByIndex Sample.start = none := of_decide_eq_true hnone
    exact absurd (none.symm.trans entry) (by simp)
  have main := index_exact _ _ _ run₁ run₂ run₃ hlt
  exact ⟨d₁, d₂, d₃, tr₁, tr₂, tr₃, run₁, run₂, run₃, hlt, hin, hout, main.1, main.2 _ hin hout⟩

end Device

end Vlink
