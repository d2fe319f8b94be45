import Mathlib.Data.List.Perm.Subperm
import Vlink.Device.Ledger
import Vlink.Device.Link
import Vlink.Device.Provenance
import Vlink.Device.Replay

set_option autoImplicit false

/-!
# What a tunnel delivers was sent

Between two devices is a network that loses, repeats, delays and reorders packets and makes up its
own. If it cannot make up packets that open under a key that the devices have agreed on, and leaves
half-initialised sessions alone, whose keys are placeholders, then what is written to the TUN device
of one end, for the other end as its peer, is among what the other end has routed to it, each packet
at most once.

## Main definitions

* `Vlink.Vouched` — a session that `respond` returned, or that became current.
* `Vlink.Openers` — the invariant: the sessions that open data packets are vouched for.
* `Vlink.Link.Authentic` — what the network can do.

## Main results

* `Vlink.Device.Reaches.openings_nodup` — a device opens a packet with data at most once.
* `Vlink.Link.delivered_subperm` — what is delivered at one end was routed at the other.

## Design

The packets that are sealed are recorded as a history of the run. A device opens packets by the
index of a session, so two sessions with the same receiving key would open the same packet, each
with its own replay filter. There are no two such sessions: `finalize` may return several for one
index, but only one of them becomes current, and only then is it registered.
-/

namespace Vlink

/-! ## The sessions that open packets -/

/-- `respond` returned the session, or it became current. -/
def Vouched (tr : List Event) (s : Session) : Prop := Responded tr s ∨ ∃ p, .installed p s ∈ tr

namespace Vouched

variable {tr : List Event} {s s' : Session} {start : UInt32} {v : View}

/-- More events change nothing. -/
lemma append (h : Vouched tr s) (evs : List Event) : Vouched (tr ++ evs) s := by
  rcases h with h | ⟨p, h⟩
  · exact .inl (h.append evs)
  · exact .inr ⟨p, List.mem_append_left _ h⟩

/-- The session was derived. -/
lemma settled (h : Vouched tr s) (H : Installs tr v) : Settled tr s := by
  rcases h with h | ⟨p, h⟩
  · exact .inl h
  · exact H.settled h

/-- There is at most one such session for an index. -/
lemma eq_of_index (h : Vouched tr s) (h' : Vouched tr s') (L : Lifecycle start tr v)
    (H : Installs tr v) (hlt : (drawnIndexes tr).length < 2 ^ 32)
    (hi : s.senderIndex = s'.senderIndex) : s = s' := by
  rcases h with hs | ⟨p, hs⟩
  · exact (hs.eq_of_index (.inr (h'.settled H)) L.numbered hlt hi).symm
  rcases h' with hs' | ⟨p', hs'⟩
  · exact hs'.eq_of_index (.inr (H.settled hs)) L.numbered hlt hi.symm
  · have same := eq_of_nodup_label H.nodup hs hs' rfl (congrArg some hi.symm)
    simp only [Event.installed.injEq] at same
    exact same.2

end Vouched

/-- The sessions that data packets are opened with are vouched for. -/
structure Openers (tr : List Event) (v : View) : Prop where
  previous : ∀ {p s}, (v.peer p).slots.previous = some s → Vouched tr s
  queue : ∀ {p x}, x ∈ (v.peer p).queue → Vouched tr x.2
  opened : ∀ {p s c data}, .opened p s c data ∈ tr → Vouched tr s

namespace Openers

variable {C : Crypto} {inp : Option Bytes} {start : UInt32} {tr evs : List Event} {v v' : View}
  {p : Key} {st : Store} {pv : PeerView}

/-- A session that data packets find by its index, and that is not half-initialised. -/
lemma of_index (h : Openers tr v) (L : Lifecycle start tr v) (H : Installs tr v) {i : UInt32}
    {s : Session} (hs : v.store.index.indexes i = some s)
    (hspares : ∀ p, (v.peer p).slots.uninit ≠ some s) : Vouched tr s := by
  obtain ⟨⟨q, x⟩, hl, hx, -⟩ := L.registry.table_iff.mp hs
  cases x with
  | slot k =>
    cases k with
    | uninit => exact absurd hx (hspares q)
    | previous => exact h.previous hx
    | current => exact .inr ⟨q, H.current hx⟩
    | next => exact .inl ((L.born q).next hx)
  | preparing | responding => exact hl.elim

/-- Where the previous session of a peer comes from. -/
lemma previous_step (h : Openers tr v) (L : Lifecycle start tr v) (H : Installs tr v)
    (hstep : PeerView.Step C inp p v.store (v.peer p) evs st pv) {s : Session}
    (hs : pv.slots.previous = some s) : Vouched tr s := by
  cases hstep with
  | lose _ slots => exact h.previous (slots ▸ hs)
  | prepareNext =>
    rcases Option.or_eq_some_iff.mp hs with hn | ⟨-, hp⟩
    · exact .inl ((L.born p).next hn)
    · exact h.previous hp
  | completeUninit => exact .inr ⟨p, H.current hs⟩
  | completeNext => exact .inr ⟨p, H.current hs⟩
  | _ => exact h.previous hs

/-- A step that spares half-initialised sessions keeps the invariant. -/
lemma step (h : Openers tr v) (L : Lifecycle start tr v) (H : Installs tr v)
    (hspares : v.SparesUninit inp) (hstep : View.Step C inp v evs v') :
    Openers (tr ++ evs) v' := by
  obtain @⟨p, st, pv, hpeer⟩ := hstep
  refine ⟨fun {q s} hs => ?_, fun {q x} hx => ?_, fun {q s c data} he => ?_⟩
  · simp only [Function.update_apply] at hs
    split_ifs at hs
    · exact (h.previous_step L H hpeer hs).append evs
    · exact (h.previous hs).append evs
  · simp only [Function.update_apply] at hx
    split_ifs at hx
    · rcases hpeer.queue_from hx with hx | ⟨⟨payload, received, parsed, found, -⟩, -⟩
      · exact (h.queue hx).append evs
      · exact (h.of_index L H found (hspares payload x.1 x.2 received parsed found)).append evs
    · exact (h.queue hx).append evs
  · rcases List.mem_append.mp he with he | he
    · exact (h.opened he).append evs
    · obtain ⟨packet, hmem, -⟩ := hpeer.opened_from he
      exact (h.queue hmem).append evs

end Openers

/-! ## What a device opens and delivers -/

/-- The receiving key, the counter and the data of a packet of the peer `p` that was opened and was
not empty. -/
def Event.openedFrom? (p : Key) : Event → Option (Key × UInt64 × Bytes)
  | .opened q s c (b :: data) => if q = p then some (s.receiverKey, c, b :: data) else none
  | _ => none

/-- Which events open a packet of the peer. -/
lemma Event.openedFrom?_eq_some {p : Key} {e : Event} {x : Key × UInt64 × Bytes} :
    e.openedFrom? p = some x ↔ ∃ s c b data, e = .opened p s c (b :: data) ∧
      x = (s.receiverKey, c, b :: data) := by
  constructor
  · intro h
    unfold openedFrom? at h
    split at h
    · split_ifs at h with hq
      cases h
      exact ⟨_, _, _, _, hq ▸ rfl, rfl⟩
    · cases h
  · rintro ⟨s, c, b, data, rfl, rfl⟩
    exact if_pos rfl

/-- The packets with data that were opened for the peer `p`. -/
def openings (p : Key) (tr : List Event) : List (Key × UInt64 × Bytes) :=
  tr.filterMap (Event.openedFrom? p)

/-- The data of the peer `p` that was written to the TUN device. -/
def Event.deliveredFrom? (p : Key) : Event → Option Bytes
  | .tunSend q _ data => if q = p then some data else none
  | _ => none

/-- The data of the peer `p` that was written to the TUN device, in order. -/
def deliveredFrom (p : Key) (tr : List Event) : List Bytes := tr.filterMap (Event.deliveredFrom? p)

/-- Events that say nothing of sessions. -/
lemma openings_of_silent {evs : List Event} (h : ∀ e ∈ evs, e.Silent) (p : Key) :
    openings p evs = [] ∧ deliveredFrom p evs = [] := by
  constructor <;> refine List.filterMap_eq_nil_iff.mpr fun e he => ?_
  all_goals
    have hs := h e he
    cases e <;> first | rfl | exact hs.elim

/-- A step opens nothing, or a packet that the peer has in hand, which is delivered. -/
lemma PeerView.Step.openings_cases {C : Crypto} {inp : Option Bytes} {p : Key} {st st' : Store}
    {v v' : PeerView} {evs : List Event} (hstep : PeerView.Step C inp p st v evs st' v') (q : Key) :
    openings q evs = [] ∧ deliveredFrom q evs = [] ∨
      q = p ∧ ∃ packet s data, (packet, s) ∈ v.queue ∧ s.decryptData C packet = .ok data ∧
        openings q evs = [(s.receiverKey, packet.counter, data)] ∧
        deliveredFrom q evs = [data] := by
  cases hstep with
  | lose silent => exact .inl (openings_of_silent silent q)
  | @deliver packet s ep data queue heap handled _ nonempty decrypted =>
    obtain ⟨b, data, rfl⟩ := List.exists_cons_of_ne_nil nonempty
    by_cases hq : q = p
    · subst hq
      refine .inr ⟨rfl, packet, s, b :: data, handled ▸ List.mem_cons_self, decrypted, ?_, ?_⟩
      · simp [openings, List.filterMap_cons, Event.openedFrom?]
      · simp [deliveredFrom, List.filterMap_cons, Event.deliveredFrom?]
    · refine .inl ⟨?_, ?_⟩
      · simp [openings, List.filterMap_cons, Event.openedFrom?, Ne.symm hq]
      · simp [deliveredFrom, List.filterMap_cons, Event.deliveredFrom?, Ne.symm hq]
  | _ => exact .inl ⟨rfl, rfl⟩

/-- If what a peer has in hand opens to something of `R`, and so does what is staged for it, then
what it opens in a step is of `R`. -/
lemma View.Step.opens {C : Crypto} {inp : Option Bytes} {v v' : View} {evs : List Event} {p : Key}
    {R : Key × UInt64 × Bytes → Prop} (hstep : View.Step C inp v evs v')
    (hqueue : ∀ {packet s data}, (packet, s) ∈ (v.peer p).queue →
      s.decryptData C packet = .ok data → R (s.receiverKey, packet.counter, data))
    (hnew : ∀ {payload packet s data}, inp = some payload →
      Message.parse payload = .ret (.ok (.transportData packet)) →
      v.store.index.indexes packet.receiverIndex = some s → s.secret.publicKey = p →
      s.decryptData C packet = .ok data → R (s.receiverKey, packet.counter, data)) :
    (∀ {packet s data}, (packet, s) ∈ (v'.peer p).queue →
      s.decryptData C packet = .ok data → R (s.receiverKey, packet.counter, data)) ∧
    ∀ r ∈ openings p evs, R r := by
  obtain @⟨q, st, pv, hpeer⟩ := hstep
  refine ⟨fun {packet s data} hx decrypted => ?_, fun r hr => ?_⟩
  · simp only [Function.update_apply] at hx
    split_ifs at hx with hq
    · subst hq
      rcases hpeer.queue_from hx with hx | ⟨⟨payload, received, parsed, found, -⟩, -, owner⟩
      · exact hqueue hx decrypted
      · exact hnew received parsed found owner decrypted
    · exact hqueue hx decrypted
  · rcases hpeer.openings_cases p with ⟨ho, -⟩ | ⟨rfl, packet, s, data, hx, decrypted, ho, -⟩
    · rw [ho] at hr
      cases hr
    · rw [ho, List.mem_singleton] at hr
      exact hr ▸ hqueue hx decrypted

/-- Ephemeral keys are fresh, and fresh ephemeral keys give distinct keys to receive with. -/
structure FreshReceivers (tr : List Event) : Prop where
  ephemerals : (tr.filterMap Event.ephemeral?).Nodup
  derived : ∀ x ∈ derivations tr, ∀ y ∈ derivations tr,
    x.1 ≠ y.1 → x.2.receiverKey ≠ y.2.receiverKey

/-- Derived sessions with the same key to receive with have the same index. -/
lemma FreshReceivers.index_eq {tr : List Event} (hfresh : FreshReceivers tr) {s s' : Session}
    (hs : Settled tr s) (hs' : Settled tr s') (hkey : s.receiverKey = s'.receiverKey) :
    s.senderIndex = s'.senderIndex := by
  obtain ⟨e, draw, hmem, hidx, heph, hd⟩ := hs.own_draw
  obtain ⟨e', draw', hmem', hidx', heph', hd'⟩ := hs'.own_draw
  obtain rfl : e = e' := by
    by_contra he
    exact hfresh.derived _ hd _ hd' he hkey
  obtain rfl := eq_of_nodup_label hfresh.ephemerals hmem hmem' heph heph'
  exact Option.some.inj (hidx.symm.trans hidx')

namespace Device

variable {C : Crypto} {privateKey : Key} {start : UInt32} {tr : List Event} {d : Device}

/-- The invariant holds in every state that is reached with fewer than `2 ^ 32` draws, if
half-initialised sessions are spared. -/
lemma Reaches.openers (run : d.Reaches C privateKey start SparesUninit tr)
    (hlt : (drawnIndexes tr).length < 2 ^ 32) : Openers tr d.view := by
  refine (run.view_invariant (I := fun tr v => (drawnIndexes tr).length < 2 ^ 32 → Openers tr v)
    (fun _ => ?_) ?_).1 hlt
  · exact ⟨fun hs => (by cases hs), fun hx => (by cases hx), fun he => (by cases he)⟩
  · intro d tr a d' evs run ih ok _ hstep hlt
    have hlt := length_drawnIndexes_lt hlt
    obtain ⟨L, H, -⟩ := run.installs hlt
    exact (ih hlt).step L H ok.view hstep

/-- What is written to the TUN device was opened. -/
lemma Reaches.deliveredFrom_eq {guard : Device → Action → Prop}
    (run : d.Reaches C privateKey start guard tr) (p : Key) :
    deliveredFrom p tr = (openings p tr).map fun x => x.2.2 := by
  refine (run.view_invariant
    (I := fun tr _ => deliveredFrom p tr = (openings p tr).map fun x => x.2.2) rfl ?_).1
  intro d tr a d' evs _ ih _ _ hstep
  generalize d'.view = v' at hstep
  obtain @⟨q, st, pv, hpeer⟩ := hstep
  have hdel : deliveredFrom p (tr ++ evs) = deliveredFrom p tr ++ deliveredFrom p evs :=
    List.filterMap_append
  have hopen : openings p (tr ++ evs) = openings p tr ++ openings p evs := List.filterMap_append
  rw [hdel, hopen, List.map_append, ih]
  rcases hpeer.openings_cases p with ⟨ho, hd⟩ | ⟨-, _, _, _, -, -, ho, hd⟩ <;> rw [ho, hd] <;> rfl

/-- **Opened once.** A device opens a packet with data at most once: no two packets that it opens
have the same key and counter.

**Proof sketch.** The filter of a session does not let a counter through again, and there is one
session for a key. -/
theorem Reaches.openings_nodup (run : d.Reaches C privateKey start SparesUninit tr)
    (hlt : (drawnIndexes tr).length < 2 ^ 32) (hfresh : FreshReceivers tr) (p : Key) :
    (openings p tr).Nodup := by
  obtain ⟨L, H, -⟩ := run.installs hlt
  have openers := run.openers hlt
  refine nodup_label_of_historically fun past e rest heq x hx e' he' hx' => ?_
  have once := run.filters.once past e rest heq
  have hmem : e ∈ tr := heq ▸ List.mem_append_right _ List.mem_cons_self
  have hmem' : e' ∈ tr := heq ▸ List.mem_append_left _ he'
  obtain ⟨s, c, b, data, rfl, rfl⟩ := Event.openedFrom?_eq_some.mp hx
  obtain ⟨s', c', b', data', rfl, hsame⟩ := Event.openedFrom?_eq_some.mp hx'
  obtain ⟨hkey, rfl, -⟩ : _ ∧ _ ∧ _ := by simpa only [Prod.mk.injEq] using hsame
  -- the sessions are the same, and so are their filters
  have hs := openers.opened hmem
  have hs' := openers.opened hmem'
  have hi := hfresh.index_eq (hs.settled H) (hs'.settled H) hkey
  obtain rfl := hs.eq_of_index hs' L H hlt hi
  exact once _ rfl _ he' rfl

end Device

/-! ## The two ends -/

/-- The key, the nonce and the data of the packets that were sealed for the peer `p`. -/
def sealedFor (p : Key) (log : List Taken) : List (Key × UInt64 × Bytes) :=
  log.filterMap fun x =>
    if x.peer = p then x.sealing.map fun y => (y.1.senderKey, y.2, x.data) else none

/-- What was sealed was taken from the channel. -/
lemma sealedFor_sublist (p : Key) (log : List Taken) :
    ((sealedFor p log).map fun x => x.2.2).Sublist (Device.takenFor p log) := by
  induction log with
  | nil => exact .slnil
  | cons x log ih =>
    by_cases hp : x.peer = p
    · cases hs : x.sealing with
      | none => simpa [sealedFor, Device.takenFor, hp, hs] using ih.cons x.data
      | some y => simpa [sealedFor, Device.takenFor, hp, hs] using ih.cons_cons x.data
    · simpa [sealedFor, Device.takenFor, hp] using ih

namespace Link

variable {C : Crypto} {key : Side → Key} {start : Side → UInt32} {clock : Side → Instant}

/-- What a step takes from the channel of a peer, at the end where it happens. -/
def takes (l : Link) (x : Side × Action) : List (Side × Taken) :=
  ((l.node x.1).device.takes x.2).map (Prod.mk x.1)

/-- What the network can do: a data packet is not for a half-initialised session, and if it opens
under a session with the other end then the other end has sealed this data for this end, with that
key and that counter. -/
def Authentic (C : Crypto) (key : Side → Key) (x : Link × List (Side × Taken)) (y : Side × Action) :
    Prop :=
  (x.1.node y.1).device.SparesUninit y.2 ∧
    ∀ packet s data, (x.1.node y.1).device.addressed y.2 = some (packet, s) →
      s.secret.publicKey = C.publicKey (key y.1.other) → s.decryptData C packet = .ok data →
      (s.receiverKey, packet.counter, data) ∈
        sealedFor (C.publicKey (key y.1)) (seen y.1.other x.2)

/-- Each end is a device with its own history. -/
lemma run_node {guard : Link × List (Side × Taken) → Side × Action → Prop}
    {guard' : Device × List Taken → Action → Prop} (e : Side)
    (hg : ∀ x a, guard x (e, a) → guard' ((x.1.node e).device, seen e x.2) a)
    {x : Link × List (Side × Taken)} {tr : List (Side × Event)}
    (run : Run (recorded (step C) takes) guard (new C key start clock, []) tr x) :
    Run (recorded (Device.step C) Device.takes) guard' (.new C (key e) (start e), []) (seen e tr)
      ((x.1.node e).device, seen e x.2) := by
  refine run.invariant (I := fun tr x =>
    Run (recorded (Device.step C) Device.takes) guard' (.new C (key e) (start e), []) (seen e tr)
      ((x.1.node e).device, seen e x.2)) .nil ?_
  rintro tr ⟨l, log⟩ ⟨e', a⟩ ⟨l', log'⟩ evs - ih ok h
  obtain ⟨hstep, rfl⟩ := recorded_eq_some.mp h
  obtain ⟨s, evs', hs, rfl, rfl⟩ := step_eq_some.mp hstep
  by_cases he : e = e'
  · subst he
    have hdev := (Timed.tick_eq_some.mp hs).2.2
    simp only [node_put_self, seen_append, seen_self, takes]
    exact ih.snoc (hg _ _ ok) (recorded_eq_some.mpr ⟨hdev, rfl⟩)
  · simp only [seen_append, takes, seen_of_ne (Ne.symm he), List.append_nil]
    simpa [put, Function.update_of_ne he] using ih

/-- The same without a condition on the steps. -/
lemma run_history {guard : Link × List (Side × Taken) → Side × Action → Prop} (e : Side)
    {x : Link × List (Side × Taken)} {tr : List (Side × Event)}
    (run : Run (recorded (step C) takes) guard (new C key start clock, []) tr x) :
    Run (recorded (Device.step C) Device.takes) (fun _ _ => True) (.new C (key e) (start e), [])
      (seen e tr) ((x.1.node e).device, seen e x.2) :=
  run_node e (fun _ _ _ => trivial) run

/-- What one end has in hand, and what it has opened, was sealed at the other. -/
structure Heard (C : Crypto) (key : Side → Key) (e : Side) (tr : List (Side × Event))
    (x : Link × List (Side × Taken)) : Prop where
  queue : ∀ {packet s data},
    (packet, s) ∈ ((x.1.node e).device.view.peer (C.publicKey (key e.other))).queue →
    s.decryptData C packet = .ok data → (s.receiverKey, packet.counter, data) ∈
      sealedFor (C.publicKey (key e)) (seen e.other x.2)
  opened : openings (C.publicKey (key e.other)) (seen e tr) ⊆
    sealedFor (C.publicKey (key e)) (seen e.other x.2)

/-- In every run with such a network, what an end has opened was sealed at the other. -/
lemma heard (e : Side) {x : Link × List (Side × Taken)} {tr : List (Side × Event)}
    (run : Run (recorded (step C) takes) (Authentic C key) (new C key start clock, []) tr x) :
    Heard C key e tr x := by
  refine run.invariant (I := Heard C key e) ?_ ?_
  · exact ⟨fun hx => (by cases hx), List.nil_subset _⟩
  rintro tr ⟨l, log⟩ ⟨e', a⟩ ⟨l', log'⟩ evs run ih ok h
  obtain ⟨hstep, rfl⟩ := recorded_eq_some.mp h
  obtain ⟨s, evs', hs, rfl, rfl⟩ := step_eq_some.mp hstep
  -- what was sealed stays sealed
  have mono : ∀ {r}, r ∈ sealedFor (C.publicKey (key e)) (seen e.other log) →
      r ∈ sealedFor (C.publicKey (key e)) (seen e.other (log ++ takes l (e', a))) := by
    intro r hr
    rw [seen_append, sealedFor, List.filterMap_append]
    exact List.mem_append_left _ hr
  by_cases he : e = e'
  · subst he
    have hdev := (Timed.tick_eq_some.mp hs).2.2
    have reached : (l.node e).device.Reaches C (key e) (start e) (fun _ _ => True) (seen e tr) :=
      Run.of_recorded (fun _ _ _ => trivial) (run_history e run)
    obtain ⟨hqueue, hopened⟩ := (Device.step_view reached.keyed hdev).1.opens
      (R := (· ∈ sealedFor (C.publicKey (key e)) (seen e.other log))) ih.queue
      fun received parsed found owner decrypted =>
        ok.2 _ _ _ (Device.addressed_of_parse received parsed found) owner decrypted
    refine ⟨fun hx decrypted => mono (hqueue ?_ decrypted), fun r hr => mono ?_⟩
    · simpa using hx
    · rw [seen_append, seen_self, openings, List.filterMap_append] at hr
      exact (List.mem_append.mp hr).elim (ih.opened ·) (hopened r)
  · refine ⟨fun hx decrypted => mono (ih.queue ?_ decrypted), fun r hr => mono (ih.opened ?_)⟩
    · simpa [put, Function.update_of_ne he] using hx
    · rwa [seen_append, seen_of_ne (Ne.symm he), List.append_nil] at hr

/-- **What a tunnel delivers was sent.** Two devices are connected by a network that can drop,
repeat, delay, reorder and make up packets, as long as a data packet that opens under a session
between the two was sealed by the other end, and no data packet has the index of a half-initialised
session, whose keys everybody knows. Then in every run, with fewer than `2 ^ 32` indexes and fresh
keys at one end, what is written to the TUN device of this end for the other is among what the other
end has routed to it, each packet at most once. Other peers and all calls are unrestricted.

**Proof sketch.** What is delivered was opened with a key and a counter; no two openings have both
in common, and for each there is a packet that was sealed at the other end. Those were taken from
the channel there, so they were routed before. -/
theorem delivered_subperm (C : Crypto) (key : Side → Key) (start : Side → UInt32)
    (clock : Side → Instant) {l : Link} {log : List (Side × Taken)} {tr : List (Side × Event)}
    (run : Run (recorded (step C) takes) (Authentic C key) (new C key start clock, []) tr (l, log))
    (e : Side) (hlt : (drawnIndexes (seen e tr)).length < 2 ^ 32)
    (hfresh : FreshReceivers (seen e tr)) :
    (deliveredFrom (C.publicKey (key e.other)) (seen e tr)).Subperm
      (routedTo (C.publicKey (key e)) (seen e.other tr)) := by
  set p := C.publicKey (key e.other)
  set q := C.publicKey (key e)
  have reached : (l.node e).device.Reaches C (key e) (start e) Device.SparesUninit (seen e tr) := by
    have spares (x : Link × List (Side × Taken)) (a : Action) (ok : Authentic C key x (e, a)) :
        (x.1.node e).device.SparesUninit a := ok.1
    exact Run.of_recorded (fun _ _ ok => ok) (run_node e spares run)
  -- what was opened is among what was sealed, and has data
  have hopened : openings p (seen e tr) ⊆
      (sealedFor q (seen e.other log)).filter fun x => x.2.2 ≠ [] := by
    intro r hr
    refine List.mem_filter.mpr ⟨(heard e run).opened hr, ?_⟩
    obtain ⟨ev, -, hev⟩ := List.mem_filterMap.mp hr
    obtain ⟨_, _, b, data, -, rfl⟩ := Event.openedFrom?_eq_some.mp hev
    rfl
  obtain ⟨found, hperm, hsub⟩ := (reached.openings_nodup hlt hfresh p).subperm hopened
  -- what was sealed was routed
  have hrouted : (nonempty ((sealedFor q (seen e.other log)).map fun x => x.2.2)).Sublist
      (routedTo q (seen e.other tr)) := by
    rw [← Device.taken_eq_routedTo (run_history e.other run) q]
    exact ((sealedFor_sublist q _).trans (List.sublist_append_left ..)).filter _
  rw [reached.deliveredFrom_eq p]
  refine ⟨found.map fun x => x.2.2, hperm.map _, (hsub.map _).trans ?_⟩
  rw [nonempty, List.filter_map] at hrouted
  exact hrouted

/-! ### A run -/

/-- What the network does, if the session that a data packet finds is in a slot other than that of
the half-initialised session. -/
def authentic (x : Link × List (Side × Taken)) (y : Side × Action) : Bool :=
  match (x.1.node y.1).device.addressed y.2 with
  | none => true
  | some (packet, s) =>
    ((x.1.node y.1).device.peers (Crypto.sample.publicKey (Sample.keys y.1.other))).any (fun n =>
      n.peer.sessions.next = some s ∨ n.peer.sessions.current = some s) &&
    match s.decryptData .sample packet with
    | .ok data => (s.receiverKey, packet.counter, data) ∈
        sealedFor (Crypto.sample.publicKey (Sample.keys y.1)) (seen y.1.other x.2)
    | .error _ => true

/-- The check is enough. -/
lemma authentic_of_check {x : Link × List (Side × Taken)} {y : Side × Action}
    (hx : (x.1.node y.1).device.IndexExact) (h : authentic x y = true) :
    Authentic .sample Sample.keys x y := by
  have slot : ∀ packet s, (x.1.node y.1).device.addressed y.2 = some (packet, s) →
      ((∃ n k, k ≠ .uninit ∧ (x.1.node y.1).device.peers
          (Crypto.sample.publicKey (Sample.keys y.1.other)) = some n ∧
        n.peer.sessions.get k = some s) ∧
      ∀ data, s.decryptData .sample packet = .ok data → (s.receiverKey, packet.counter, data) ∈
        sealedFor (Crypto.sample.publicKey (Sample.keys y.1)) (seen y.1.other x.2)) := by
    intro packet s ha
    simp only [authentic, ha, Bool.and_eq_true, Option.any_eq_true, decide_eq_true_eq] at h
    obtain ⟨⟨n, hn, hs⟩, hsealed⟩ := h
    refine ⟨?_, fun data hd => ?_⟩
    · rcases hs with hs | hs
      · exact ⟨n, .next, by simp, hn, hs⟩
      · exact ⟨n, .current, by simp, hn, hs⟩
    · rw [hd] at hsealed
      exact of_decide_eq_true hsealed
  refine ⟨fun payload packet s received parsed found p m hm hu => ?_,
    fun packet s data ha _ hd => ?_⟩
  · obtain ⟨⟨n, k, hk, hn, hs⟩, -⟩ :=
      slot packet s (Device.addressed_of_parse received parsed found)
    exact hk (hx.slots hn hs hm (show m.peer.sessions.get .uninit = some s from hu) rfl).2
  · exact (slot packet s ha).2 data hd

/-- The packet that an end has sent last, after a list of actions. -/
private def lastSent (as : List (Side × Action)) (e : Side) : Bytes :=
  match exec (step .sample) (new .sample Sample.keys (fun _ => Sample.start) fun _ => 0) as with
  | some (l, _) => ((l.wire e).getLast?.map Prod.snd).getD []
  | none => []

/-- A step of the handshake, inbound or outbound task of an end. -/
private def task (act : Key → Env → Action) (e : Side) (n : ℕ) : List (Side × Action) :=
  List.replicate n (e, act (Crypto.sample.publicKey (Sample.keys e.other)) (Sample.env 44))

/-- The left device initiates a handshake. -/
private def initiating : List (Side × Action) :=
  [(.left, .insertPeer (Sample.peerConfig .right) 0),
    (.right, .insertPeer (Sample.peerConfig .left) 0)] ++ task .handshake .left 4

/-- The last packet of an end is delivered and handled. -/
private def deliver (as : List (Side × Action)) (e : Side) (n : ℕ) : List (Side × Action) :=
  as ++ (e, .receive Sample.endpoint (lastSent as e.other) (Sample.env 55)) :: task .inbound e n

/-- The handshake is done, and confirmed. -/
private def tunnelUp : List (Side × Action) :=
  deliver (deliver (deliver initiating .right 5) .left 4 ++ task .outbound .left 3) .right 2

/-- A packet goes from left to right. -/
private def oneWay : List (Side × Action) :=
  tunnelUp ++ (.left, Sample.tunRecv) :: task .outbound .left 3

/-- The packet arrives twice. -/
private def repeated : List (Side × Action) :=
  deliver oneWay .right 2 ++
    (.right, .receive Sample.elsewhere (lastSent oneWay .left) (Sample.env 0)) ::
      task .inbound .right 2

/-- The packet is sent once, arrives twice, and is delivered once. -/
theorem delivered_subperm_sample :
    ∃ (l : Link) (log : List (Side × Taken)) (tr : List (Side × Event)),
    Run (recorded (step .sample) takes) (Authentic .sample Sample.keys)
      (new .sample Sample.keys (fun _ => Sample.start) fun _ => 0, []) tr (l, log) ∧
    deliveredFrom (Crypto.sample.publicKey (Sample.keys .left)) (seen .right tr) =
      [Sample.ipPacket [10, 0, 0, 1] [10, 0, 0, 2]] ∧
    (deliveredFrom (Crypto.sample.publicKey (Sample.keys .left)) (seen .right tr)).Subperm
      (routedTo (Crypto.sample.publicKey (Sample.keys .right)) (seen .left tr)) := by
  obtain ⟨⟨l, log⟩, tr, run, check⟩ := exists_run_of_exec
    (checked (recorded (step .sample) takes) authentic) repeated
    (new .sample Sample.keys (fun _ => Sample.start) fun _ => 0, [])
    (fun r => r.2.length < 2 ^ 32 ∧
      deliveredFrom (Crypto.sample.publicKey (Sample.keys .left)) (seen .right r.2) =
        [Sample.ipPacket [10, 0, 0, 1] [10, 0, 0, 2]] ∧
      ((seen .right r.2).filterMap Event.ephemeral?).Nodup ∧
      ∀ x ∈ derivations (seen .right r.2), ∀ y ∈ derivations (seen .right r.2),
        x.1 ≠ y.1 → x.2.receiverKey ≠ y.2.receiverKey) (by decide +kernel)
  obtain ⟨hlen, hdelivered, heph, hderived⟩ := of_decide_eq_true check
  have hdraws : ∀ e {past : List (Side × Event)}, past.length ≤ tr.length →
      (drawnIndexes (seen e past)).length < 2 ^ 32 := by
    intro e past hle
    have h₁ := List.length_filterMap_le Event.drawnIndex? (seen e past)
    have h₂ : (seen e past).length ≤ past.length := by
      rw [seen, List.length_map]
      exact List.length_filter_le ..
    exact ((h₁.trans h₂).trans hle).trans_lt hlen
  have run : Run (recorded (step .sample) takes) (Authentic .sample Sample.keys)
      (new .sample Sample.keys (fun _ => Sample.start) fun _ => 0, []) tr (l, log) := by
    refine run.of_checked.upgrade fun {past x y _ _ _} run ok _ heq => ?_
    have reached : (x.1.node y.1).device.Reaches .sample (Sample.keys y.1) Sample.start
        (fun _ _ => True) (seen y.1 past) :=
      Run.of_recorded (fun _ _ _ => trivial) (run_history y.1 run)
    refine authentic_of_check
      (Device.indexExact_of_lifecycle (reached.lifecycle (hdraws y.1 ?_))) ok
    rw [heq, List.append_assoc, List.length_append]
    exact Nat.le_add_right ..
  exact ⟨l, log, tr, run, hdelivered, delivered_subperm .sample Sample.keys _ _ run .right
    (hdraws .right le_rfl) ⟨heph, hderived⟩⟩

end Link

end Vlink
