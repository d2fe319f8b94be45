import Vlink.Device.System
import Vlink.Device.View

set_option autoImplicit false

/-!
# Replayed data packets

`handle_transport_data` asks the replay filter of the session before it decrypts a packet, and
records the counter after it has written the plaintext to the TUN device. An empty plaintext, a
keepalive, makes it return before the counter is recorded. So the counter of a data packet takes
effect once, and that of a keepalive as often as it is replayed.

## Main definitions

* `Vlink.PeerView.Has` — the sessions that a peer has in hand.
* `Vlink.Filters` — the invariant: the filter of each session remembers the counters of the data it
  has delivered.

## Main results

* `Vlink.Device.Reaches.filters` — the invariant holds in every state.
* `Vlink.Device.passed_once` — in a run without keepalives, a counter that has been authenticated
  passes the filter no more.
* `Vlink.Device.keepalive_replayed` — a keepalive that is replayed moves the endpoint of the peer.
-/

namespace Vlink

/-! ## Cells in use are allocated -/

/-- The peer has the session in a slot, in the hands of a task or with a data packet. -/
def PeerView.Has (v : PeerView) (s : Session) : Prop :=
  (∃ k, v.slots.get k = some s) ∨ v.preparing = some s ∨ v.responding = some s ∨
    v.finalized = some s ∨ ∃ packet, (packet, s) ∈ v.queue

namespace PeerView

variable {C : Crypto} {inp : Option Bytes} {p : Key} {st st' : Store} {v v' : PeerView}
  {evs : List Event} {s : Session}

/-- A peer comes to have a session from the index, or with a new cell.

**Proof sketch.** A peer gets sessions where they are derived, and with packets, for which the index
is asked. -/
lemma Step.has (hstep : PeerView.Step C inp p st v evs st' v') (hs : v'.Has s) :
    v.Has s ∨ (∃ i, st.index.indexes i = some s) ∨
      s.shared = st.heap.size ∧ st.heap.size < st'.heap.size := by
  cases hstep with
  | lose _ slots _ preparing responding finalized queue =>
    refine .inl ?_
    rcases hs with ⟨k, hk⟩ | hs | hs | hs | ⟨packet, hs⟩
    · exact .inl ⟨k, slots ▸ hk⟩
    · exact .inr (.inl (preparing hs))
    · exact .inr (.inr (.inl (responding hs)))
    · exact .inr (.inr (.inr (.inl (finalized hs))))
    · exact .inr (.inr (.inr (.inr ⟨packet, queue _ hs⟩)))
  | initiate _ _ cell =>
    rcases hs with hs | hs | hs
    · exact .inl (.inl hs)
    · cases hs
      exact .inr (.inr ⟨cell, Nat.lt_succ_self _⟩)
    · exact .inl (.inr (.inr hs))
  | prepareUninit held =>
    refine .inl ?_
    rcases hs with ⟨k, hk⟩ | hs | hs
    · cases k with
      | uninit =>
        cases hk
        exact .inr (.inl held)
      | previous => exact .inl ⟨.previous, hk⟩
      | current => exact .inl ⟨.current, hk⟩
      | next => exact .inl ⟨.next, hk⟩
    · cases hs
    · exact .inr (.inr hs)
  | respond _ _ cell =>
    rcases hs with hs | hs | hs | hs
    · exact .inl (.inl hs)
    · exact .inl (.inr (.inl hs))
    · cases hs
      exact .inr (.inr ⟨cell, Nat.lt_succ_self _⟩)
    · exact .inl (.inr (.inr (.inr hs)))
  | prepareNext held =>
    refine .inl ?_
    rcases hs with ⟨k, hk⟩ | hs | hs | hs
    · cases k with
      | uninit => exact .inl ⟨.uninit, hk⟩
      | previous =>
        rcases Option.or_eq_some_iff.mp hk with hk | ⟨-, hk⟩
        · exact .inl ⟨.next, hk⟩
        · exact .inl ⟨.previous, hk⟩
      | current => exact .inl ⟨.current, hk⟩
      | next =>
        cases hk
        exact .inr (.inr (.inl held))
    · exact .inr (.inl hs)
    · cases hs
    · exact .inr (.inr (.inr hs))
  | finalize _ _ cell =>
    rcases hs with hs | hs | hs | hs | hs
    · exact .inl (.inl hs)
    · exact .inl (.inr (.inl hs))
    · exact .inl (.inr (.inr (.inl hs)))
    · cases hs
      exact .inr (.inr ⟨cell, Nat.lt_succ_self _⟩)
    · exact .inl (.inr (.inr (.inr (.inr hs))))
  | completeUninit held =>
    refine .inl ?_
    rcases hs with ⟨k, hk⟩ | hs | hs | hs | hs
    · cases k with
      | uninit => cases hk
      | previous => exact .inl ⟨.current, hk⟩
      | current =>
        cases hk
        exact .inr (.inr (.inr (.inl held)))
      | next => exact .inl ⟨.next, hk⟩
    · exact .inr (.inl hs)
    · exact .inr (.inr (.inl hs))
    · cases hs
    · exact .inr (.inr (.inr (.inr hs)))
  | stage _ _ found =>
    rcases hs with hs | hs | hs | hs | ⟨packet, hs⟩
    · exact .inl (.inl hs)
    · exact .inl (.inr (.inl hs))
    · exact .inl (.inr (.inr (.inl hs)))
    · exact .inl (.inr (.inr (.inr (.inl hs))))
    · rcases List.mem_append.mp hs with hs | hs
      · exact .inl (.inr (.inr (.inr (.inr ⟨packet, hs⟩))))
      · cases List.mem_singleton.mp hs
        exact .inr (.inl ⟨_, found⟩)
  | completeNext held =>
    refine .inl ?_
    rcases hs with ⟨k, hk⟩ | hs
    · cases k with
      | uninit => exact .inl ⟨.uninit, hk⟩
      | previous => exact .inl ⟨.current, hk⟩
      | current =>
        cases hk
        exact .inr (.inr (.inr (.inr ⟨_, held⟩)))
      | next => cases hk
    · exact .inr hs
  | forged handled =>
    exact .inl (hs.imp_right (Or.imp_right (Or.imp_right (Or.imp_right fun ⟨packet, hm⟩ =>
      ⟨packet, by rw [handled]; exact List.mem_cons_of_mem _ hm⟩))))
  | keepalive handled =>
    exact .inl (hs.imp_right (Or.imp_right (Or.imp_right (Or.imp_right fun ⟨packet, hm⟩ =>
      ⟨packet, by rw [handled]; exact List.mem_cons_of_mem _ hm⟩))))
  | deliver handled =>
    exact .inl (hs.imp_right (Or.imp_right (Or.imp_right (Or.imp_right fun ⟨packet, hm⟩ =>
      ⟨packet, by rw [handled]; exact List.mem_cons_of_mem _ hm⟩))))
  | encrypt => exact .inl hs

/-- The index comes to list a session that the peer has. -/
lemma Step.indexes_from (hstep : PeerView.Step C inp p st v evs st' v') {i : UInt32}
    (hs : st'.index.indexes i = some s) : st.index.indexes i = some s ∨ v.Has s := by
  cases hstep with
  | prepareUninit held _ indexes =>
    rw [indexes, Function.update_apply] at hs
    split_ifs at hs
    · cases hs
      exact .inr (.inr (.inl held))
    · exact .inl (ActiveSession.forget_eq_some.mp hs).1
  | prepareNext held _ indexes =>
    rw [indexes, Function.update_apply] at hs
    split_ifs at hs
    · cases hs
      exact .inr (.inr (.inr (.inl held)))
    · exact .inl (ActiveSession.forget_eq_some.mp hs).1
    · exact .inl hs
  | completeUninit held _ _ _ indexes =>
    rw [indexes, ActiveSession.forget_eq_some, Function.update_apply] at hs
    obtain ⟨hs, -⟩ := hs
    split_ifs at hs
    · cases hs
      exact .inr (.inr (.inr (.inr (.inl held))))
    · exact .inl (ActiveSession.forget_eq_some.mp hs).1
  | completeNext held _ _ _ indexes =>
    rw [indexes, Function.update_apply] at hs
    split_ifs at hs
    · cases hs
      exact .inr (.inr (.inr (.inr (.inr ⟨_, held⟩))))
    · rw [ActiveSession.forget_eq_some, ActiveSession.forget_eq_some] at hs
      exact .inl hs.1.1
  | _ => exact .inl hs

/-- Cells are never freed. -/
lemma Step.size_le (hstep : PeerView.Step C inp p st v evs st' v') :
    st.heap.size ≤ st'.heap.size := by
  cases hstep with
  | initiate => exact Nat.le_succ _
  | respond => exact Nat.le_succ _
  | finalize => exact Nat.le_succ _
  | deliver _ _ _ _ accepted => exact (Session.size_aceept accepted).ge
  | _ => exact le_rfl

/-- A data packet of a peer was there before, or is staged for it in this step. -/
lemma Step.queue_from (hstep : PeerView.Step C inp p st v evs st' v')
    {x : TransportData × Session} (hx : x ∈ v'.queue) :
    x ∈ v.queue ∨ (∃ payload, inp = some payload ∧
      Message.parse payload = .ret (.ok (.transportData x.1)) ∧
      st.index.indexes x.1.receiverIndex = some x.2 ∧ x.1.counter.toNat ≤ rejectAfterMessages) ∧
      .staged p x.1 x.2 ∈ evs ∧ x.2.secret.publicKey = p := by
  cases hstep with
  | lose _ _ _ _ _ _ queue => exact .inl (queue x hx)
  | stage received parsed found counter owner =>
    rcases List.mem_append.mp hx with hx | hx
    · exact .inl hx
    · cases List.mem_singleton.mp hx
      exact .inr ⟨⟨_, received, parsed, found, counter⟩, List.mem_singleton_self _, owner⟩
  | forged handled => exact .inl (handled ▸ List.mem_cons_of_mem _ hx)
  | keepalive handled => exact .inl (handled ▸ List.mem_cons_of_mem _ hx)
  | deliver handled => exact .inl (handled ▸ List.mem_cons_of_mem _ hx)
  | _ => exact .inl hx

/-- A packet that is decrypted was in the queue, with its session. -/
lemma Step.opened_from (hstep : PeerView.Step C inp p st v evs st' v') {q : Key} {c : UInt64}
    {data : Bytes} (he : .opened q s c data ∈ evs) :
    ∃ packet, (packet, s) ∈ v.queue ∧ packet.counter = c ∧ s.decryptData C packet = .ok data := by
  cases hstep with
  | lose silent => exact absurd (silent _ he) id
  | keepalive handled _ decrypted =>
    simp only [List.mem_cons, List.not_mem_nil, or_false, reduceCtorEq, false_or,
      Event.opened.injEq] at he
    obtain ⟨-, rfl, rfl, rfl⟩ := he
    exact ⟨_, handled ▸ List.mem_cons_self, rfl, decrypted⟩
  | deliver handled _ _ decrypted =>
    simp only [List.mem_cons, List.not_mem_nil, or_false, reduceCtorEq, false_or,
      Event.opened.injEq] at he
    obtain ⟨-, rfl, rfl, rfl⟩ := he
    exact ⟨_, handled ▸ List.mem_cons_self, rfl, decrypted⟩
  | _ => simp at he

end PeerView

/-! ## What the filters remember -/

/-- The cell and the counter of a packet that was decrypted and was not empty. -/
def Event.taken? : Event → Option (ℕ × ℕ)
  | .opened _ s c (_ :: _) => some (s.shared, c.toNat)
  | _ => none

/-- Which events take a packet in. -/
lemma Event.taken?_eq_some {e : Event} {r c : ℕ} :
    e.taken? = some (r, c) ↔ ∃ p s n b data, e = .opened p s n (b :: data) ∧ s.shared = r ∧
      n.toNat = c := by
  constructor
  · intro h
    unfold taken? at h
    split at h
    · cases h
      exact ⟨_, _, _, _, _, rfl, rfl, rfl⟩
    · cases h
  · rintro ⟨p, s, n, b, data, rfl, rfl, rfl⟩
    rfl

/-- The cell and the counter of a packet that the replay check has let through, and that may have
been decrypted since. -/
def Event.through? : Event → Option (ℕ × ℕ)
  | .passed _ s c _ | .opened _ s c _ => some (s.shared, c.toNat)
  | _ => none

/-- What the replay check lets through is not a repetition of data that was decrypted. -/
def NeverAgain (tr : List Event) : Prop :=
  Historically (fun past e => ∀ x, e.through? = some x → ∀ e' ∈ past, e'.taken? ≠ some x) tr

/-- The filter of each cell remembers the counters of the data it has let through. -/
def Heap.Remembers (heap : Heap) (tr : List Event) : Prop :=
  ∀ r, ∃ acc, (heap.cell r).nonceFilter.Tracks acc ∧
    ∀ {e c}, e ∈ tr → e.taken? = some (r, c) → c ∈ acc

namespace Heap.Remembers

variable {heap heap' : Heap} {tr evs : List Event} {s : Session} {c : UInt64}

/-- New filters remember nothing. -/
lemma empty : Heap.empty.Remembers [] :=
  fun _ => ⟨∅, NonceFilter.tracks_new, fun he => absurd he (by simp)⟩

/-- Other events make no difference. -/
lemma append (h : heap.Remembers tr) (hevs : ∀ e ∈ evs, e.taken? = none) :
    heap.Remembers (tr ++ evs) := by
  intro r
  obtain ⟨acc, ht, hacc⟩ := h r
  refine ⟨acc, ht, fun {e c} he hc => ?_⟩
  rcases List.mem_append.mp he with he | he
  · exact hacc he hc
  · rw [hevs e he] at hc
    cases hc

/-- A new cell has a new filter. -/
lemma alloc (h : heap.Remembers tr)
    (htr : ∀ {e r c}, e ∈ tr → e.taken? = some (r, c) → r < heap.size) :
    heap.alloc.Remembers tr := by
  intro r
  by_cases hr : r = heap.size
  · subst hr
    refine ⟨∅, ?_, fun he hc => absurd (htr he hc) (lt_irrefl _)⟩
    rw [cell_alloc_self]
    exact NonceFilter.tracks_new
  · rw [cell_alloc_of_ne heap hr]
    exact h r

/-- Sealing a packet leaves the filters alone. -/
lemma nextNonce (h : heap.Remembers tr) : (s.nextNonce heap).2.Remembers tr := by
  intro r
  by_cases hr : r = s.shared
  · subst hr
    simpa [Session.nextNonce] using h s.shared
  · simpa [Session.nextNonce, cell_write_of_ne heap _ hr] using h r

/-- The replay check comes back, and turns away the counters of data that was let through. -/
lemma canAccept (h : heap.Remembers tr) (s : Session) (c : UInt64) :
    ∃ b, s.canAccept heap c = .ret b ∧
      (b = true → ∀ e ∈ tr, e.taken? ≠ some (s.shared, c.toNat)) := by
  obtain ⟨acc, ht, hacc⟩ := h s.shared
  obtain ⟨b, hb, hfresh⟩ := ht.canAccept c.toNat
  exact ⟨b, hb, fun htrue e he hc => hfresh htrue (hacc he hc)⟩

/-- A counter that has passed the replay check can be recorded. -/
lemma aceept (h : heap.Remembers tr) (hc : c.toNat ≤ rejectAfterMessages)
    (fresh : s.canAccept heap c = .ret true) :
    ∃ heap', s.aceept heap c = .ret heap' ∧ ∀ evs : List Event,
      (∀ e ∈ evs, ∀ x, e.taken? = some x → x = (s.shared, c.toNat)) →
      heap'.Remembers (tr ++ evs) := by
  obtain ⟨acc, ht, hacc⟩ := h s.shared
  obtain ⟨f, hf, ht'⟩ := ht.accept hc fresh
  refine ⟨heap.write s.shared { heap.cell s.shared with nonceFilter := f },
    by simp [Session.aceept, hf], fun evs hevs r => ?_⟩
  by_cases hr : r = s.shared
  · subst hr
    refine ⟨insert c.toNat acc, by simpa using ht', fun {e n} he hn => ?_⟩
    rcases List.mem_append.mp he with he | he
    · exact Finset.mem_insert_of_mem (hacc he hn)
    · cases hevs e he _ hn
      exact Finset.mem_insert_self ..
  · rw [cell_write_of_ne heap _ hr]
    obtain ⟨acc', ht', hacc'⟩ := h r
    refine ⟨acc', ht', fun {e n} he hn => ?_⟩
    rcases List.mem_append.mp he with he | he
    · exact hacc' he hn
    · cases hevs e he _ hn
      exact absurd rfl hr

end Heap.Remembers

/-- The sessions in use have cells, the filters remember the counters of the data they have let
through, and none of these has passed again. -/
structure Filters (tr : List Event) (v : View) : Prop where
  has : ∀ {p s}, (v.peer p).Has s → s.shared < v.store.heap.size
  index : ∀ {i s}, v.store.index.indexes i = some s → s.shared < v.store.heap.size
  counter : ∀ {p x}, x ∈ (v.peer p).queue → x.1.counter.toNat ≤ rejectAfterMessages
  taken : ∀ {e r c}, e ∈ tr → e.taken? = some (r, c) → r < v.store.heap.size
  remembers : v.store.heap.Remembers tr
  once : NeverAgain tr

namespace Filters

variable {C : Crypto} {inp : Option Bytes} {p : Key} {tr evs : List Event} {v v' : View}
  {st : Store} {pv : PeerView}

/-- Nothing has happened yet. -/
lemma initial (start : UInt32) : Filters [] (Device.initialView start) where
  has hs := by
    simp [Device.initialView, PeerView.Has, PeerView.empty] at hs
  index hs := by cases hs
  counter hx := by cases hx
  taken he := by cases he
  remembers := .empty
  once := historically_nil

/-- A step of a peer keeps what the filters remember. -/
lemma remembers_step (h : Filters tr v)
    (hstep : PeerView.Step C inp p v.store (v.peer p) evs st pv) :
    st.heap.Remembers (tr ++ evs) := by
  cases hstep with
  | lose silent =>
    refine h.remembers.append fun e he => ?_
    cases e with
    | opened => exact absurd (silent _ he) id
    | _ => rfl
  | initiate => exact (h.remembers.alloc h.taken).append (by simp [Event.taken?])
  | respond => exact (h.remembers.alloc h.taken).append (by simp [Event.taken?])
  | finalize => exact (h.remembers.alloc h.taken).append (by simp [Event.taken?])
  | deliver handled fresh _ _ accepted =>
    obtain ⟨heap', hheap, hrem⟩ :=
      h.remembers.aceept (h.counter (handled ▸ List.mem_cons_self)) fresh
    rw [accepted] at hheap
    cases hheap
    refine hrem _ fun e he x hx => ?_
    obtain ⟨q, s, n, b, data, rfl, hs, hn⟩ := Event.taken?_eq_some.mp hx
    simp only [List.mem_cons, List.not_mem_nil, or_false, reduceCtorEq, false_or,
      Event.opened.injEq] at he
    obtain ⟨-, rfl, rfl, -⟩ := he
    exact Prod.ext hs.symm hn.symm
  | encrypt => exact h.remembers.nextNonce.append (by simp [Event.taken?])
  | _ => exact h.remembers.append (by simp [Event.taken?])

/-- What passes in a step had not been taken. -/
lemma once_step (h : Filters tr v) (hstep : PeerView.Step C inp p v.store (v.peer p) evs st pv) :
    NeverAgain (tr ++ evs) := by
  have fresh : ∀ {s : Session} {c : UInt64}, s.canAccept v.store.heap c = .ret true →
      ∀ x, some (s.shared, c.toNat) = some x → ∀ e' ∈ tr, e'.taken? ≠ some x := by
    rintro s c hs x ⟨⟩
    obtain ⟨b, hb, hfresh⟩ := h.remembers.canAccept s c
    rw [hs] at hb
    cases hb
    exact hfresh rfl
  -- the packet that is being handled has passed just before it is decrypted
  have still : ∀ {q : Key} {s : Session} {c : UInt64} {ep : OutboundSender},
      s.canAccept v.store.heap c = .ret true →
      ∀ x, some (s.shared, c.toNat) = some x →
        ∀ e' ∈ tr ++ [.passed q s c ep], e'.taken? ≠ some x := by
    intro q s c ep hs x hx e' he'
    rcases List.mem_append.mp he' with he' | he'
    · exact fresh hs x hx e' he'
    · cases List.mem_singleton.mp he'
      simp [Event.taken?]
  cases hstep with
  | lose silent =>
    refine Historically.append h.once fun past e he x hx => ?_
    cases e with
    | passed => exact absurd (silent _ he) id
    | opened => exact absurd (silent _ he) id
    | _ => cases hx
  | prepareUninit => simpa using h.once
  | prepareNext => simpa using h.once
  | forged _ ok => exact historically_concat.mpr ⟨h.once, fresh ok⟩
  | keepalive _ ok => exact historically_concat₂.mpr ⟨h.once, fresh ok, still ok⟩
  | deliver _ ok =>
    exact historically_concat₃.mpr ⟨h.once, fresh ok, still ok, by simp [Event.through?]⟩
  | _ => exact historically_concat.mpr ⟨h.once, by simp [Event.through?]⟩

/-- A step keeps the invariant. -/
lemma step (h : Filters tr v) (hstep : View.Step C inp v evs v') : Filters (tr ++ evs) v' := by
  obtain @⟨p, st, pv, hpeer⟩ := hstep
  have hle := hpeer.size_le
  refine ⟨fun {q s} hs => ?_, fun {i s} hs => ?_, fun {q x} hx => ?_, fun {e r c} he hc => ?_,
    h.remembers_step hpeer, h.once_step hpeer⟩
  · simp only [Function.update_apply] at hs
    split_ifs at hs
    · rcases hpeer.has hs with hs | ⟨i, hs⟩ | ⟨hnew, hlt⟩
      · exact (h.has hs).trans_le hle
      · exact (h.index hs).trans_le hle
      · exact hnew ▸ hlt
    · exact (h.has hs).trans_le hle
  · rcases hpeer.indexes_from hs with hs | hs
    · exact (h.index hs).trans_le hle
    · exact (h.has hs).trans_le hle
  · simp only [Function.update_apply] at hx
    split_ifs at hx
    · rcases hpeer.queue_from hx with hx | ⟨⟨_, -, -, -, hcount⟩, -⟩
      · exact h.counter hx
      · exact hcount
    · exact h.counter hx
  · rcases List.mem_append.mp he with he | he
    · exact (h.taken he hc).trans_le hle
    · obtain ⟨q, s, n, b, data, rfl, rfl, -⟩ := Event.taken?_eq_some.mp hc
      obtain ⟨packet, hq, -⟩ := hpeer.opened_from he
      exact (h.has (.inr (.inr (.inr (.inr ⟨packet, hq⟩))))).trans_le hle

end Filters

namespace Device

variable {C : Crypto} {privateKey : Key} {start : UInt32} {tr : List Event} {d : Device}

/-- The filters remember the data they have let through in every state. -/
theorem Reaches.filters {guard : Device → Action → Prop}
    (run : d.Reaches C privateKey start guard tr) : Filters tr d.view :=
  (run.view_invariant (.initial start) fun _ h _ _ hstep => h.step hstep).1

/-! ## Runs without keepalives -/

/-- The data packet that is received, with the session that its index is registered for. -/
def addressed (d : Device) (a : Action) : Option (TransportData × Session) :=
  match a.datagram.map Message.parse with
  | some (.ret (.ok (.transportData packet))) =>
    (d.store.index.getByIndex packet.receiverIndex).map (packet, ·)
  | _ => none

/-- The session a packet names. -/
lemma addressed_of_parse {a : Action} {payload : Bytes} {packet : TransportData} {s : Session}
    (received : a.datagram = some payload)
    (parsed : Message.parse payload = .ret (.ok (.transportData packet)))
    (found : d.store.index.indexes packet.receiverIndex = some s) :
    d.addressed a = some (packet, s) := by
  simp [addressed, received, parsed, SessionIndex.getByIndex, found]

/-- The action is not the receipt of a keepalive with the counter `c` for the session with the
cell `r`. -/
def SparesKeepalive (C : Crypto) (r : ℕ) (c : UInt64) (d : Device) (a : Action) : Prop :=
  ∀ x ∈ d.addressed a, x.2.shared = r → x.1.counter = c → x.2.decryptData C x.1 ≠ .ok []

instance (C : Crypto) (r : ℕ) (c : UInt64) (d : Device) (a : Action) :
    Decidable (SparesKeepalive C r c d a) :=
  inferInstanceAs (Decidable (∀ x ∈ d.addressed a, _))

/-- Neither in the queues nor in the past is there a keepalive with the counter `c` for the session
with the cell `r`. -/
structure NoKeepalive (C : Crypto) (r : ℕ) (c : UInt64) (tr : List Event) (v : View) : Prop where
  queue : ∀ {p x}, x ∈ (v.peer p).queue → x.2.shared = r → x.1.counter = c →
    x.2.decryptData C x.1 ≠ .ok []
  opened : ∀ {p s data}, .opened p s c data ∈ tr → s.shared = r → data ≠ []

/-- A run that receives no such keepalive does not come to have one. -/
lemma Reaches.noKeepalive {r : ℕ} {c : UInt64}
    (run : d.Reaches C privateKey start (SparesKeepalive C r c) tr) :
    NoKeepalive C r c tr d.view := by
  refine (run.view_invariant (I := NoKeepalive C r c)
    ⟨fun hx => absurd hx List.not_mem_nil, fun he => absurd he List.not_mem_nil⟩ ?_).1
  intro d tr a d' evs _ h spares _ hstep
  generalize d'.view = v' at hstep
  obtain @⟨p, st, pv, hpeer⟩ := hstep
  refine ⟨fun {q x} hx hr hc => ?_, fun {q s data} he hr => ?_⟩
  · simp only [Function.update_apply] at hx
    split_ifs at hx
    · rcases hpeer.queue_from hx with hx | ⟨⟨payload, received, parsed, found, -⟩, -⟩
      · exact h.queue hx hr hc
      · exact spares x (addressed_of_parse received parsed found) hr hc
    · exact h.queue hx hr hc
  · rcases List.mem_append.mp he with he | he
    · exact h.opened he hr
    · obtain ⟨packet, hq, hc, hd⟩ := hpeer.opened_from he
      rintro rfl
      exact h.queue hq hr hc hd

/-- **An authenticated counter takes effect once.** In every run in which no keepalive with the
counter `c` is received for a session, a packet with this counter that the session has decrypted is
not followed by another one that passes the replay check: the later one is dropped before it can
change the endpoint or be decrypted. -/
theorem passed_once (C : Crypto) (privateKey : Key) (start : UInt32) (r : ℕ) (c : UInt64)
    {tr : List Event} {d : Device}
    (run : d.Reaches C privateKey start (SparesKeepalive C r c) tr) :
    Historically (fun past e => ∀ p s, s.shared = r →
      ((∃ ep, e = .passed p s c ep) ∨ ∃ data, e = .opened p s c data) →
      ∀ q s' data, .opened q s' c data ∈ past → s'.shared ≠ r) tr := by
  rintro past e rest rfl p s hs he q s' data hpast hs'
  have hthrough : e.through? = some (r, c.toNat) := by
    rcases he with ⟨ep, rfl⟩ | ⟨data, rfl⟩ <;> rw [← hs] <;> rfl
  -- the first packet was not empty, so the filter has recorded its counter
  obtain ⟨b, data, rfl⟩ := List.exists_cons_of_ne_nil
    (run.noKeepalive.opened (List.mem_append_left _ hpast) hs')
  exact run.filters.once past e rest rfl _ hthrough _ hpast (by rw [← hs']; rfl)

/-- A data packet of the peer is received, and then again from elsewhere. -/
def replay (data : Bytes) : List Action :=
  Sample.answer ++ [.receive Sample.endpoint (Sample.packet 0 data) (Sample.env 0),
    Sample.inbound, Sample.inbound, .receive Sample.elsewhere (Sample.packet 0 data) (Sample.env 0),
    Sample.inbound, Sample.inbound]

/-- The replayed packet is data: it passes once. -/
theorem passed_once_sample : ∃ (d : Device) (tr : List Event),
    d.Reaches .sample Sample.localKey Sample.start (SparesKeepalive .sample 0 0) tr ∧
      (∃ past rest s, tr = past ++ .opened Sample.remote s 0 [1, 2, 3] :: rest ∧ s.shared = 0) ∧
      Historically (fun past e => ∀ p s, s.shared = 0 →
        ((∃ ep, e = .passed p s 0 ep) ∨ ∃ data, e = .opened p s 0 data) →
        ∀ q s' data, .opened q s' 0 data ∈ past → s'.shared ≠ 0) tr := by
  obtain ⟨d, tr, run, check⟩ := exists_run_of_exec
    (checked (step .sample) fun d a => decide (SparesKeepalive .sample 0 0 d a))
    (replay [1, 2, 3]) Sample.device
    (fun r => r.2.any fun
      | .opened p s c data => p = Sample.remote ∧ s.shared = 0 ∧ c = 0 ∧ data = [1, 2, 3]
      | _ => false)
    (by decide +kernel)
  have spares : d.Reaches .sample Sample.localKey Sample.start (SparesKeepalive .sample 0 0) tr :=
    run.of_checked.mono fun _ _ => of_decide_eq_true
  refine ⟨d, tr, spares, ?_, passed_once _ _ _ _ _ spares⟩
  obtain ⟨e, he, hopened⟩ := List.any_eq_true.mp check
  obtain ⟨past, rest, htr⟩ := List.append_of_mem he
  cases e with
  | opened p s c data =>
    obtain ⟨rfl, hs, rfl, rfl⟩ := of_decide_eq_true hopened
    exact ⟨past, rest, s, htr, hs⟩
  | _ => cases hopened

/-- The outcome of a run in which a keepalive that was decrypted passes once more, and the endpoint
of the peer is elsewhere. -/
def endpointMoved (r : Device × List Event) : Bool :=
  match r.2, r.1.peers Sample.remote with
  | [_, _, _, _, _, .opened p s c data, _, .passed p' s' c' ep, _], some n =>
    p = Sample.remote ∧ c = 0 ∧ data = [] ∧ p' = p ∧ s' = s ∧ c' = c ∧ ep = Sample.elsewhere ∧
      n.peer.endpoint = some Sample.elsewhere
  | _, _ => false

/-- **A keepalive takes effect again.** The peer sends a keepalive; an attacker sends it once more
from elsewhere, and the endpoint of the peer is set to where the attacker is. -/
theorem keepalive_replayed : ∃ (d : Device) (tr : List Event) (n : PeerNode) (s : Session),
    d.Reaches .sample Sample.localKey Sample.start (fun _ _ => True) tr ∧
      (∃ past rest, tr = past ++ .passed Sample.remote s 0 Sample.elsewhere :: rest ∧
        .opened Sample.remote s 0 [] ∈ past) ∧
      d.peers Sample.remote = some n ∧ n.peer.endpoint = some Sample.elsewhere := by
  obtain ⟨d, tr, run, check⟩ := exists_run_of_exec (step .sample) (replay []) Sample.device
    endpointMoved (by decide +kernel)
  simp only [endpointMoved] at check
  split at check
  case h_1 e₀ e₁ e₂ e₃ e₄ p s c data e₆ p' s' c' ep e₈ n hn =>
    obtain ⟨rfl, rfl, rfl, rfl, rfl, rfl, rfl, hep⟩ := of_decide_eq_true check
    exact ⟨d, _, n, s', run,
      ⟨[e₀, e₁, e₂, e₃, e₄, .opened _ s' 0 [], e₆], [e₈], rfl, by simp⟩, hn, hep⟩
  case h_2 => cases check

end Device

end Vlink
