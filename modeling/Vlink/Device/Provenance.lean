import Vlink.Device.System
import Vlink.Device.View

set_option autoImplicit false

/-!
# Where the keys of delivered data come from

`initiate` registers a session whose keys are all zero, so that the response can find it; the
index does not tell such a session apart from one whose keys were derived. A data packet that is
addressed to it is decrypted under the zero key and delivered. If no data packet is addressed to
a half-initialised session, everything delivered was decrypted by a session that `respond` or
`finalize` derived.

## Main definitions

* `Vlink.Derived` — a session that `respond` or `finalize` returned.
* `Vlink.Device.SparesUninit` — the datagram is not a data packet for a half-initialised session.

## Main results

* `Vlink.Device.tunSend_derived` — in every run without such packets, what is passed to the TUN
  device was decrypted by a derived session.
* `Vlink.Device.tunSend_placeholder` — a run in which an attacker delivers data under the zero
  key.
-/

namespace Vlink

/-- The session that `respond` or `finalize` returned. -/
def Event.derived? : Event → Option Session
  | .responded _ _ _ s | .finalized _ _ s => some s
  | _ => none

/-- The session was returned by `respond` or by `finalize`. -/
def Derived (tr : List Event) (s : Session) : Prop := ∃ e ∈ tr, e.derived? = some s

instance (tr : List Event) (s : Session) : Decidable (Derived tr s) :=
  inferInstanceAs (Decidable (∃ e ∈ tr, e.derived? = some s))

/-- More events change nothing. -/
lemma Derived.append {tr : List Event} {s : Session} (h : Derived tr s) (evs : List Event) :
    Derived (tr ++ evs) s := by
  obtain ⟨e, he, hs⟩ := h
  exact ⟨e, List.mem_append_left _ he, hs⟩

/-- Whatever is passed to the TUN device was decrypted by a session that had been derived. -/
def DeliversDerived (tr : List Event) : Prop :=
  Historically (fun past e => ∀ p s data, e = .tunSend p s data → Derived past s) tr

/-! ## The sessions of a peer -/

/-- All sessions of a peer but the half-initialised one are derived. -/
structure PeerView.AllDerived (D : Session → Prop) (v : PeerView) : Prop where
  slots : ∀ {k s}, k ≠ .uninit → v.slots.get k = some s → D s
  responding : ∀ {s}, v.responding = some s → D s
  finalized : ∀ {s}, v.finalized = some s → D s
  queue : ∀ {x}, x ∈ v.queue → D x.2

namespace PeerView

variable {C : Crypto} {inp : Option Bytes} {p : Key} {st st' : Store} {v v' : PeerView}
  {tr evs : List Event}

/-- A weaker condition holds too. -/
lemma AllDerived.mono {D D' : Session → Prop} (h : v.AllDerived D) (hD : ∀ s, D s → D' s) :
    v.AllDerived D' :=
  ⟨fun hk hs => hD _ (h.slots hk hs), fun hs => hD _ (h.responding hs),
    fun hs => hD _ (h.finalized hs), fun hx => hD _ (h.queue hx)⟩

/-- A step keeps the sessions of a peer derived, if the data packet it handles is addressed to a
derived session.

**Proof sketch.** A session gets to a peer when it is derived, or with a packet that is addressed to
it. All other sections pass on what the peer has. -/
lemma AllDerived.step (h : v.AllDerived (Derived tr))
    (haddr : ∀ payload packet s, inp = some payload →
      Message.parse payload = .ret (.ok (.transportData packet)) →
      st.index.indexes packet.receiverIndex = some s → Derived tr s)
    (hstep : PeerView.Step C inp p st v evs st' v') : v'.AllDerived (Derived (tr ++ evs)) := by
  have h' : v.AllDerived (Derived (tr ++ evs)) := h.mono fun s hs => hs.append evs
  cases hstep with
  | lose _ slots _ _ responding finalized queue =>
    exact ⟨fun hk hs => h'.slots hk (slots ▸ hs), fun hs => h'.responding (responding hs),
      fun hs => h'.finalized (finalized hs), fun hx => h'.queue (queue _ hx)⟩
  | initiate => exact { h' with }
  | prepareUninit =>
    refine { h' with slots := fun {k s} hk hs => h'.slots hk ?_ }
    cases k with
    | uninit => exact absurd rfl hk
    | _ => exact hs
  | respond =>
    refine { h' with responding := fun hs => ?_ }
    cases hs
    exact ⟨_, List.mem_append_right _ (List.mem_singleton_self _), rfl⟩
  | prepareNext held =>
    refine { h' with slots := fun {k s} hk hs => ?_, responding := fun hs => by cases hs }
    cases k with
    | uninit => exact absurd rfl hk
    | previous =>
      rcases Option.or_eq_some_iff.mp hs with hn | ⟨-, hp⟩
      · exact h'.slots (k := .next) (by simp) hn
      · exact h'.slots (k := .previous) (by simp) hp
    | current => exact h'.slots hk hs
    | next =>
      cases hs
      exact h'.responding held
  | finalize =>
    refine { h' with finalized := fun hs => ?_ }
    cases hs
    exact ⟨_, List.mem_append_right _ (List.mem_singleton_self _), rfl⟩
  | completeUninit held =>
    refine { h' with slots := fun {k s} hk hs => ?_, finalized := fun hs => by cases hs }
    cases k with
    | uninit => exact absurd rfl hk
    | previous => exact h'.slots (k := .current) (by simp) hs
    | current =>
      cases hs
      exact h'.finalized held
    | next => exact h'.slots hk hs
  | stage received parsed found =>
    refine { h' with queue := fun hx => ?_ }
    rcases List.mem_append.mp hx with hx | hx
    · exact h'.queue hx
    · cases List.mem_singleton.mp hx
      exact (haddr _ _ _ received parsed found).append _
  | completeNext held =>
    refine { h' with slots := fun {k s} hk hs => ?_ }
    cases k with
    | uninit => exact absurd rfl hk
    | previous => exact h'.slots (k := .current) (by simp) hs
    | current =>
      cases hs
      exact h'.queue held
    | next => cases hs
  | forged handled => exact { h' with queue := fun hx => h'.queue (by simp [handled, hx]) }
  | keepalive handled => exact { h' with queue := fun hx => h'.queue (by simp [handled, hx]) }
  | deliver handled => exact { h' with queue := fun hx => h'.queue (by simp [handled, hx]) }
  | encrypt => exact h'

/-- After a step, an entry of the index is a derived session, or the half-initialised session of
the peer, or was there before and is still half-initialised if it was. -/
lemma Step.indexed (h : v.AllDerived (Derived tr)) (hstep : PeerView.Step C inp p st v evs st' v')
    {i : UInt32} {s : Session} (hs : st'.index.indexes i = some s) :
    Derived (tr ++ evs) s ∨ v'.slots.uninit = some s ∨
      st.index.indexes i = some s ∧ (v.slots.uninit = some s → v'.slots.uninit = some s) := by
  cases hstep with
  | lose _ slots => exact .inr (.inr ⟨hs, fun hu => slots ▸ hu⟩)
  | initiate => exact .inr (.inr ⟨hs, id⟩)
  | prepareUninit held _ indexes =>
    rw [indexes, Function.update_apply] at hs
    split_ifs at hs
    · cases hs
      exact .inr (.inl rfl)
    · obtain ⟨hs, hne⟩ := ActiveSession.forget_eq_some.mp hs
      exact .inr (.inr ⟨hs, fun hu => absurd (st.index.recorded hs).1 (hne s hu)⟩)
  | respond => exact .inr (.inr ⟨hs, id⟩)
  | prepareNext held _ indexes =>
    rw [indexes, Function.update_apply] at hs
    split_ifs at hs
    · cases hs
      exact .inl ((h.responding held).append _)
    · exact .inr (.inr ⟨(ActiveSession.forget_eq_some.mp hs).1, id⟩)
    · exact .inr (.inr ⟨hs, id⟩)
  | finalize => exact .inr (.inr ⟨hs, id⟩)
  | completeUninit held uninit same _ indexes =>
    rw [indexes, ActiveSession.forget_eq_some, Function.update_apply] at hs
    obtain ⟨hs, -⟩ := hs
    split_ifs at hs with hi
    · cases hs
      exact .inl ((h.finalized held).append _)
    · -- the entry of the half-initialised session has been replaced
      obtain ⟨hs, hne⟩ := ActiveSession.forget_eq_some.mp hs
      refine .inr (.inr ⟨hs, fun hu => ?_⟩)
      rw [uninit] at hu
      exact absurd (st.index.recorded hs).1 (hne s hu)
  | stage => exact .inr (.inr ⟨hs, id⟩)
  | completeNext held _ _ _ indexes =>
    rw [indexes, Function.update_apply] at hs
    split_ifs at hs
    · cases hs
      exact .inl ((h.queue held).append _)
    · rw [ActiveSession.forget_eq_some, ActiveSession.forget_eq_some] at hs
      exact .inr (.inr ⟨hs.1.1, id⟩)
  | forged => exact .inr (.inr ⟨hs, id⟩)
  | keepalive => exact .inr (.inr ⟨hs, id⟩)
  | deliver => exact .inr (.inr ⟨hs, id⟩)
  | encrypt => exact .inr (.inr ⟨hs, id⟩)

/-- Only `initiate` brings a half-initialised session. -/
lemma Step.passive (hstep : PeerView.Step C inp p st v evs st' v')
    (hno : ∀ q e s, .initiated q e s ∉ evs) (h : v.slots.uninit = none ∧ v.preparing = none) :
    v'.slots.uninit = none ∧ v'.preparing = none := by
  cases hstep with
  | lose _ slots _ preparing =>
    refine ⟨slots ▸ h.1, Option.eq_none_iff_forall_ne_some.mpr fun s hs => ?_⟩
    exact absurd (h.2.symm.trans (preparing hs)) (by simp)
  | initiate => exact absurd (List.mem_singleton_self _) (hno _ _ _)
  | prepareUninit held => exact absurd (h.2.symm.trans held) (by simp)
  | completeUninit => exact ⟨rfl, h.2⟩
  | _ => exact h

/-- What a step of a peer delivers was decrypted by a derived session. -/
lemma Step.delivers (h : v.AllDerived (Derived tr)) (ht : DeliversDerived tr)
    (hstep : PeerView.Step C inp p st v evs st' v') : DeliversDerived (tr ++ evs) :=
  hstep.historically_tunSend (fun opened hmem _ _ => (h.queue hmem).append opened) ht

end PeerView

/-! ## The sessions of a device -/

/-- Apart from half-initialised sessions, which only the index and their own slots hold, all
sessions are derived, and so was everything that decrypted data. -/
structure Provenance (tr : List Event) (v : View) : Prop where
  peers : ∀ p, (v.peer p).AllDerived (Derived tr)
  index : ∀ {i s}, v.store.index.indexes i = some s →
    Derived tr s ∨ ∃ p, (v.peer p).slots.uninit = some s
  delivered : DeliversDerived tr

/-- Nothing has happened yet. -/
lemma provenance_initial (start : UInt32) : Provenance [] (Device.initialView start) where
  peers p :=
    { slots := fun _ hs => by simp [Device.initialView, PeerView.empty] at hs
      responding := fun hs => by cases hs
      finalized := fun hs => by cases hs
      queue := fun hx => by cases hx }
  index hs := by cases hs
  delivered := historically_nil

/-- The datagram is not a data packet for a half-initialised session. -/
def View.SparesUninit (v : View) (inp : Option Bytes) : Prop :=
  ∀ payload packet s, inp = some payload →
    Message.parse payload = .ret (.ok (.transportData packet)) →
    v.store.index.getByIndex packet.receiverIndex = some s →
    ∀ p, (v.peer p).slots.uninit ≠ some s

/-- A step of a view keeps the provenance, if it spares half-initialised sessions. -/
lemma Provenance.step {C : Crypto} {inp : Option Bytes} {tr evs : List Event} {v v' : View}
    (h : Provenance tr v) (hspares : v.SparesUninit inp) (hstep : View.Step C inp v evs v') :
    Provenance (tr ++ evs) v' := by
  obtain @⟨p, st, pv, hstep⟩ := hstep
  have haddr : ∀ payload packet s, inp = some payload →
      Message.parse payload = .ret (.ok (.transportData packet)) →
      v.store.index.indexes packet.receiverIndex = some s → Derived tr s := by
    intro payload packet s received parsed found
    rcases h.index found with hd | ⟨q, hu⟩
    · exact hd
    · exact absurd hu (hspares payload packet s received parsed found q)
  refine ⟨fun q => ?_, fun {i s} hs => ?_, hstep.delivers (h.peers p) h.delivered⟩
  · simp only [Function.update_apply]
    split_ifs
    · exact (h.peers p).step haddr hstep
    · exact (h.peers q).mono fun s hs => hs.append evs
  · rcases hstep.indexed (h.peers p) hs with hd | hu | ⟨hold, hkeep⟩
    · exact .inl hd
    · exact .inr ⟨p, by simpa using hu⟩
    · rcases h.index hold with hd | ⟨q, hq⟩
      · exact .inl (hd.append evs)
      · refine .inr ⟨q, ?_⟩
        simp only [Function.update_apply]
        split_ifs with hqp
        · subst hqp
          exact hkeep hq
        · exact hq

namespace Device

/-- The action is not the receipt of a data packet whose `receiver_index` is that of a
half-initialised session. -/
def SparesUninit (d : Device) (a : Action) : Prop :=
  ∀ payload packet s, a.datagram = some payload →
    Message.parse payload = .ret (.ok (.transportData packet)) →
    d.store.index.getByIndex packet.receiverIndex = some s →
    ∀ p n, d.peers p = some n → n.peer.sessions.uninit ≠ some s

/-- The condition in the view. -/
lemma SparesUninit.view {d : Device} {a : Action} (h : d.SparesUninit a) :
    d.view.SparesUninit a.datagram := by
  intro payload packet s received parsed found p hu
  cases hp : d.peers p with
  | none => simp [Device.view, hp, PeerView.empty, ActiveSession.new] at hu
  | some n =>
    exact h payload packet s received parsed found p n hp (by rwa [view_peer_some hp] at hu)

/-- In a run without an initiation there is no half-initialised session to spare. -/
lemma Reaches.sparesUninit {C : Crypto} {privateKey : Key} {start : UInt32} {tr : List Event}
    {d : Device} (run : d.Reaches C privateKey start (fun _ _ => True) tr)
    (hpassive : ∀ p e s, .initiated p e s ∉ tr) :
    d.Reaches C privateKey start SparesUninit tr := by
  let Passive (tr : List Event) (d : Device) : Prop :=
    (∀ p, (d.view.peer p).slots.uninit = none ∧ (d.view.peer p).preparing = none) ∧
      d.Reaches C privateKey start SparesUninit tr
  have inv : d.Keyed ∧ ((∀ p e s, .initiated p e s ∉ tr) → Passive tr d) := by
    refine Run.invariant (I := fun tr d => d.Keyed ∧ ((∀ p e s, .initiated p e s ∉ tr) →
      Passive tr d)) ⟨by rintro p n ⟨⟩, fun _ => ⟨fun p => ⟨rfl, rfl⟩, .nil⟩⟩ ?_ run
    rintro tr d a d' evs - ⟨hk, ih⟩ - h
    obtain ⟨hstep, hk'⟩ := step_view hk h
    refine ⟨hk', fun hno => ?_⟩
    obtain ⟨hnone, run⟩ := ih fun p e s hm => hno p e s (List.mem_append_left _ hm)
    have hspares : d.SparesUninit a := by
      intro payload packet s _ _ _ p n hp hu
      have hn := (hnone p).1
      rw [view_peer_some hp] at hn
      exact absurd (hn.symm.trans hu) (by simp)
    refine ⟨fun p => ?_, run.snoc hspares h⟩
    generalize d'.view = v' at hstep
    obtain ⟨hpeer⟩ := hstep
    simp only [Function.update_apply]
    split_ifs
    · exact hpeer.passive (fun q e s hm => hno q e s (List.mem_append_right _ hm)) (hnone _)
    · exact hnone p
  exact (inv.2 hpassive).2

/-- **Only derived keys deliver data.** In every run of a device in which no data packet is
addressed to a half-initialised session, whatever is passed to the TUN device was decrypted by a
session that `respond` or `finalize` had returned. -/
theorem tunSend_derived (C : Crypto) (privateKey : Key) (start : UInt32) {tr : List Event}
    {d : Device} (run : d.Reaches C privateKey start SparesUninit tr) :
    Historically (fun past e => ∀ p s data, e = .tunSend p s data → Derived past s) tr := by
  have inv : Provenance tr d.view ∧ d.Keyed :=
    run.view_invariant (provenance_initial start) fun _ h ok _ hstep => h.step ok.view hstep
  exact inv.1.delivered

/-- A run that delivers a packet of the peer: the session was derived by `respond`. -/
theorem tunSend_derived_sample : ∃ (d : Device) (tr : List Event),
    d.Reaches .sample Sample.localKey Sample.start SparesUninit tr ∧
      (∃ s, .tunSend Sample.remote s [1, 2, 3] ∈ tr) ∧
      Historically (fun past e => ∀ p s data, e = .tunSend p s data → Derived past s) tr := by
  obtain ⟨d, tr, run, check⟩ := exists_run_of_exec (step .sample)
    (Sample.answer ++ [.receive Sample.endpoint (Sample.packet 0 [1, 2, 3]) (Sample.env 0),
      Sample.inbound, Sample.inbound]) Sample.device
    (fun r => (r.2.all fun
      | .initiated _ _ _ => false
      | _ => true) && r.2.any fun
      | .tunSend p _ data => p = Sample.remote ∧ data = [1, 2, 3]
      | _ => false)
    (by decide +kernel)
  obtain ⟨hno, hsend⟩ := Bool.and_eq_true_iff.mp check
  have spares := Reaches.sparesUninit run fun p e s hm => by
    simpa using List.all_eq_true.mp hno _ hm
  obtain ⟨e, he, hsend⟩ := List.any_eq_true.mp hsend
  refine ⟨d, tr, spares, ?_, tunSend_derived _ _ _ spares⟩
  cases e with
  | tunSend p s data =>
    obtain ⟨rfl, rfl⟩ := of_decide_eq_true hsend
    exact ⟨s, he⟩
  | _ => cases hsend

/-- A packet that an attacker seals with the key that is all zero. -/
def placeholderPacket : TransportData :=
  ⟨Sample.start, 0, Crypto.sealed (Block.zero 32) (counterNonce 0) [1, 2, 3] []⟩

/-- **Data is delivered under the zero key.** The device initiates a handshake; before any response
arrives, an attacker sends a packet to the index that the initiation has shown. -/
theorem tunSend_placeholder : ∃ (d : Device) (tr : List Event),
    d.Reaches .sample Sample.localKey Sample.start (fun _ _ => True) tr ∧
      .tunSend Sample.remote Sample.placeholder [1, 2, 3] ∈ tr ∧
      ¬ Derived tr Sample.placeholder := by
  obtain ⟨d, tr, run, check⟩ := exists_run_of_exec (step .sample)
    (Sample.initiate ++ [Sample.handshake,
      .receive Sample.elsewhere placeholderPacket.toBytes (Sample.env 0),
      Sample.inbound, Sample.inbound]) Sample.device
    (fun r => .tunSend Sample.remote Sample.placeholder [1, 2, 3] ∈ r.2 ∧
      ¬ Derived r.2 Sample.placeholder)
    (by decide +kernel)
  exact ⟨d, tr, run, of_decide_eq_true check⟩

end Device

end Vlink
