import Vlink.Device.Rounds
import Vlink.Device.System

set_option autoImplicit false

/-!
# Keys and nonces of current sessions

`finalize` leaves the state of the handshake as it is, so a response that is replayed is finalized
again, into a session with the same keys and a send counter that starts again at zero. Only the
index of the half-initialised session keeps such a session from becoming current. As long as the
counter of indexes has not gone round, a session becomes current at most once for an index, so no
two calls of `encrypt_data` use the same key and nonce. When the counter has gone round, they can.

## Main definitions

* `Vlink.FreshKeys` — fresh ephemeral keys give distinct derived keys.
* `Vlink.sealCount` — how often a session has encrypted.
* `Vlink.Installs`, `Vlink.Sealing` — the invariants of views.

## Main results

* `Vlink.Device.nonces_unique` — with fewer than `2 ^ 32` draws of an index, keys become current
  once, a session that was current does not come back, and nonces are not reused.
-/

namespace Vlink

/-! ## Which sessions become current -/

/-- The index of the session that became current. -/
def Event.installedIndex? : Event → Option UInt32
  | .installed _ s => some s.senderIndex
  | _ => none

/-- The places from which a session, or one with its index, can become current. -/
def Place.Pending : Place → Prop
  | .slot .uninit | .slot .next | .preparing | .responding => True
  | .slot .previous | .slot .current => False

/-- For each index, at most one session becomes current. -/
structure Installs (tr : List Event) (v : View) : Prop where
  nodup : (tr.filterMap Event.installedIndex?).Nodup
  settled : ∀ {p s}, .installed p s ∈ tr → Settled tr s
  current : ∀ {p s}, (v.peer p).slots.current = some s → .installed p s ∈ tr
  /-- An index that was used is not about to be used again. -/
  pending : ∀ {q s'}, .installed q s' ∈ tr → ∀ {p x s}, x.Pending →
    v.places (p, x) = some s → s.senderIndex ≠ s'.senderIndex

namespace Installs

variable {C : Crypto} {inp : Option Bytes} {start : UInt32} {tr evs : List Event} {v v' : View}
  {p : Key} {st : Store} {pv : PeerView}

/-- A session that is pending after a step was pending before, or its index is new. -/
lemma pending_from (hstep : PeerView.Step C inp p v.store (v.peer p) evs st pv) {x : Place}
    {s : Session} (hx : x.Pending) (hs : pv.at x = some s) :
    (∃ y : Place, y.Pending ∧ (v.peer p).at y = some s) ∨ s.senderIndex = v.store.index.index := by
  cases hstep with
  | lose _ slots _ preparing responding =>
    refine .inl ⟨x, hx, ?_⟩
    cases x with
    | slot k =>
      rw [PeerView.at, slots] at hs
      exact hs
    | preparing => exact preparing hs
    | responding => exact responding hs
  | initiate _ index =>
    cases x with
    | preparing =>
      cases hs
      exact .inr index
    | _ => exact .inl ⟨_, hx, hs⟩
  | prepareUninit held =>
    cases x with
    | slot k =>
      cases k with
      | uninit =>
        cases hs
        exact .inl ⟨.preparing, trivial, held⟩
      | _ => exact .inl ⟨_, hx, hs⟩
    | preparing => cases hs
    | responding => exact .inl ⟨_, hx, hs⟩
  | respond _ index =>
    cases x with
    | responding =>
      cases hs
      exact .inr index
    | _ => exact .inl ⟨_, hx, hs⟩
  | prepareNext held =>
    cases x with
    | slot k =>
      cases k with
      | next =>
        cases hs
        exact .inl ⟨.responding, trivial, held⟩
      | previous => exact hx.elim
      | _ => exact .inl ⟨_, hx, hs⟩
    | preparing => exact .inl ⟨_, hx, hs⟩
    | responding => cases hs
  | completeUninit =>
    cases x with
    | slot k =>
      cases k with
      | uninit => cases hs
      | next => exact .inl ⟨_, hx, hs⟩
      | _ => exact hx.elim
    | _ => exact .inl ⟨_, hx, hs⟩
  | completeNext =>
    cases x with
    | slot k =>
      cases k with
      | next => cases hs
      | uninit => exact .inl ⟨_, hx, hs⟩
      | _ => exact hx.elim
    | _ => exact .inl ⟨_, hx, hs⟩
  | _ => exact .inl ⟨x, hx, hs⟩

/-- A session is current after a step if it was before, or if the step has made it so. -/
lemma current_from (hstep : PeerView.Step C inp p v.store (v.peer p) evs st pv) {s : Session}
    (hs : pv.slots.current = some s) :
    (v.peer p).slots.current = some s ∨ evs = [.installed p s] := by
  cases hstep with
  | lose _ slots => exact .inl (slots ▸ hs)
  | completeUninit =>
    cases hs
    exact .inr rfl
  | completeNext =>
    cases hs
    exact .inr rfl
  | _ => exact .inl hs

/-- A step that makes no session current. -/
lemma keep (h : Installs tr v) (L : Lifecycle start tr v)
    (hlt : (drawnIndexes tr).length < 2 ^ 32)
    (hstep : PeerView.Step C inp p v.store (v.peer p) evs st pv)
    (hevs : ∀ e ∈ evs, e.installedIndex? = none)
    (hcur : pv.slots.current = (v.peer p).slots.current) :
    Installs (tr ++ evs) ⟨st, Function.update v.peer p pv⟩ := by
  have old : ∀ {q s}, .installed q s ∈ tr ++ evs → .installed q s ∈ tr := by
    intro q s hm
    rcases List.mem_append.mp hm with hm | hm
    · exact hm
    · exact absurd (hevs _ hm) (by simp [Event.installedIndex?])
  refine ⟨?_, fun hm => (h.settled (old hm)).append evs, fun {q s} hs => ?_,
    fun {q s'} hm {r x s} hx hs => ?_⟩
  · rw [List.filterMap_append, List.filterMap_eq_nil_iff.mpr hevs, List.append_nil]
    exact h.nodup
  · refine List.mem_append_left _ ?_
    simp only [Function.update_apply] at hs
    split_ifs at hs with hq
    · subst hq
      rw [hcur] at hs
      exact h.current hs
    · exact h.current hs
  · simp only [View.places, Function.update_apply] at hs
    split_ifs at hs with hr
    · rcases pending_from hstep hx hs with ⟨y, hy, hs⟩ | hnew
      · exact h.pending (old hm) (p := p) hy hs
      · -- the index that was used had been drawn
        have used : s'.senderIndex ∈ drawnIndexes tr := Known.drawn (.inr (h.settled (old hm)))
        intro heq
        rw [← heq, hnew] at used
        exact L.numbered.index_not_mem hlt used
    · exact h.pending (old hm) hx hs

/-- A step that makes a session current, in place of one that was pending with its index. -/
lemma add (h : Installs tr v) (L : Lifecycle start tr v) {y : Place} {u s : Session}
    (hy : y.Pending) (hu : (v.peer p).at y = some u) (hi : u.senderIndex = s.senderIndex)
    (hs : Settled tr s) (hcur : pv.slots.current = some s)
    (hrest : ∀ x s', x.Pending → pv.at x = some s' → x ≠ y ∧ (v.peer p).at x = some s') :
    Installs (tr ++ [.installed p s]) ⟨st, Function.update v.peer p pv⟩ := by
  refine ⟨?_, fun {q s'} hm => ?_, fun {q s'} hs' => ?_, fun {q s'} hm {r x s''} hx hs'' => ?_⟩
  · rw [List.filterMap_append]
    refine List.nodup_append.mpr ⟨h.nodup, by simp [Event.installedIndex?], ?_⟩
    rintro i hold j hnew rfl
    obtain ⟨e, he, hidx⟩ := List.mem_filterMap.mp hold
    cases e <;> cases hidx
    have hne := h.pending he (p := p) hy hu
    simp [Event.installedIndex?] at hnew
    exact hne (hi.trans hnew.symm)
  · rcases List.mem_append.mp hm with hm | hm
    · exact (h.settled hm).append _
    · cases List.mem_singleton.mp hm
      exact hs.append _
  · simp only [Function.update_apply] at hs'
    split_ifs at hs' with hq
    · subst hq
      rw [hcur] at hs'
      cases hs'
      simp
    · exact List.mem_append_left _ (h.current hs')
  · -- where the pending session was before the step
    have before : v.places (r, x) = some s'' ∧ (r, x) ≠ (p, y) := by
      simp only [View.places, Function.update_apply] at hs''
      split_ifs at hs'' with hr
      · subst hr
        obtain ⟨hne, hat⟩ := hrest x s'' hx hs''
        exact ⟨hat, by simpa using hne⟩
      · exact ⟨hs'', by simp [hr]⟩
    rcases List.mem_append.mp hm with hm | hm
    · exact h.pending hm hx before.1
    · cases List.mem_singleton.mp hm
      intro heq
      exact before.2 (L.registry.place_unique before.1 hu (heq.trans hi.symm))

/-- A step keeps the sessions that become current apart. -/
lemma step (h : Installs tr v) (L : Lifecycle start tr v)
    (hlt : (drawnIndexes tr).length < 2 ^ 32) (hstep : View.Step C inp v evs v') :
    Installs (tr ++ evs) v' := by
  obtain @⟨p, st, pv, hpeer⟩ := hstep
  have hpeer' := hpeer
  cases hpeer with
  | completeUninit held uninit same =>
    refine h.add L (y := .slot .uninit) trivial uninit same
      (.inr ⟨p, (L.born p).finalized held⟩) rfl fun x s' hx hs => ?_
    cases x with
    | slot k =>
      cases k with
      | uninit => cases hs
      | next => exact ⟨by simp, hs⟩
      | _ => exact hx.elim
    | _ => exact ⟨by simp, hs⟩
  | completeNext held next same =>
    have responded := (L.born p).next next
    rw [← L.promoted hlt held next same] at responded
    refine h.add L (y := .slot .next) trivial next same (.inl responded) rfl fun x s' hx hs => ?_
    cases x with
    | slot k =>
      cases k with
      | next => cases hs
      | uninit => exact ⟨by simp, hs⟩
      | _ => exact hx.elim
    | _ => exact ⟨by simp, hs⟩
  | lose silent slots =>
    refine h.keep L hlt hpeer' (fun e he => ?_) (by rw [slots])
    have hs := silent e he
    cases e <;> first | rfl | exact hs.elim
  | _ => exact h.keep L hlt hpeer' (by simp [Event.installedIndex?]) rfl

end Installs

/-! ## Which nonces are used -/

/-- The session with the cell `r` has encrypted. -/
def Event.seals (r : ℕ) : Event → Bool
  | .encrypted _ s _ => s.shared = r
  | _ => false

/-- How often the session with the cell `r` has encrypted. -/
def sealCount (tr : List Event) (r : ℕ) : ℕ := tr.countP (Event.seals r)

/-- Send counters count, and nonces are their values. -/
structure Sealing (tr : List Event) (v : View) : Prop where
  counter : ∀ r, (v.store.heap.cell r).senderNonce = UInt64.ofNat (sealCount tr r)
  allocated : ∀ {p s nonce}, .encrypted p s nonce ∈ tr → s.shared < v.store.heap.size
  nonces : Historically (fun past e => ∀ p s nonce, e = .encrypted p s nonce →
    nonce = UInt64.ofNat (sealCount past s.shared) ∧ .installed p s ∈ past) tr

namespace Sealing

variable {C : Crypto} {inp : Option Bytes} {start : UInt32} {tr evs : List Event} {v v' : View}
  {p : Key} {st : Store} {pv : PeerView}

/-- A cell that is not allocated yet has not been used. -/
lemma sealCount_eq_zero (h : Sealing tr v) {r : ℕ} (hr : v.store.heap.size ≤ r) :
    sealCount tr r = 0 := by
  refine List.countP_eq_zero.mpr fun e he hseals => ?_
  cases e with
  | encrypted p s nonce =>
    have halloc := h.allocated he
    have hcell : s.shared = r := of_decide_eq_true hseals
    omega
  | _ => cases hseals

/-- A step without encryption leaves the send counters alone. -/
lemma keep (h : Sealing tr v) (hevs : ∀ e ∈ evs, ∀ p s nonce, e ≠ .encrypted p s nonce)
    (hsize : v.store.heap.size ≤ st.heap.size)
    (hcell : ∀ r, (st.heap.cell r).senderNonce = (v.store.heap.cell r).senderNonce ∨
      r = v.store.heap.size ∧ (st.heap.cell r).senderNonce = 0) :
    Sealing (tr ++ evs) ⟨st, Function.update v.peer p pv⟩ := by
  have hcount : ∀ r, sealCount (tr ++ evs) r = sealCount tr r := by
    intro r
    rw [sealCount, List.countP_append]
    have hzero : evs.countP (Event.seals r) = 0 := by
      refine List.countP_eq_zero.mpr fun e he hseals => ?_
      cases e with
      | encrypted p s nonce => exact hevs _ he p s nonce rfl
      | _ => cases hseals
    rw [hzero]
    rfl
  refine ⟨fun r => ?_, fun {q s nonce} hm => ?_, h.nonces.append fun past e he q s nonce heq => ?_⟩
  · rw [hcount]
    rcases hcell r with hsame | ⟨rfl, hzero⟩
    · exact hsame.trans (h.counter r)
    · rw [h.sealCount_eq_zero le_rfl]
      exact hzero
  · rcases List.mem_append.mp hm with hm | hm
    · exact Nat.lt_of_lt_of_le (h.allocated hm) hsize
    · exact absurd rfl (hevs _ hm q s nonce)
  · exact absurd heq (hevs e he q s nonce)

/-- A session does not use a nonce twice before its send counter has gone round. -/
lemma nonce_ne (h : Sealing tr v) {past between rest : List Event} {q : Key} {s s' : Session}
    {nonce : UInt64}
    (heq : tr = past ++ .encrypted q s' nonce :: (between ++ .encrypted p s nonce :: rest))
    (hcount : sealCount tr s.shared < 2 ^ 64) : s.shared ≠ s'.shared := by
  intro hcell
  have first := (h.nonces past _ _ heq q s' nonce rfl).1
  have second := (h.nonces (past ++ .encrypted q s' nonce :: between) (.encrypted p s nonce) rest
    (by simp [heq]) p s nonce rfl).1
  -- the first use is counted before the second
  have counted : sealCount past s.shared + 1 ≤
      sealCount (past ++ .encrypted q s' nonce :: between) s.shared := by
    simp only [sealCount, List.countP_append, List.countP_cons, Event.seals, ← hcell, decide_true,
      if_true]
    omega
  have bound : sealCount (past ++ .encrypted q s' nonce :: between) s.shared ≤
      sealCount tr s.shared := by
    have split : tr = past ++ .encrypted q s' nonce :: between ++ .encrypted p s nonce :: rest := by
      simp [heq]
    rw [split]
    exact (List.sublist_append_left _ _).countP_le
  rw [← hcell] at first
  have value := congrArg UInt64.toNat (first.symm.trans second)
  rw [UInt64.toNat_ofNat_of_lt' (by simp only [UInt64.size]; omega),
    UInt64.toNat_ofNat_of_lt' (by simp only [UInt64.size]; omega)] at value
  omega

/-- A new cell. -/
lemma alloc_cell (heap : Heap) (r : ℕ) :
    (heap.alloc.cell r).senderNonce = (heap.cell r).senderNonce ∨
      r = heap.size ∧ (heap.alloc.cell r).senderNonce = 0 := by
  by_cases hr : r = heap.size
  · subst hr
    exact .inr ⟨rfl, by rw [Heap.cell_alloc_self]; rfl⟩
  · exact .inl (by rw [heap.cell_alloc_of_ne hr])

/-- Accepting a counter does not touch the send counters. -/
lemma aceept_cell {s : Session} {heap heap' : Heap} {nonce : UInt64}
    (h : s.aceept heap nonce = .ret heap') (r : ℕ) :
    (heap'.cell r).senderNonce = (heap.cell r).senderNonce := by
  obtain ⟨f, -, hr⟩ := Outcome.bind_eq_ret.mp h
  cases hr
  by_cases hs : r = s.shared
  · subst hs
    rw [Heap.cell_write_self]
  · rw [Heap.cell_write_of_ne _ _ hs]

/-- A step keeps the send counters counting. -/
lemma step (h : Sealing tr v) (H : Installs tr v) (L : Lifecycle start tr v)
    (hstep : View.Step C inp v evs v') : Sealing (tr ++ evs) v' := by
  obtain @⟨p, st, pv, hpeer⟩ := hstep
  cases hpeer with
  | lose silent =>
    refine h.keep (fun e he q s nonce heq => ?_) le_rfl fun r => .inl rfl
    subst heq
    exact silent _ he
  | initiate => exact h.keep (by simp) (Nat.le_succ _) (alloc_cell _)
  | respond => exact h.keep (by simp) (Nat.le_succ _) (alloc_cell _)
  | finalize => exact h.keep (by simp) (Nat.le_succ _) (alloc_cell _)
  | deliver _ _ _ _ accepted =>
    exact h.keep (by simp) (Session.size_aceept accepted).ge fun r =>
      .inl (aceept_cell accepted r)
  | @encrypt s current =>
    have hinstalled := H.current current
    have halloc : s.shared < v.store.heap.size :=
      Known.cell_lt (.inr (H.settled hinstalled)) L.numbered
    refine ⟨fun r => ?_, fun {q s' nonce} hm => ?_, ?_⟩
    · by_cases hr : r = s.shared
      · subst hr
        have hcount : sealCount (tr ++ [.encrypted p s (s.nextNonce v.store.heap).1]) s.shared =
            sealCount tr s.shared + 1 := by
          simp [sealCount, Event.seals]
        rw [hcount, UInt64.ofNat_add, ← h.counter]
        simp [Session.nextNonce]
      · have hcount : sealCount (tr ++ [.encrypted p s (s.nextNonce v.store.heap).1]) r =
            sealCount tr r := by
          simp [sealCount, Event.seals, Ne.symm hr]
        rw [hcount, ← h.counter]
        simp [Session.nextNonce, Heap.cell_write_of_ne _ _ hr]
    · rcases List.mem_append.mp hm with hm | hm
      · exact h.allocated hm
      · cases List.mem_singleton.mp hm
        exact halloc
    · refine historically_concat.mpr ⟨h.nonces, fun q s' nonce heq => ?_⟩
      cases heq
      exact ⟨h.counter s.shared, hinstalled⟩
  | _ => exact h.keep (by simp) le_rfl fun r => .inl rfl

end Sealing

/-! ## Fresh keys -/

/-- The session that was derived, with the ephemeral key of its own side. -/
def Event.derivation? : Event → Option (Key × Session)
  | .responded _ _ e s | .finalized _ e s => some (e, s)
  | _ => none

/-- The sessions that were derived, each with the ephemeral key of its own side. -/
def derivations (tr : List Event) : List (Key × Session) := tr.filterMap Event.derivation?

/-- Ephemeral keys are fresh, and fresh ephemeral keys give distinct derived keys. -/
structure FreshKeys (tr : List Event) : Prop where
  ephemerals : (tr.filterMap Event.ephemeral?).Nodup
  derived : ∀ x ∈ derivations tr, ∀ y ∈ derivations tr, x.1 ≠ y.1 → x.2.senderKey ≠ y.2.senderKey

/-- The draw of the index of a derived session was the draw of its ephemeral key. -/
lemma Settled.own_draw {tr : List Event} {s : Session} (h : Settled tr s) :
    ∃ e draw, draw ∈ tr ∧ draw.drawnIndex? = some s.senderIndex ∧ draw.ephemeral? = some e ∧
      (e, s) ∈ derivations tr := by
  rcases h with ⟨p, inc, e, h⟩ | ⟨p, e, h, q, s₀, h₀, hi⟩
  · exact ⟨e, _, h, rfl, rfl, List.mem_filterMap.mpr ⟨_, h, rfl⟩⟩
  · exact ⟨e, _, h₀, congrArg some hi, rfl, List.mem_filterMap.mpr ⟨_, h, rfl⟩⟩

/-- Derived sessions with different indexes have different keys. -/
lemma FreshKeys.senderKey_ne {tr : List Event} (hfresh : FreshKeys tr) {s s' : Session}
    (hs : Settled tr s) (hs' : Settled tr s') (hi : s.senderIndex ≠ s'.senderIndex) :
    s.senderKey ≠ s'.senderKey := by
  obtain ⟨e, draw, hmem, hidx, heph, hd⟩ := hs.own_draw
  obtain ⟨e', draw', hmem', hidx', heph', hd'⟩ := hs'.own_draw
  refine hfresh.derived _ hd _ hd' fun he => hi ?_
  obtain rfl : e = e' := he
  obtain rfl := eq_of_nodup_label hfresh.ephemerals hmem hmem' heph heph'
  exact Option.some.inj (hidx.symm.trans hidx')

/-! ## The device -/

namespace Device

variable {C : Crypto} {privateKey : Key} {start : UInt32} {guard : Device → Action → Prop}
  {tr : List Event} {d : Device}

/-- The invariants hold in every state that is reached with fewer than `2 ^ 32` draws. -/
lemma Reaches.installs (run : d.Reaches C privateKey start guard tr)
    (hlt : (drawnIndexes tr).length < 2 ^ 32) :
    Lifecycle start tr d.view ∧ Installs tr d.view ∧ Sealing tr d.view := by
  refine (run.view_invariant (I := fun tr v => (drawnIndexes tr).length < 2 ^ 32 →
    Lifecycle start tr v ∧ Installs tr v ∧ Sealing tr v)
    (fun _ => ⟨.initial start, ?_, ?_⟩) ?_).1 hlt
  · refine ⟨List.nodup_nil, fun hm => by simp at hm, fun hs => ?_, fun hm => by simp at hm⟩
    cases hs
  · exact ⟨fun r => rfl, fun hm => by simp at hm, historically_nil⟩
  · intro d tr a d' evs _ ih _ _ hstep hlt
    have hlt' := length_drawnIndexes_lt hlt
    obtain ⟨L, H, S⟩ := ih hlt'
    exact ⟨L.step hlt hstep, H.step L hlt' hstep, S.step H L hstep⟩

/-- The current session of the peer `p`. -/
def Current (d : Device) (p : Key) (s : Session) : Prop :=
  ∃ n, d.peers p = some n ∧ n.peer.sessions.current = some s

/-- The current session in the view. -/
lemma current_view {p : Key} {s : Session} :
    (d.view.peer p).slots.current = some s ↔ d.Current p s := by
  constructor
  · intro hs
    cases hp : d.peers p with
    | none => simp [view, hp, PeerView.empty, ActiveSession.new] at hs
    | some n => exact ⟨n, hp, by rwa [view_peer_some hp] at hs⟩
  · rintro ⟨n, hp, hs⟩
    rwa [view_peer_some hp]

/-- A session that was made current earlier in the run is current at the end only if it has
remained so. -/
lemma Reaches.current_run {d₁ d₂ : Device} {tr₁ tr₂ : List Event} {p : Key} {s : Session}
    (run₁ : d₁.Reaches C privateKey start guard tr₁) (run₂ : Run (step C) guard d₁ tr₂ d₂)
    (hlt : (drawnIndexes (tr₁ ++ tr₂)).length < 2 ^ 32) (hinstalled : .installed p s ∈ tr₁)
    (hs : ¬ d₁.Current p s) : ¬ d₂.Current p s := by
  refine Run.invariant (I := fun tr d => (drawnIndexes (tr₁ ++ tr)).length < 2 ^ 32 →
    ¬ d.Current p s) (fun _ => hs) ?_ run₂ hlt
  intro tr d a d' evs run ih ok h hlt hcur
  have reached : d.Reaches C privateKey start guard (tr₁ ++ tr) := Run.trans run₁ run
  have hview := (step_view reached.keyed h).1
  have reached' : d'.Reaches C privateKey start guard (tr₁ ++ tr ++ evs) := Run.snoc reached ok h
  have nodup := (reached'.installs (by rwa [List.append_assoc])).2.1.nodup
  rw [← current_view] at hcur
  generalize d'.view = v' at hview hcur
  obtain @⟨q, st, pv, hpeer⟩ := hview
  simp only [Function.update_apply] at hcur
  have hold : (d.view.peer p).slots.current ≠ some s := by
    rw [Ne, current_view]
    refine ih (length_drawnIndexes_lt (?_ : (drawnIndexes (_ ++ evs)).length < _))
    rwa [List.append_assoc]
  split_ifs at hcur with hq
  · subst hq
    rcases Installs.current_from hpeer hcur with hcur | rfl
    · exact hold hcur
    · -- the session would become current a second time
      rw [List.filterMap_append] at nodup
      refine (List.nodup_append.mp nodup).2.2 s.senderIndex ?_ s.senderIndex (by
        simp [Event.installedIndex?]) rfl
      exact List.mem_filterMap.mpr ⟨_, List.mem_append_left _ hinstalled, rfl⟩
  · exact hold hcur

/-- Different sessions that became current have different keys. -/
lemma installed_senderKey_ne (H : Installs tr d.view) (hfresh : FreshKeys tr) {p q : Key}
    {s s' : Session} (hs : .installed p s ∈ tr) (hs' : .installed q s' ∈ tr) (hne : s ≠ s') :
    s.senderKey ≠ s'.senderKey := by
  refine hfresh.senderKey_ne (H.settled hs) (H.settled hs') fun hi => hne ?_
  have same := eq_of_nodup_label H.nodup hs hs' rfl (congrArg some hi.symm)
  simp only [Event.installed.injEq] at same
  exact same.2

/-- **Keys and nonces are not reused.** In every run of a device with fewer than `2 ^ 32` draws of
an index, if fresh ephemeral keys give distinct derived keys: the keys of a session become current
at most once; a session that has ceased to be current does not come back; and no two calls of
`encrypt_data` use the same key and nonce, as long as no session encrypts `2 ^ 64` times.

**Proof sketch.** For each index at most one session becomes current, and sessions with different
indexes were derived with different ephemeral keys. Two uses of one nonce by one session are told
apart by its send counter, which counts its uses. -/
theorem nonces_unique (C : Crypto) (privateKey : Key) (start : UInt32) {d₁ d₂ d₃ : Device}
    {tr₁ tr₂ tr₃ : List Event} (run₁ : d₁.Reaches C privateKey start (fun _ _ => True) tr₁)
    (run₂ : Run (step C) (fun _ _ => True) d₁ tr₂ d₂)
    (run₃ : Run (step C) (fun _ _ => True) d₂ tr₃ d₃)
    (hlt : (drawnIndexes (tr₁ ++ tr₂ ++ tr₃)).length < 2 ^ 32)
    (hfresh : FreshKeys (tr₁ ++ tr₂ ++ tr₃))
    (hcount : ∀ r, sealCount (tr₁ ++ tr₂ ++ tr₃) r < 2 ^ 64) :
    Historically (fun past e => ∀ p s, e = .installed p s →
      ∀ q s', .installed q s' ∈ past → s.senderKey ≠ s'.senderKey) (tr₁ ++ tr₂ ++ tr₃) ∧
    (∀ p s, d₁.Current p s → ¬ d₂.Current p s → ¬ d₃.Current p s) ∧
    Historically (fun past e => ∀ p s nonce, e = .encrypted p s nonce →
      ∀ q s', .encrypted q s' nonce ∈ past → s.senderKey ≠ s'.senderKey) (tr₁ ++ tr₂ ++ tr₃) := by
  have reached₂ : d₂.Reaches C privateKey start (fun _ _ => True) (tr₁ ++ tr₂) :=
    Run.trans run₁ run₂
  have reached₃ : d₃.Reaches C privateKey start (fun _ _ => True) (tr₁ ++ tr₂ ++ tr₃) :=
    Run.trans reached₂ run₃
  obtain ⟨L, H, S⟩ := reached₃.installs hlt
  refine ⟨?_, fun p s hcur hnot => ?_, ?_⟩
  · rintro past e rest heq p s rfl q s' hpast
    have hmem : .installed p s ∈ tr₁ ++ tr₂ ++ tr₃ := by simp [heq]
    have hmem' : .installed q s' ∈ tr₁ ++ tr₂ ++ tr₃ := by simp [heq, hpast]
    refine installed_senderKey_ne H hfresh hmem hmem' ?_
    rintro rfl
    -- the index would be used twice
    have nodup := H.nodup
    rw [heq, List.filterMap_append] at nodup
    exact (List.nodup_append.mp nodup).2.2 s.senderIndex (List.mem_filterMap.mpr ⟨_, hpast, rfl⟩)
      s.senderIndex (List.mem_filterMap.mpr ⟨_, List.mem_cons_self, rfl⟩) rfl
  · have installed :=
      (run₁.installs (length_drawnIndexes_lt (length_drawnIndexes_lt hlt))).2.1.current
      (current_view.mpr hcur)
    exact reached₂.current_run run₃ hlt (List.mem_append_left _ installed) hnot
  · rintro past e rest heq p s nonce rfl q s' hpast
    have hinst := (S.nonces past _ rest heq p s nonce rfl).2
    obtain ⟨past', between, rfl⟩ := List.append_of_mem hpast
    have heq' : tr₁ ++ tr₂ ++ tr₃ =
        past' ++ .encrypted q s' nonce :: (between ++ .encrypted p s nonce :: rest) := by
      simp [heq]
    have hinst' := (S.nonces past' _ _ heq' q s' nonce rfl).2
    refine installed_senderKey_ne H hfresh (p := p) (q := q) ?_ (by simp [heq', hinst']) ?_
    · rw [heq]
      exact List.mem_append_left _ hinst
    · rintro rfl
      exact S.nonce_ne heq' (hcount _) rfl

/-- The check for `nonces_unique_sample`. -/
def encryptsTwice (tr : List Event) : Bool :=
  (drawnIndexes tr).length < 2 ^ 32 ∧ (tr.filterMap Event.ephemeral?).Nodup ∧
    (∀ x ∈ derivations tr, ∀ y ∈ derivations tr, x.1 ≠ y.1 → x.2.senderKey ≠ y.2.senderKey) ∧
    tr.length < 2 ^ 64 ∧ 2 ≤ sealCount tr 0

/-- A run in which the session of the peer encrypts twice. -/
theorem nonces_unique_sample : ∃ (d₁ d₂ : Device) (tr₁ tr₂ : List Event),
    d₁.Reaches .sample Sample.localKey Sample.start (fun _ _ => True) tr₁ ∧
      Run (step .sample) (fun _ _ => True) d₁ tr₂ d₂ ∧ 2 ≤ sealCount (tr₁ ++ tr₂) 0 ∧
      Historically (fun past e => ∀ p s nonce, e = .encrypted p s nonce →
        ∀ q s', .encrypted q s' nonce ∈ past → s.senderKey ≠ s'.senderKey) (tr₁ ++ tr₂) := by
  obtain ⟨d₁, tr₁, run₁, check₁⟩ := exists_run_of_exec (step .sample)
    (Sample.answer ++ [.receive Sample.endpoint (Sample.packet 0 []) (Sample.env 0),
      Sample.inbound, Sample.inbound, Sample.tunRecv, Sample.outbound]) Sample.device
    (fun r₁ => (exec (step .sample) r₁.1
      [Sample.outbound, Sample.outbound, Sample.tunRecv, Sample.outbound]).any fun r₂ =>
        encryptsTwice (r₁.2 ++ r₂.2)) (by decide +kernel)
  obtain ⟨d₂, tr₂, run₂, check₂⟩ := exists_run_of_exec (step .sample) _ d₁ _ check₁
  obtain ⟨hlt, heph, hder, hlen, htwice⟩ := of_decide_eq_true check₂
  have main := nonces_unique .sample Sample.localKey Sample.start run₁ run₂ .nil
    (by simpa using hlt) (by rw [List.append_nil]; exact ⟨heph, hder⟩) (fun r => by
      rw [List.append_nil]
      exact Nat.lt_of_le_of_lt List.countP_le_length hlen)
  rw [List.append_nil] at main
  exact ⟨d₁, d₂, tr₁, tr₂, run₁, run₂, htwice, main.2.2⟩

/-! ## When the counter of indexes has gone round -/

section Wrap

variable {p : Key} {n : PeerNode}

/-- A step of the inbound task. -/
lemma step_inbound {st : Store} {n' : PeerNode} {evs : List Event} (env : Env)
    (hn : d.peers p = some n)
    (h : n.inboundStep C d.store env = some (.ret (st, n', evs))) :
    d.step C (.inbound p env) = some ({ d with store := st }.setPeer p n', evs) := by
  simp [step, taskStep, hn, h]

/-- A step of the outbound task. -/
lemma step_outbound {st : Store} {n' : PeerNode} {evs : List Event} (env : Env)
    (hn : d.peers p = some n)
    (h : n.outboundStep C d.store env = some (.ret (st, n', evs))) :
    d.step C (.outbound p env) = some ({ d with store := st }.setPeer p n', evs) := by
  simp [step, taskStep, hn, h]

/-- The outbound task encrypts the first data in its channel with the current session. -/
lemma outboundStep_encrypts (C : Crypto) (n : PeerNode) (st : Store) (env : Env) {s : Session}
    {data : Bytes} {outbox : List Bytes} (ht : n.outboundTask = .idle)
    (hbox : n.outbox = data :: outbox) (hcur : n.peer.sessions.current = some s) :
    ∃ st' n', n.outboundStep C st env =
      some (.ret (st', n', [.encrypted n.peer.pubKey s (s.nextNonce st.heap).1])) := by
  rw [PeerNode.outboundStep, ht]
  simp only [hbox, hcur]
  cases s.encryptData C st.heap data with
  | mk r heap => cases r <;> exact ⟨_, _, rfl⟩

/-- A session that is held after `finalize` becomes current if the half-initialised session has its
index, whichever initiation that belongs to; the first packet is then encrypted with it. -/
lemma held_installs (C : Crypto) (env : Env) {endpoint : OutboundSender} {s u : Session}
    (hn : d.peers p = some n)
    (hin : n.inboundTask = .finalized endpoint s) (hout : n.outboundTask = .idle)
    (hbox : n.outbox = []) (hu : n.peer.sessions.uninit = some u)
    (hi : u.senderIndex = s.senderIndex) :
    ∃ d' e, Run (step C) (fun _ _ => True) d
      [.installed n.peer.pubKey s, .published e,
        .encrypted n.peer.pubKey s (s.nextNonce d.store.heap).1] d' := by
  obtain ⟨t, ht, -, -⟩ := ActiveSession.completeUninit_spec d.store.index n.peer.sessions s hu hi
  let slots : ActiveSession := { n.peer.sessions with
    uninit := none, previous := n.peer.sessions.current, current := some s }
  let n₁ : PeerNode := { n with
    peer := { n.peer with sessions := slots }, inboundTask := .completed endpoint }
  let n₂ : PeerNode := { n₁ with
    peer := n₁.peer.completed env.now env.wall, inboundTask := .confirming endpoint }
  let n₃ : PeerNode := { n₂ with
    peer := n₂.peer.updateEndpoint endpoint, outbox := [[]], inboundTask := .idle }
  let d₁ := { d with store := { d.store with index := t } }.setPeer p n₁
  let d₂ := { d₁ with store := d₁.store }.setPeer p n₂
  let d₃ := { d₂ with store := d₂.store }.setPeer p n₃
  have h₁ : d.step C (.inbound p env) = some (d₁, [.installed n.peer.pubKey s]) := by
    refine step_inbound env hn ?_
    rw [PeerNode.inboundStep, hin]
    simp only [Peer.completeUninit, ht, Outcome.ret_bind]
    rfl
  have h₂ : d₁.step C (.inbound p env) = some (d₂, []) :=
    step_inbound env (n := n₁) (Function.update_self ..) rfl
  have h₃ : d₂.step C (.inbound p env) =
      some (d₃, [.published (.handshakeComplete n.peer.pubKey endpoint.protocol)]) := by
    refine step_inbound env (n := n₂) (Function.update_self ..) ?_
    show some (Outcome.ret (_, { n₂ with
      peer := _, outbox := n.outbox ++ [[]], inboundTask := _ }, _)) = _
    rw [hbox]
    rfl
  obtain ⟨st, n₄, h₄⟩ := outboundStep_encrypts C n₃ d₃.store env (s := s) hout rfl rfl
  have run₁ : Run (step C) (fun _ _ => True) d ([] ++ _) d₁ := .snoc .nil trivial h₁
  have run := ((run₁.snoc trivial h₂).snoc trivial h₃).snoc trivial
    (step_outbound env (Function.update_self ..) h₄)
  exact ⟨_, _, run⟩

/-- The device initiates; the peer responds, and the first packet is encrypted; the response is
replayed and finalized again, and the task stops before `complete_uninit`. -/
def replayed : List Action :=
  Sample.initiate ++
    [Sample.handshake, Sample.handshake, Sample.handshake, Sample.handshakeLater,
      .receive Sample.endpoint Sample.response (Sample.env 0), Sample.inbound, Sample.inbound,
      Sample.inbound, Sample.inbound, Sample.outbound, Sample.outbound, Sample.outbound,
      .receive Sample.endpoint Sample.response (Sample.env 0), Sample.inbound]

/-- What is known of the device after `replayed`. -/
def replayedCheck (r : Device × List Event) : Bool :=
  match r.1.peers Sample.remote with
  | some ⟨peer, _, _, [], .waiting, .finalized _ s, .idle⟩ =>
    decide (peer.online = true ∧ peer.pubKey = Sample.remote ∧ s.senderIndex = Sample.start ∧
      r.1.store.index.index = Sample.start + 1 ∧ s.shared < r.1.store.heap.size ∧
      (r.1.store.heap.cell s.shared).senderNonce = 0 ∧
      r.2.filterMap Event.ephemeral? = [Crypto.leBlock 32 44] ∧
      (∀ x ∈ derivations r.2, x.1 = Crypto.leBlock 32 44) ∧ r.2.length < 100) &&
    r.2.any fun
      | .encrypted p s' nonce => decide (p = Sample.remote ∧ nonce = 0 ∧ s'.senderKey = s.senderKey)
      | _ => false
  | _ => false

/-- Ephemeral keys for the rounds of the handshake loop. -/
def roundKey (k : ℕ) : Key := Crypto.leBlock 32 (1000 + k)

/-- They are distinct, and not the key of the first initiation. -/
lemma nodup_roundKeys {k : ℕ} (hk : k ≤ 2 ^ 32) :
    (Crypto.leBlock 32 44 :: (List.range k).map roundKey).Nodup := by
  have value : ∀ v < 2 ^ 33, leNat (Crypto.leBlock 32 v).val = v := by
    intro v hv
    rw [Crypto.leNat_leBlock]
    exact Nat.mod_eq_of_lt (hv.trans (by decide))
  refine List.nodup_cons.mpr ⟨fun hm => ?_, List.nodup_range.map_on fun i hi j hj heq => ?_⟩
  · obtain ⟨i, hi, heq⟩ := List.mem_map.mp hm
    have hi := List.mem_range.mp hi
    have hval := congrArg (fun b : Key => leNat b.val) heq
    simp only [roundKey] at hval
    rw [value _ (by omega), value _ (by omega)] at hval
    omega
  · have hi := List.mem_range.mp hi
    have hj := List.mem_range.mp hj
    have hval := congrArg (fun b : Key => leNat b.val) heq
    simp only [roundKey] at hval
    rw [value _ (by omega), value _ (by omega)] at hval
    omega

/-- **A nonce is reused when the counter of indexes has gone round.** The response of a completed
handshake is replayed and finalized again. Before `complete_uninit` the handshake loop sends
`2 ^ 32` more initiations, the last of which has the index of the first. The session with the old
keys becomes current again, and its send counter starts at zero. -/
theorem nonce_reused : ∃ (d : Device) (tr : List Event),
    d.Reaches .sample Sample.localKey Sample.start (fun _ _ => True) tr ∧ FreshKeys tr ∧
      (∀ r, sealCount tr r < 2 ^ 64) ∧
      ¬ Historically (fun past e => ∀ p s nonce, e = .encrypted p s nonce →
        ∀ q s', .encrypted q s' nonce ∈ past → s.senderKey ≠ s'.senderKey) tr := by
  obtain ⟨d₀, tr₀, run₀, check⟩ :=
    exists_run_of_exec (step .sample) replayed Sample.device replayedCheck (by decide +kernel)
  rw [replayedCheck] at check
  split at check
  case h_2 => cases check
  case h_1 peer allowedIps inbox endpoint s hn =>
  obtain ⟨facts, hused⟩ := Bool.and_eq_true_iff.mp check
  dsimp only at facts hused hn
  obtain ⟨honline, hkey, hindex, hcounter, hshared, hnonce, heph, hder, hlen⟩ :=
    of_decide_eq_true facts
  obtain ⟨k, hwrap, hpos, hk⟩ : ∃ k : ℕ, UInt32.ofNat k = 0 ∧ 0 < k ∧ k ≤ 2 ^ 32 :=
    ⟨2 ^ 32, by decide +kernel, by norm_num, le_rfl⟩
  -- the handshake loop goes round `k` times
  obtain ⟨d₁, peer₁, uninit, tr₁, run₁, hn₁, alike, hlast, hcounter₁, hcell, -, heph₁, hevs₁⟩ :=
    handshake_rounds Crypto.sample_lawful (Sample.env 0) roundKey hn honline rfl k
  obtain ⟨u, rfl, hu⟩ := hlast hpos
  have hsame : u.senderIndex = s.senderIndex := by
    rw [hcounter₁, hwrap, hcounter, UInt32.add_zero, UInt32.add_left_inj] at hu
    exact hu.trans hindex.symm
  -- the session that was held becomes current
  obtain ⟨d₂, e, run₂⟩ : ∃ d₂ e, Run (step .sample) (fun _ _ => True) d₁
      [.installed Sample.remote s, .published e, .encrypted Sample.remote s 0] d₂ := by
    have hzero : (s.nextNonce d₁.store.heap).1 = 0 := (congrArg _ (hcell _ hshared)).trans hnonce
    have hpub : peer₁.pubKey = Sample.remote := alike.pubKey.trans hkey
    have run := held_installs .sample (Sample.env 0) (s := s) hn₁ rfl rfl rfl
      (by rw [PeerNode.withHandshake, alike.sessions]) hsame
    rw [hzero] at run
    exact hpub ▸ run
  have hquiet : ∀ e ∈ tr₁, e.derivation? = none ∧ ∀ r, e.seals r = false := by
    intro e he
    rcases hevs₁ e he with hs | ⟨q, a, u, rfl⟩
    · cases e <;> first | exact ⟨rfl, fun _ => rfl⟩ | exact hs.elim
    · exact ⟨rfl, fun _ => rfl⟩
  refine ⟨d₂, _, (Run.trans run₀ run₁).trans run₂, ⟨?_, ?_⟩, fun r => ?_, fun h => ?_⟩
  · rw [List.filterMap_append, List.filterMap_append, heph, heph₁]
    simpa only [Event.ephemeral?, List.filterMap_cons, List.filterMap_nil, List.append_nil,
      List.singleton_append] using nodup_roundKeys hk
  · have hfirst : ∀ x ∈ derivations (tr₀ ++ tr₁ ++ [.installed Sample.remote s, .published e,
        .encrypted Sample.remote s 0]), x.1 = Crypto.leBlock 32 44 := by
      intro x hx
      rw [derivations, List.filterMap_append, List.filterMap_append,
        List.filterMap_eq_nil_iff.mpr fun e he => (hquiet e he).1] at hx
      exact hder x (by simpa [derivations, Event.derivation?] using hx)
    exact fun x hx y hy hne => absurd ((hfirst x hx).trans (hfirst y hy).symm) hne
  · have hrounds : tr₁.countP (Event.seals r) = 0 :=
      List.countP_eq_zero.mpr fun e he => by simp [(hquiet e he).2 r]
    have hfirst : tr₀.countP (Event.seals r) ≤ tr₀.length := List.countP_le_length
    rw [sealCount, List.countP_append, List.countP_append, hrounds]
    have hlast := List.countP_le_length (p := Event.seals r)
      (l := [.installed Sample.remote s, .published e, .encrypted Sample.remote s 0])
    simp only [List.length_cons, List.length_nil] at hlast
    omega
  · obtain ⟨e', he', hused⟩ := List.any_eq_true.mp hused
    cases e' with
    | encrypted q s' nonce =>
      obtain ⟨rfl, rfl, hsender⟩ := of_decide_eq_true hused
      exact h (tr₀ ++ tr₁ ++ [.installed Sample.remote s, .published e])
        (.encrypted Sample.remote s 0) [] (by simp) _ s 0 rfl Sample.remote s'
        (List.mem_append_left _ (List.mem_append_left _ he')) hsender.symm
    | _ => cases hused

end Wrap

end Device

end Vlink
