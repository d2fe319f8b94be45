import Vlink.Device.NonceFilter
import Vlink.Lib.Logged

set_option autoImplicit false

/-!
# What the replay filter does on the way

The functions of `NonceFilter` once more, with a log of the results of `bitmap_index` and of the
rounds of the loop in `accept`. Each has the value of the function it is a copy of, so what is
shown of its log is true of every call of `bitmap_index` that the function makes.

## Main definitions

* `Vlink.NonceFilter.Entry` — what is logged.
* `Vlink.NonceFilter.acceptLogged`, `canAcceptLogged` — the logged functions.
* `Vlink.NonceFilter.Reachable` — the filters that accepting counters leads to.

## Main results

* `Vlink.NonceFilter.value_acceptLogged`, `value_canAcceptLogged` — the log changes no value.
* `Vlink.NonceFilter.logs_acceptLogged` — every word and bit is in range, and the loop is left
  because its condition has become false.
* `Vlink.NonceFilter.Reachable.in_range` — no call on a reachable filter overflows, every word and
  bit is in range, and the loop takes at most `MAX_REPLAY_SIZE` rounds.
-/

namespace Vlink

namespace NonceFilter

open Logged

/-- What is logged of a call. -/
inductive Entry where
  /-- `bitmap_index` has returned this word and bit. -/
  | index (word bit : ℕ)
  /-- A round of the loop in `accept`. -/
  | round
  /-- The end of the loop, with `next` and the counter. -/
  | left (next counter : ℕ)
deriving DecidableEq

/-! ## The logged functions -/

/-- `bitmapIndex`, with its result logged. -/
def bitmapIndexLogged (f : NonceFilter) (i : ℕ) : Logged Entry (ℕ × ℕ) := do
  let r ← lift (f.bitmapIndex i)
  log (.index r.1 r.2)
  return r

/-- `isSet`, logged. -/
def isSetLogged (f : NonceFilter) (i : ℕ) : Logged Entry Bool := do
  let (wordIdx, bitIdx) ← f.bitmapIndexLogged i
  lift (f.words.test wordIdx bitIdx)

/-- `set`, logged. -/
def setLogged (f : NonceFilter) (i : ℕ) : Logged Entry NonceFilter := do
  let (wordIdx, bitIdx) ← f.bitmapIndexLogged i
  let words ← lift (f.words.set wordIdx bitIdx)
  return { f with words }

/-- `unset`, logged. -/
def unsetLogged (f : NonceFilter) (i : ℕ) : Logged Entry NonceFilter := do
  let (wordIdx, bitIdx) ← f.bitmapIndexLogged i
  let words ← lift (f.words.clear wordIdx bitIdx)
  return { f with words }

/-- `advance`, logged. -/
def advanceLogged (f : NonceFilter) : Logged Entry NonceFilter := do
  let f ←
    if maxReplaySize < f.next then do
      let old ← lift (Outcome.subW f.next maxReplaySize)
      f.unsetLogged old
    else pure f
  let next ← lift (Outcome.addW 64 f.next 1)
  let head ← lift (Outcome.addW 64 f.nextIdx 1)
  return { f with next, nextIdx := head % maxReplaySize }

/-- The loop in `accept`, with its rounds and its end logged. -/
def advanceToLogged (counter : ℕ) : ℕ → NonceFilter → Logged Entry NonceFilter
  | 0, f => do
    log (.left f.next counter)
    return f
  | fuel + 1, f =>
    if f.next < counter then do
      log .round
      let f ← f.advanceLogged
      advanceToLogged counter fuel f
    else do
      log (.left f.next counter)
      return f

/-- `canAccept`, logged. -/
def canAcceptLogged (f : NonceFilter) (counter : ℕ) : Logged Entry Bool :=
  if f.next ≤ counter then pure true
  else do
    let edge ← lift (Outcome.addW 64 counter maxReplaySize)
    if edge ≤ f.next then return false
    let seen ← f.isSetLogged counter
    return !seen

/-- `accept`, logged. -/
def acceptLogged (f : NonceFilter) (counter : ℕ) : Logged Entry NonceFilter := do
  let accepted ← lift (Outcome.addW 64 f.accepted 1)
  let f := { f with accepted }
  if counter < f.next then f.setLogged counter
  else if f.next < counter ∧ maxReplaySize ≤ counter - f.next then do
    let next ← lift (Outcome.addW 64 counter 1)
    let f := { f with words := Bitmap.empty 16, nextIdx := 0, next }
    f.setLogged counter
  else do
    let f ← advanceToLogged counter (counter - f.next) f
    let f ← f.advanceLogged
    f.setLogged counter

/-! ## The log changes no value -/

section Values

variable (f : NonceFilter) (c : ℕ)

/-- With a log, `bitmap_index` returns the same. -/
@[simp] lemma value_bitmapIndexLogged : (f.bitmapIndexLogged c).value = f.bitmapIndex c := by
  simp only [bitmapIndexLogged, value_bind, value_lift, value_log, value_pure, Outcome.ret_bind]
  exact bind_pure (f.bitmapIndex c)

/-- With a log, `is_set` returns the same. -/
@[simp] lemma value_isSetLogged : (f.isSetLogged c).value = f.isSet c := by
  simp [isSetLogged, isSet]

/-- With a log, `set` returns the same. -/
@[simp] lemma value_setLogged : (f.setLogged c).value = f.set c := by
  simp [setLogged, set]

/-- With a log, `unset` returns the same. -/
@[simp] lemma value_unsetLogged : (f.unsetLogged c).value = f.unset c := by
  simp [unsetLogged, unset]

/-- With a log, `advance` returns the same. -/
@[simp] lemma value_advanceLogged : f.advanceLogged.value = f.advance := by
  simp [advanceLogged, advance]

/-- With a log, the loop returns the same. -/
@[simp] lemma value_advanceToLogged (fuel : ℕ) :
    (advanceToLogged c fuel f).value = advanceTo c fuel f := by
  induction fuel generalizing f with
  | zero => simp [advanceToLogged, advanceTo]
  | succ fuel ih => simp [advanceToLogged, advanceTo, ih]

/-- With a log, `can_accept` returns the same. -/
@[simp] theorem value_canAcceptLogged : (f.canAcceptLogged c).value = f.canAccept c := by
  simp [canAcceptLogged, canAccept]

/-- With a log, `accept` returns the same. -/
@[simp] theorem value_acceptLogged : (f.acceptLogged c).value = f.accept c := by
  simp [acceptLogged, accept]

end Values

/-! ## What is logged -/

namespace Entry

/-- The entry is a word and a bit in range. -/
def InRing : Entry → Prop
  | index word bit => word < maxReplaySize / 64 ∧ bit < 64
  | _ => False

/-- What is asked of an entry: word and bit are in range, and the loop is left because its condition
has become false. -/
def Good : Entry → Prop
  | index word bit => word < maxReplaySize / 64 ∧ bit < 64
  | round => True
  | left next counter => counter ≤ next

/-- Whether the entry is a round of the loop. -/
def isRound : Entry → Bool
  | round => true
  | _ => false

/-- An access in the ring is good. -/
lemma InRing.good {e : Entry} (h : e.InRing) : e.Good := by
  cases e with
  | index => exact h
  | round | left => exact h.elim

/-- An access in the ring is no round. -/
lemma InRing.not_round {e : Entry} (h : e.InRing) : e.isRound = false := by
  cases e with
  | index => rfl
  | round | left => exact h.elim

end Entry

section Entries

variable {f f' : NonceFilter} {c : ℕ}

/-- Whatever counter `bitmap_index` returns a word and a bit for, they are in range, as long as the
head of the ring is.

**Proof sketch.** Up to the head the position is below the head. Beyond it the ring is gone around
once, and as the distance is larger than the head, the position is below the end. -/
lemma bitmapIndex_lt {i word bit : ℕ} (hi : f.nextIdx < maxReplaySize)
    (h : f.bitmapIndex i = .ret (word, bit)) : word < maxReplaySize / 64 ∧ bit < 64 := by
  have hsplit : ∀ slot, slot < maxReplaySize →
      (Outcome.subW slot (slot / 64 * 64) >>= fun b => Outcome.ret (slot / 64, b)) =
        .ret (word, bit) → word < maxReplaySize / 64 ∧ bit < 64 := by
    intro slot hlt h
    obtain ⟨b, hb, h⟩ := Outcome.bind_eq_ret.mp h
    obtain ⟨-, rfl⟩ := Outcome.subW_eq_ret.mp hb
    cases h
    rw [maxReplaySize_eq] at hlt ⊢
    omega
  obtain ⟨offset, -, h⟩ := Outcome.bind_eq_ret.mp h
  dsimp only at h
  split_ifs at h with hle
  · obtain ⟨slot, hslot, h⟩ := Outcome.bind_eq_ret.mp h
    obtain ⟨-, rfl⟩ := Outcome.subW_eq_ret.mp hslot
    exact hsplit _ (by omega) h
  · obtain ⟨top, htop, h⟩ := Outcome.bind_eq_ret.mp h
    obtain ⟨-, rfl⟩ := Outcome.addW_eq_ret.mp htop
    obtain ⟨slot, hslot, h⟩ := Outcome.bind_eq_ret.mp h
    obtain ⟨-, rfl⟩ := Outcome.subW_eq_ret.mp hslot
    exact hsplit _ (by omega) h

/-- `bitmap_index` stays in the ring. -/
lemma logs_bitmapIndexLogged (hi : f.nextIdx < maxReplaySize) (i : ℕ) :
    Logs Entry.InRing (f.bitmapIndexLogged i) := by
  refine (logs_lift _).bind fun r hr => ?_
  rw [value_lift] at hr
  have inRing : Entry.InRing (.index r.1 r.2) := bitmapIndex_lt hi hr
  exact (logs_log inRing).bind fun _ _ => logs_pure _

/-- `is_set` stays in the ring. -/
lemma logs_isSetLogged (hi : f.nextIdx < maxReplaySize) (i : ℕ) :
    Logs Entry.InRing (f.isSetLogged i) :=
  (logs_bitmapIndexLogged hi i).bind fun _ _ => logs_lift _

/-- `set` stays in the ring. -/
lemma logs_setLogged (hi : f.nextIdx < maxReplaySize) (i : ℕ) :
    Logs Entry.InRing (f.setLogged i) :=
  (logs_bitmapIndexLogged hi i).bind fun _ _ => (logs_lift _).bind fun _ _ => logs_pure _

/-- `unset` stays in the ring. -/
lemma logs_unsetLogged (hi : f.nextIdx < maxReplaySize) (i : ℕ) :
    Logs Entry.InRing (f.unsetLogged i) :=
  (logs_bitmapIndexLogged hi i).bind fun _ _ => (logs_lift _).bind fun _ _ => logs_pure _

/-- `unset` leaves `next` as it is. -/
lemma next_unset {i : ℕ} (h : f.unset i = .ret f') : f'.next = f.next := by
  obtain ⟨r, -, h⟩ := Outcome.bind_eq_ret.mp h
  obtain ⟨words, -, h⟩ := Outcome.bind_eq_ret.mp h
  cases h
  rfl

/-- `advance` moves the head on by one place, in the ring. -/
lemma advance_eq_ret (h : f.advance = .ret f') :
    f'.next = f.next + 1 ∧ f'.nextIdx < maxReplaySize := by
  have hmove : ∀ g : NonceFilter, g.next = f.next →
      (Outcome.addW 64 g.next 1 >>= fun next => Outcome.addW 64 g.nextIdx 1 >>= fun head =>
        Outcome.ret { g with next, nextIdx := head % maxReplaySize }) = .ret f' →
      f'.next = f.next + 1 ∧ f'.nextIdx < maxReplaySize := by
    intro g hg h
    obtain ⟨next, hnext, h⟩ := Outcome.bind_eq_ret.mp h
    obtain ⟨head, -, h⟩ := Outcome.bind_eq_ret.mp h
    obtain ⟨-, rfl⟩ := Outcome.addW_eq_ret.mp hnext
    cases h
    exact ⟨by rw [hg], Nat.mod_lt _ (by decide)⟩
  unfold advance at h
  dsimp only at h
  split_ifs at h with hold
  · obtain ⟨old, -, h⟩ := Outcome.bind_eq_ret.mp h
    obtain ⟨g, hg, h⟩ := Outcome.bind_eq_ret.mp h
    exact hmove g (next_unset hg) h
  · exact hmove f rfl h

/-- `advance` stays in the ring. -/
lemma logs_advanceLogged (hi : f.nextIdx < maxReplaySize) :
    Logs Entry.InRing f.advanceLogged := by
  have hmove : ∀ g : NonceFilter, Logs Entry.InRing (lift (Outcome.addW 64 g.next 1) >>= fun next =>
      lift (Outcome.addW 64 g.nextIdx 1) >>= fun head =>
        pure { g with next, nextIdx := head % maxReplaySize }) := fun g =>
    (logs_lift _).bind fun _ _ => (logs_lift _).bind fun _ _ => logs_pure _
  unfold advanceLogged
  dsimp only
  split_ifs with hold
  · exact (logs_lift _).bind fun _ _ => (logs_unsetLogged hi _).bind fun g _ => hmove g
  · exact (logs_pure f).bind fun g _ => hmove g

/-- The loop is left when `next` has come up to the counter: the rounds that are allowed for are
enough. -/
lemma logs_advanceToLogged : ∀ (fuel : ℕ) (f : NonceFilter), f.nextIdx < maxReplaySize →
    c - f.next ≤ fuel → Logs Entry.Good (advanceToLogged c fuel f) := by
  intro fuel
  induction fuel with
  | zero =>
    intro f hi hfuel
    have good : Entry.Good (.left f.next c) := by
      change c ≤ f.next
      omega
    exact (logs_log good).bind fun _ _ => logs_pure _
  | succ fuel ih =>
    intro f hi hfuel
    unfold advanceToLogged
    split_ifs with hlt
    · have good : Entry.Good .round := trivial
      have hadvance := (logs_advanceLogged hi).imp fun _ => Entry.InRing.good
      refine (logs_log good).bind fun _ _ => hadvance.bind fun g hg => ?_
      rw [value_advanceLogged] at hg
      obtain ⟨hnext, hidx⟩ := advance_eq_ret hg
      exact ih g hidx (by omega)
    · have good : Entry.Good (.left f.next c) := Nat.le_of_not_lt hlt
      exact (logs_log good).bind fun _ _ => logs_pure _

/-- The loop takes no more rounds than it is allowed for. -/
lemma atMost_advanceToLogged : ∀ (fuel : ℕ) (f : NonceFilter), f.nextIdx < maxReplaySize →
    AtMost Entry.isRound fuel (advanceToLogged c fuel f) := by
  have hleft : ∀ (n : ℕ) (f : NonceFilter),
      AtMost Entry.isRound n (log (Entry.left f.next c) >>= fun _ => pure f) := fun n f =>
    .of_logs ((logs_log (P := fun e => Entry.isRound e = false) rfl).bind fun _ _ => logs_pure _)
  intro fuel
  induction fuel with
  | zero => exact fun f _ => hleft 0 f
  | succ fuel ih =>
    intro f hi
    unfold advanceToLogged
    split_ifs with hlt
    · have hround : AtMost Entry.isRound 1 (log Entry.round) := atMost_log _
      have hrest : AtMost Entry.isRound (0 + fuel)
          (f.advanceLogged >>= fun g => advanceToLogged c fuel g) := by
        have hnone := (logs_advanceLogged hi).imp fun _ => Entry.InRing.not_round
        refine (AtMost.of_logs hnone).bind fun g hg => ?_
        rw [value_advanceLogged] at hg
        exact ih g (advance_eq_ret hg).2
      exact (hround.bind fun _ _ => hrest).mono (by omega)
    · exact hleft _ f

/-- The head stays in the ring throughout the loop. -/
lemma nextIdx_advanceTo (fuel : ℕ) : ∀ {f f' : NonceFilter}, f.nextIdx < maxReplaySize →
    advanceTo c fuel f = .ret f' → f'.nextIdx < maxReplaySize := by
  induction fuel with
  | zero =>
    intro f f' hi h
    cases h
    exact hi
  | succ fuel ih =>
    intro f f' hi h
    unfold advanceTo at h
    split_ifs at h with hlt
    · obtain ⟨g, hg, h⟩ := Outcome.bind_eq_ret.mp h
      exact ih (advance_eq_ret hg).2 h
    · cases h
      exact hi

/-- `can_accept` makes only good accesses. -/
lemma logs_canAcceptLogged (hi : f.nextIdx < maxReplaySize) (c : ℕ) :
    Logs Entry.Good (f.canAcceptLogged c) := by
  unfold canAcceptLogged
  split_ifs with hle
  · exact logs_pure _
  · refine (logs_lift _).bind fun edge _ => ?_
    split_ifs with hedge
    · exact logs_pure _
    · exact ((logs_isSetLogged hi c).imp fun _ => Entry.InRing.good).bind fun _ _ => logs_pure _

/-- Every word and bit that `accept` addresses is in range, and its loop is left because its
condition has become false. -/
theorem logs_acceptLogged (hi : f.nextIdx < maxReplaySize) (c : ℕ) :
    Logs Entry.Good (f.acceptLogged c) := by
  have hset : ∀ g : NonceFilter, g.nextIdx < maxReplaySize → Logs Entry.Good (g.setLogged c) :=
    fun g hg => (logs_setLogged hg c).imp fun _ => Entry.InRing.good
  have hzero : 0 < maxReplaySize := by decide
  refine (logs_lift _).bind fun accepted _ => ?_
  have hi' : ({ f with accepted } : NonceFilter).nextIdx < maxReplaySize := hi
  dsimp only
  split_ifs with hlt hjump
  · exact hset _ hi
  · exact (logs_lift _).bind fun next _ => hset _ hzero
  · refine (logs_advanceToLogged _ _ hi' le_rfl).bind fun g hg => ?_
    rw [value_advanceToLogged] at hg
    have hidx := nextIdx_advanceTo _ hi' hg
    refine ((logs_advanceLogged hidx).imp fun _ => Entry.InRing.good).bind fun g' hg' => ?_
    rw [value_advanceLogged] at hg'
    exact hset g' (advance_eq_ret hg').2

/-- The loop of `accept` takes fewer rounds than the ring has places: a counter that is further
away starts the ring afresh. -/
lemma atMost_acceptLogged (hi : f.nextIdx < maxReplaySize) (c : ℕ) :
    AtMost Entry.isRound maxReplaySize (f.acceptLogged c) := by
  have hset : ∀ g : NonceFilter, g.nextIdx < maxReplaySize →
      Logs (fun e => e.isRound = false) (g.setLogged c) :=
    fun g hg => (logs_setLogged hg c).imp fun _ => Entry.InRing.not_round
  have hzero : 0 < maxReplaySize := by decide
  have hbranches : AtMost Entry.isRound (0 + maxReplaySize) (f.acceptLogged c) := by
    refine (AtMost.of_logs (logs_lift _)).bind fun accepted _ => ?_
    have hi' : ({ f with accepted } : NonceFilter).nextIdx < maxReplaySize := hi
    dsimp only
    split_ifs with hlt hjump
    · exact .of_logs (hset _ hi)
    · exact .of_logs ((logs_lift _).bind fun next _ => hset _ hzero)
    · have hloop := atMost_advanceToLogged (c := c) (c - f.next) { f with accepted } hi
      refine (hloop.bind (n := 0) fun g hg => ?_).mono (by omega)
      rw [value_advanceToLogged] at hg
      have hadvance := (logs_advanceLogged (nextIdx_advanceTo _ hi' hg)).imp
        fun _ => Entry.InRing.not_round
      refine .of_logs (hadvance.bind fun g' hg' => ?_)
      rw [value_advanceLogged] at hg'
      exact hset g' (advance_eq_ret hg').2
  exact hbranches.mono (by omega)

end Entries

/-! ## Reachable filters -/

/-- The filters that a new filter becomes by accepting counters that `can_accept` let through. -/
inductive Reachable : NonceFilter → Prop
  | new : Reachable new
  | accept {f f' : NonceFilter} {c : ℕ} (h : Reachable f) (hc : c ≤ rejectAfterMessages)
      (ok : f.canAccept c = .ret true) (h' : f.accept c = .ret f') : Reachable f'

/-- A reachable filter remembers some set of counters. -/
lemma Reachable.tracks {f : NonceFilter} (h : Reachable f) : ∃ acc, Tracks f acc := by
  induction h with
  | new => exact ⟨∅, tracks_new⟩
  | accept _ hc ok h' ih =>
    obtain ⟨acc, hacc⟩ := ih
    obtain ⟨f₁, hf₁, h₁⟩ := hacc.accept hc ok
    rw [h'] at hf₁
    cases hf₁
    exact ⟨_, h₁⟩

/-- **The arithmetic of the filter stays in range.** On a reachable filter, and for a counter up to
`REJECT_AFTER_MESSAGES`, `can_accept` comes back, and so does `accept` if the counter was let
through: no sum or difference overflows. Every result of `bitmap_index` on the way is a word of the
bitmap and a bit of the word, and the loop of `accept` is left after at most `MAX_REPLAY_SIZE`
rounds. -/
theorem Reachable.in_range {f : NonceFilter} (h : Reachable f) (c : ℕ)
    (hc : c ≤ rejectAfterMessages) :
    (∃ b entries, f.canAccept c = .ret b ∧ f.canAcceptLogged c = Outcome.ret (b, entries) ∧
      ∀ e ∈ entries, e.Good) ∧
    (f.canAccept c = .ret true → ∃ f' entries, f.accept c = .ret f' ∧
      f.acceptLogged c = Outcome.ret (f', entries) ∧ (∀ e ∈ entries, e.Good) ∧
      entries.countP Entry.isRound ≤ maxReplaySize) := by
  obtain ⟨acc, hacc⟩ := h.tracks
  constructor
  · obtain ⟨b, hb, -⟩ := hacc.canAccept c
    obtain ⟨entries, hentries⟩ := value_eq_ret.mp ((value_canAcceptLogged f c).trans hb)
    exact ⟨b, entries, hb, hentries, logs_canAcceptLogged hacc.idx_lt c b entries hentries⟩
  · intro ok
    obtain ⟨f', hf', -⟩ := hacc.accept hc ok
    obtain ⟨entries, hentries⟩ := value_eq_ret.mp ((value_acceptLogged f c).trans hf')
    exact ⟨f', entries, hf', hentries, logs_acceptLogged hacc.idx_lt c f' entries hentries,
      atMost_acceptLogged hacc.idx_lt c f' entries hentries⟩

/-- The largest counter, after a small one. -/
theorem in_range_largest : ∃ f, new.accept 5 = .ret f ∧ Reachable f ∧
    ∃ f' entries, f.accept rejectAfterMessages = .ret f' ∧
      f.acceptLogged rejectAfterMessages = Outcome.ret (f', entries) ∧ (∀ e ∈ entries, e.Good) ∧
      entries.countP Entry.isRound ≤ maxReplaySize := by
  have hrun : (new.accept 5 >>= fun f => f.canAccept rejectAfterMessages) = .ret true := by
    decide +kernel
  obtain ⟨f, hf, hok⟩ := Outcome.bind_eq_ret.mp hrun
  have hreach : Reachable f := .accept .new (by decide) (by decide) hf
  exact ⟨f, hf, hreach, (Reachable.in_range hreach rejectAfterMessages le_rfl).2 hok⟩

end NonceFilter

end Vlink
