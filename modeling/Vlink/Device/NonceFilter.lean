import Mathlib.Data.Finset.Card
import Mathlib.Order.Interval.Finset.Nat
import Vlink.Lib.Bitmap
import Vlink.Noise.Protocol

set_option autoImplicit false

/-!
# The replay filter of a session

`NonceFilter` of `device/peer/session.rs`: the counters below `next` that lie in the last
`MAX_REPLAY_SIZE` places are remembered in a ring of `1024` flags, whose head moves on with
`next`. A counter at or above `next` is always acceptable; one below is looked up in the ring.

## Main definitions

* `Vlink.NonceFilter`, `canAccept`, `accept`, `advance` — the filter as the code computes it,
  with every overflow and index check of the machine arithmetic.
* `Vlink.NonceFilter.Tracks` — the filter remembers a set of accepted counters.
* `Vlink.NonceFilter.feed` — a sequence of counters offered to the filter, each accepted
  exactly when `canAccept` says so.

## Main results

* `Vlink.NonceFilter.Tracks.canAccept`, `Vlink.NonceFilter.Tracks.accept` — the operations
  come back without overflow, a counter is acceptable only if it is not in the set, and
  accepting it adds it to the set.
* `Vlink.NonceFilter.feed_nodup` — no counter is accepted twice.

## Design

Flags are addressed by their distance from the head (`flagAt`), the counter `c` being at
distance `next - c`. Moving the head on keeps every counter on its flag, at a distance one
larger. The flag that comes around to distance `1` is cleared first, except when `next` is
exactly `1024`: then it still holds the flag of counter `0`, which is why `mem_of_flag` has a
second case. A stale flag only makes the filter refuse more.
-/

namespace Vlink

/-- `MAX_REPLAY_SIZE`. -/
def maxReplaySize : ℕ := 1 <<< 10

/-- The number of bits. -/
lemma maxReplaySize_eq : maxReplaySize = 1024 := rfl

/-- `NonceFilter`; `words` and `nextIdx` are the two parts of its `bitmap`. -/
structure NonceFilter where
  next : ℕ
  accepted : ℕ
  words : Bitmap 16
  nextIdx : ℕ
deriving DecidableEq

namespace NonceFilter

/-! ## The filter -/

/-- `NonceFilter::new`. -/
def new : NonceFilter := ⟨0, 0, Bitmap.empty 16, 0⟩

/-- `NonceFilter::bitmap_index`: the word and the bit of the flag of counter `i`. -/
def bitmapIndex (f : NonceFilter) (i : ℕ) : Outcome (ℕ × ℕ) := do
  let offset ← Outcome.subW f.next i
  let slot ←
    if offset ≤ f.nextIdx then Outcome.subW f.nextIdx offset
    else do
      let top ← Outcome.addW 64 maxReplaySize f.nextIdx
      Outcome.subW top offset
  let wordIdx := slot / 64
  let bitIdx ← Outcome.subW slot (wordIdx * 64)
  return (wordIdx, bitIdx)

/-- `NonceFilter::is_set`. -/
def isSet (f : NonceFilter) (i : ℕ) : Outcome Bool := do
  let (wordIdx, bitIdx) ← f.bitmapIndex i
  f.words.test wordIdx bitIdx

/-- `NonceFilter::set`. -/
def set (f : NonceFilter) (i : ℕ) : Outcome NonceFilter := do
  let (wordIdx, bitIdx) ← f.bitmapIndex i
  let words ← f.words.set wordIdx bitIdx
  return { f with words }

/-- `NonceFilter::unset`. -/
def unset (f : NonceFilter) (i : ℕ) : Outcome NonceFilter := do
  let (wordIdx, bitIdx) ← f.bitmapIndex i
  let words ← f.words.clear wordIdx bitIdx
  return { f with words }

/-- `NonceFilter::advance`. -/
def advance (f : NonceFilter) : Outcome NonceFilter := do
  let f ←
    if maxReplaySize < f.next then do
      let old ← Outcome.subW f.next maxReplaySize
      f.unset old
    else pure f
  let next ← Outcome.addW 64 f.next 1
  let head ← Outcome.addW 64 f.nextIdx 1
  return { f with next, nextIdx := head % maxReplaySize }

/-- The loop `while self.next < counter { self.advance(); }`, for at most `fuel` rounds. -/
def advanceTo (counter : ℕ) : ℕ → NonceFilter → Outcome NonceFilter
  | 0, f => .ret f
  | fuel + 1, f =>
    if f.next < counter then do
      let f ← f.advance
      advanceTo counter fuel f
    else .ret f

/-- `NonceFilter::can_accept`. -/
def canAccept (f : NonceFilter) (counter : ℕ) : Outcome Bool :=
  if f.next ≤ counter then .ret true
  else do
    let edge ← Outcome.addW 64 counter maxReplaySize
    if edge ≤ f.next then return false
    let seen ← f.isSet counter
    return !seen

/-- `NonceFilter::accept`. Each round of the loop of the last branch adds one to `next`, so
`counter - next` rounds are enough. -/
def accept (f : NonceFilter) (counter : ℕ) : Outcome NonceFilter := do
  let accepted ← Outcome.addW 64 f.accepted 1
  let f := { f with accepted }
  if counter < f.next then f.set counter
  else if f.next < counter ∧ maxReplaySize ≤ counter - f.next then do
    let next ← Outcome.addW 64 counter 1
    let f := { f with words := Bitmap.empty 16, nextIdx := 0, next }
    f.set counter
  else do
    let f ← advanceTo counter (counter - f.next) f
    let f ← f.advance
    f.set counter

/-! ## Flags by distance -/

/-- The flag at distance `o` from the head: that of counter `next - o`. -/
def flagAt (f : NonceFilter) (o : ℕ) : Bool := f.words.flag (ringSlot 1024 f.nextIdx o)

section Flags

variable {f : NonceFilter} {c : ℕ}

/-- The word and bit of a counter in the window. -/
lemma bitmapIndex_eq (hi : f.nextIdx < 1024) (hc : c < f.next) (hw : f.next ≤ c + 1024) :
    f.bitmapIndex c = .ret (ringSlot 1024 f.nextIdx (f.next - c) / 64,
      ringSlot 1024 f.nextIdx (f.next - c) % 64) := by
  have hmod : ∀ k, k / 64 * 64 ≤ k ∧ k - k / 64 * 64 = k % 64 := by
    intro k
    omega
  simp only [bitmapIndex, Outcome.subW_of_le (Nat.le_of_lt hc), Outcome.ret_bind, ringSlot]
  by_cases ho : f.next - c ≤ f.nextIdx
  · rw [if_pos ho, if_pos ho, Outcome.subW_of_le ho, Outcome.ret_bind,
      Outcome.subW_of_le (hmod _).1, Outcome.ret_bind, (hmod _).2]
    rfl
  · rw [if_neg ho, if_neg ho, maxReplaySize_eq, Outcome.addW_of_lt (by omega), Outcome.ret_bind,
      Outcome.subW_of_le (by omega), Outcome.ret_bind, Outcome.subW_of_le (hmod _).1,
      Outcome.ret_bind, (hmod _).2]
    rfl

/-- Looking up a counter in the window reads the flag at its distance. -/
lemma isSet_eq (hi : f.nextIdx < 1024) (hc : c < f.next) (hw : f.next ≤ c + 1024) :
    f.isSet c = .ret (f.flagAt (f.next - c)) := by
  have hs : ringSlot 1024 f.nextIdx (f.next - c) < 64 * 16 := ringSlot_lt hi (by omega)
  simp only [isSet, bitmapIndex_eq hi hc hw, Outcome.ret_bind]
  exact f.words.test_eq hs

/-- Setting the flag of a counter in the window. -/
lemma set_spec (hi : f.nextIdx < 1024) (hc : c < f.next) (hw : f.next ≤ c + 1024) :
    ∃ w, f.set c = .ret { f with words := w } ∧ ∀ o, 1 ≤ o → o ≤ 1024 →
      ({ f with words := w } : NonceFilter).flagAt o = (decide (o = f.next - c) || f.flagAt o) := by
  have hs : ringSlot 1024 f.nextIdx (f.next - c) < 64 * 16 := ringSlot_lt hi (by omega)
  obtain ⟨w, hset, hflag⟩ := f.words.set_spec hs
  refine ⟨w, by simp [set, bitmapIndex_eq hi hc hw, hset], fun o ho hn => ?_⟩
  simp only [flagAt, hflag]
  congr 1
  exact decide_eq_decide.mpr ⟨fun h => ringSlot_inj ho hn (by omega) (by omega) h,
    fun h => by rw [h]⟩

/-- Clearing the flag of a counter in the window. -/
lemma unset_spec (hi : f.nextIdx < 1024) (hc : c < f.next) (hw : f.next ≤ c + 1024) :
    ∃ w, f.unset c = .ret { f with words := w } ∧ ∀ o, 1 ≤ o → o ≤ 1024 →
      ({ f with words := w } : NonceFilter).flagAt o =
        (!decide (o = f.next - c) && f.flagAt o) := by
  have hs : ringSlot 1024 f.nextIdx (f.next - c) < 64 * 16 := ringSlot_lt hi (by omega)
  obtain ⟨w, hset, hflag⟩ := f.words.clear_spec hs
  refine ⟨w, by simp [unset, bitmapIndex_eq hi hc hw, hset], fun o ho hn => ?_⟩
  simp only [flagAt, hflag]
  congr 2
  exact decide_eq_decide.mpr ⟨fun h => ringSlot_inj ho hn (by omega) (by omega) h,
    fun h => by rw [h]⟩

/-- Moving the head on: `next` grows by one, every flag is at a distance one larger, and the
flag that comes around to distance `1` is cleared once `next` is past `1024`.

**Proof sketch.** The flag cleared by `unset` is that of counter `next - 1024`, at distance
`1024`, which is the position of the old head and so distance `1` from the new one. -/
lemma advance_spec (hi : f.nextIdx < 1024) (hn : f.next + 1 < 2 ^ 64) :
    ∃ f', f.advance = .ret f' ∧ f'.next = f.next + 1 ∧ f'.accepted = f.accepted ∧
      f'.nextIdx < 1024 ∧ (∀ o, 1 ≤ o → o < 1024 → f'.flagAt (o + 1) = f.flagAt o) ∧
      f'.flagAt 1 = (decide (f.next ≤ 1024) && f.flagAt 1024) := by
  have hidx : f.nextIdx + 1 < 2 ^ 64 := by omega
  have hlt : (f.nextIdx + 1) % 1024 < 1024 := Nat.mod_lt _ (by omega)
  by_cases hb : 1024 < f.next
  · obtain ⟨w, hw, hflag⟩ := unset_spec (c := f.next - 1024) hi (by omega) (by omega)
    refine ⟨⟨f.next + 1, f.accepted, w, (f.nextIdx + 1) % 1024⟩, ?_, rfl, rfl, hlt, ?_, ?_⟩
    · simp [advance, maxReplaySize_eq, hb, Outcome.subW_of_le (Nat.le_of_lt hb), hw,
        Outcome.addW_of_lt hn, Outcome.addW_of_lt hidx]
    · intro o ho ho'
      have hne : o ≠ f.next - (f.next - 1024) := by omega
      have := hflag o ho (by omega)
      simp only [flagAt, hne, decide_false, Bool.not_false, Bool.true_and] at this ⊢
      rw [ringSlot_succ hi ho ho', this]
    · have he : 1024 = f.next - (f.next - 1024) := by omega
      have := hflag 1024 (by omega) le_rfl
      simp only [flagAt, ← he, decide_true, Bool.not_true, Bool.false_and] at this ⊢
      rw [ringSlot_one hi, this]
      simp [Nat.not_le.mpr hb]
  · refine ⟨⟨f.next + 1, f.accepted, f.words, (f.nextIdx + 1) % 1024⟩, ?_, rfl, rfl, hlt,
      ?_, ?_⟩
    · simp [advance, maxReplaySize_eq, hb, Outcome.addW_of_lt hn, Outcome.addW_of_lt hidx]
    · intro o ho ho'
      simp only [flagAt, ringSlot_succ hi ho ho']
    · simp [flagAt, ringSlot_one hi, Nat.le_of_not_lt hb]

end Flags

/-- The filter with one more message counted. -/
def counted (f : NonceFilter) : NonceFilter := { f with accepted := f.accepted + 1 }

/-- The filter with an empty ring, whose head is one above the counter `c`. -/
def restart (f : NonceFilter) (c : ℕ) : NonceFilter :=
  { f with words := Bitmap.empty 16, nextIdx := 0, next := c + 1 }

/-! ## The set of accepted counters -/

/-- The flags of the filter describe the set `acc` of accepted counters.

The flag of a counter at distance below `1024` is set if the counter is in `acc`, and only
then, apart from the flag of counter `1024`, which may be a left-over of counter `0`. At
distance `1024` the flag says nothing any more once `next` is past `1024`. -/
structure Marks (f : NonceFilter) (acc : Finset ℕ) : Prop where
  idx_lt : f.nextIdx < 1024
  next_le : f.next ≤ rejectAfterMessages + 1
  lt_next : ∀ c ∈ acc, c < f.next
  flag_of_mem : ∀ c ∈ acc, f.next < c + 1024 → f.flagAt (f.next - c) = true
  mem_of_flag : ∀ o, 1 ≤ o → o ≤ 1024 → f.flagAt o = true →
    o = 1024 ∧ 1024 < f.next ∨
      o ≤ f.next ∧ (f.next - o ∈ acc ∨ f.next - o = 1024 ∧ 0 ∈ acc)

/-- The filter remembers the set `acc` of accepted counters: its flags describe `acc` and
`accepted` is the number of its elements. -/
structure Tracks (f : NonceFilter) (acc : Finset ℕ) : Prop extends Marks f acc where
  card : f.accepted = acc.card

/-- A fresh filter remembers nothing. -/
lemma tracks_new : Tracks new ∅ where
  idx_lt := by decide
  next_le := by decide
  lt_next := by simp
  flag_of_mem := by simp
  mem_of_flag := by simp [flagAt, new]
  card := rfl

section Marks

variable {f : NonceFilter} {acc : Finset ℕ} {c : ℕ}

/-- `rejectAfterMessages` leaves room for a window above it. -/
lemma rejectAfterMessages_add_lt {k : ℕ} (hk : k ≤ 2 ^ 13) :
    rejectAfterMessages + k < 2 ^ 64 := by
  unfold rejectAfterMessages
  omega

/-- There are at most `next` accepted counters. -/
lemma Marks.card_le (h : Marks f acc) : acc.card ≤ f.next := by
  have hsub : acc ⊆ Finset.range f.next := fun c hc => Finset.mem_range.mpr (h.lt_next c hc)
  simpa using Finset.card_le_card hsub

/-- One `advance` keeps the flags right. -/
lemma Marks.advance (h : Marks f acc) (hn : f.next ≤ rejectAfterMessages) :
    ∃ f', f.advance = .ret f' ∧ f'.next = f.next + 1 ∧ f'.accepted = f.accepted ∧
      Marks f' acc := by
  have hroom := rejectAfterMessages_add_lt (k := 1) (by decide)
  obtain ⟨f', hf', hnext, hacc, hidx, hsucc, hone⟩ := advance_spec h.idx_lt (by omega)
  refine ⟨f', hf', hnext, hacc, hidx, by omega, fun c hc => ?_, fun c hc hw => ?_,
    fun o ho ho' hfl => ?_⟩
  · have := h.lt_next c hc
    omega
  · have hlt := h.lt_next c hc
    have ho : f'.next - c = (f.next - c) + 1 := by omega
    rw [ho, hsucc _ (by omega) (by omega)]
    exact h.flag_of_mem c hc (by omega)
  · rcases Nat.eq_or_lt_of_le ho with rfl | hgt
    · -- the flag that came around: it can only be set when `next` is `1024`
      rw [hone, Bool.and_eq_true, decide_eq_true_eq] at hfl
      rcases h.mem_of_flag 1024 (by omega) le_rfl hfl.2 with ⟨-, hbig⟩ | ⟨hle, hmem⟩
      · omega
      · have h1024 : f.next = 1024 := by omega
        rw [h1024] at hmem
        right
        rcases hmem with hmem | ⟨habs, -⟩
        · exact ⟨by omega, Or.inr ⟨by omega, hmem⟩⟩
        · omega
    · obtain ⟨p, rfl⟩ : ∃ p, o = p + 1 := ⟨o - 1, by omega⟩
      rw [hsucc p (by omega) (by omega)] at hfl
      rcases h.mem_of_flag p (by omega) (by omega) hfl with ⟨habs, -⟩ | ⟨hle, hmem⟩
      · omega
      · right
        rw [hnext, show f.next + 1 - (p + 1) = f.next - p by omega]
        exact ⟨by omega, hmem⟩

/-- The loop of `accept` brings `next` up to the counter. -/
lemma Marks.advanceTo (hc : c ≤ rejectAfterMessages) :
    ∀ fuel (f : NonceFilter), Marks f acc → f.next ≤ c → c - f.next ≤ fuel →
      ∃ f', NonceFilter.advanceTo c fuel f = .ret f' ∧ f'.next = c ∧
        f'.accepted = f.accepted ∧ Marks f' acc := by
  intro fuel
  induction fuel with
  | zero =>
    intro f h hle hfuel
    exact ⟨f, rfl, by omega, rfl, h⟩
  | succ fuel ih =>
    intro f h hle hfuel
    by_cases hlt : f.next < c
    · obtain ⟨f₁, hf₁, hnext, hacc, h₁⟩ := h.advance (by omega)
      obtain ⟨f₂, hf₂, hnext₂, hacc₂, h₂⟩ := ih f₁ h₁ (by omega) (by omega)
      exact ⟨f₂, by simp [NonceFilter.advanceTo, hlt, hf₁, hf₂], hnext₂, by omega, h₂⟩
    · exact ⟨f, by simp [NonceFilter.advanceTo, hlt], by omega, rfl, h⟩

/-- Setting the flag of a counter below `next` adds the counter to the set. -/
lemma Marks.set (h : Marks f acc) (hc : c < f.next) (hw : f.next < c + 1024) :
    ∃ f', f.set c = .ret f' ∧ f'.next = f.next ∧ f'.accepted = f.accepted ∧
      Marks f' (insert c acc) := by
  obtain ⟨w, hset, hflag⟩ := set_spec h.idx_lt hc (Nat.le_of_lt hw)
  refine ⟨_, hset, rfl, rfl, h.idx_lt, h.next_le, ?_, ?_, ?_⟩
  · intro d hd
    rcases Finset.mem_insert.mp hd with rfl | hd
    · exact hc
    · exact h.lt_next d hd
  · intro d hd hdw
    have hdn : d < f.next := by
      rcases Finset.mem_insert.mp hd with rfl | hd
      · exact hc
      · exact h.lt_next d hd
    dsimp only at hdw ⊢
    rw [hflag _ (by omega) (by omega)]
    rcases Finset.mem_insert.mp hd with rfl | hd
    · simp
    · simp [h.flag_of_mem d hd hdw]
  · intro o ho ho' hfl
    dsimp only at hfl ⊢
    rw [hflag o ho ho', Bool.or_eq_true, decide_eq_true_eq] at hfl
    rcases hfl with rfl | hfl
    · right
      refine ⟨by omega, Or.inl ?_⟩
      rw [show f.next - (f.next - c) = c by omega]
      exact Finset.mem_insert_self c acc
    · rcases h.mem_of_flag o ho ho' hfl with hbig | ⟨hle, hmem⟩
      · exact Or.inl hbig
      · exact Or.inr ⟨hle, hmem.imp (Finset.mem_insert_of_mem)
          fun ⟨h₁, h₂⟩ => ⟨h₁, Finset.mem_insert_of_mem h₂⟩⟩

/-- Counting a message keeps the flags right. -/
lemma Marks.counted (h : Marks f acc) : Marks f.counted acc :=
  ⟨h.idx_lt, h.next_le, h.lt_next, h.flag_of_mem, h.mem_of_flag⟩

/-- After a jump the ring starts afresh: the old counters are all outside the window. -/
lemma Marks.restart (h : Marks f acc) (hc : c ≤ rejectAfterMessages)
    (hj : f.next + 1024 ≤ c) : Marks (f.restart c) acc where
  idx_lt := Nat.zero_lt_succ 1023
  next_le := Nat.succ_le_succ hc
  lt_next d hd := by
    have := h.lt_next d hd
    dsimp only [NonceFilter.restart]
    omega
  flag_of_mem d hd hw := by
    have := h.lt_next d hd
    dsimp only [NonceFilter.restart] at hw
    omega
  mem_of_flag o _ _ hfl := by simp [NonceFilter.restart, flagAt] at hfl

end Marks

/-! ## The operations on a filter that tracks its counters -/

section Tracks

variable {f : NonceFilter} {acc : Finset ℕ} {c : ℕ}

/-- The answer for a counter below `next`: `false` below the window, else by the flag. -/
lemma Marks.canAccept_of_lt (h : Marks f acc) (hc : c < f.next) :
    f.canAccept c = .ret (decide (f.next < c + 1024) && !f.flagAt (f.next - c)) := by
  have hroom := rejectAfterMessages_add_lt (k := 1025) (by decide)
  have hle := h.next_le
  have hsum : c + 1024 < 2 ^ 64 := by omega
  simp only [NonceFilter.canAccept, Nat.not_le.mpr hc, ↓reduceIte, maxReplaySize_eq,
    Outcome.addW_of_lt hsum, Outcome.ret_bind]
  by_cases hold : c + 1024 ≤ f.next
  · simp [hold, Nat.not_lt.mpr hold]
  · simp [hold, Nat.lt_of_not_le hold, isSet_eq h.idx_lt hc (by omega)]

/-- **`can_accept` is sound**: it comes back for every counter, and answers `true` only for a
counter that was not accepted before.

**Proof sketch.** At or above `next` nothing was accepted. Below the window the answer is
`false`. In the window the flag of an accepted counter is set. -/
theorem Tracks.canAccept (h : Tracks f acc) (c : ℕ) :
    ∃ b, f.canAccept c = .ret b ∧ (b = true → c ∉ acc) := by
  by_cases hge : f.next ≤ c
  · refine ⟨true, by simp [NonceFilter.canAccept, hge], fun _ hmem => ?_⟩
    have := h.lt_next c hmem
    omega
  · refine ⟨_, h.canAccept_of_lt (Nat.lt_of_not_le hge), fun hb hmem => ?_⟩
    rw [Bool.and_eq_true, decide_eq_true_eq] at hb
    simp [h.flag_of_mem c hmem hb.1] at hb

/-- What `accept` does with a counter that `can_accept` let through: `accepted` has room, being the
number of distinct counters below `next`, and one of the three branches is taken. -/
lemma Tracks.accept_cases (h : Tracks f acc) (hc : c ≤ rejectAfterMessages)
    (hok : f.canAccept c = .ret true) :
    c < f.next ∧ f.next < c + 1024 ∧ f.accept c = f.counted.set c ∨
    f.next + 1024 ≤ c ∧ f.accept c = (f.counted.restart c).set c ∨
    f.next ≤ c ∧ c < f.next + 1024 ∧ f.accept c = (do
      let f ← NonceFilter.advanceTo c (c - f.next) f.counted
      let f ← f.advance
      f.set c) := by
  have hroom := rejectAfterMessages_add_lt (k := 2) (by decide)
  have hcount : f.accepted + 1 < 2 ^ 64 := by
    have h₁ := h.card_le
    have h₂ := h.next_le
    rw [h.card]
    omega
  by_cases hlt : c < f.next
  · have hwin : f.next < c + 1024 := by
      rw [h.canAccept_of_lt hlt, Outcome.ret.injEq, Bool.and_eq_true, decide_eq_true_eq] at hok
      exact hok.1
    refine .inl ⟨hlt, hwin, ?_⟩
    simp only [NonceFilter.accept, Outcome.addW_of_lt hcount, Outcome.ret_bind, hlt, ↓reduceIte]
    rfl
  · by_cases hjump : f.next < c ∧ 1024 ≤ c - f.next
    · refine .inr (.inl ⟨by omega, ?_⟩)
      simp only [NonceFilter.accept, Outcome.addW_of_lt hcount, Outcome.ret_bind, hlt,
        ↓reduceIte, maxReplaySize_eq, hjump, and_self,
        Outcome.addW_of_lt (by omega : c + 1 < 2 ^ 64)]
      rfl
    · refine .inr (.inr ⟨by omega, by omega, ?_⟩)
      simp only [NonceFilter.accept, Outcome.addW_of_lt hcount, Outcome.ret_bind, hlt,
        ↓reduceIte, maxReplaySize_eq, hjump]
      rfl

/-- **`accept` records the counter**: for a counter that `can_accept` let through it comes back
without overflow, the counter is in the set from then on, and `next` is above it.

**Proof sketch.** A counter below `next` only gets its flag. A counter a window or more above
`next` starts the ring afresh, and any other counter is reached by advancing; in both cases `next`
ends one above the counter, whose flag is then set at distance `1`. -/
lemma Tracks.accept_next (h : Tracks f acc) (hc : c ≤ rejectAfterMessages)
    (hok : f.canAccept c = .ret true) :
    ∃ f', f.accept c = .ret f' ∧ f'.next = max f.next (c + 1) ∧ Tracks f' (insert c acc) := by
  have hnew : c ∉ acc := by
    obtain ⟨b, hb, hsound⟩ := h.canAccept c
    rw [hok] at hb
    cases hb
    exact hsound rfl
  have hcard : f.counted.accepted = (insert c acc).card := by
    rw [Finset.card_insert_of_notMem hnew, ← h.card]
    rfl
  rcases h.accept_cases hc hok with ⟨hlt, hwin, heq⟩ | ⟨hjump, heq⟩ | ⟨hle, hnear, heq⟩
  · obtain ⟨f', hset, hnext, hacc, hm⟩ := h.toMarks.counted.set hlt hwin
    refine ⟨f', heq.trans hset, ?_, hm, hacc.trans hcard⟩
    rw [hnext]
    show f.next = _
    omega
  · obtain ⟨f', hset, hnext, hacc, hm⟩ := (h.toMarks.counted.restart hc hjump).set (c := c)
      (Nat.lt_succ_self c) (by change c + 1 < c + 1024; omega)
    refine ⟨f', heq.trans hset, ?_, hm, hacc.trans hcard⟩
    rw [hnext]
    show c + 1 = _
    omega
  · obtain ⟨f₁, hf₁, hn₁, ha₁, hm₁⟩ :=
      Marks.advanceTo hc (c - f.next) f.counted h.toMarks.counted hle le_rfl
    obtain ⟨f₂, hf₂, hn₂, ha₂, hm₂⟩ := hm₁.advance (by omega)
    obtain ⟨f₃, hf₃, hn₃, ha₃, hm₃⟩ := hm₂.set (c := c) (by omega) (by omega)
    exact ⟨f₃, by rw [heq, hf₁, Outcome.ret_bind, hf₂, Outcome.ret_bind, hf₃], by omega, hm₃,
      by omega⟩

/-- `accept` comes back, and the filter remembers the counter. -/
theorem Tracks.accept (h : Tracks f acc) (hc : c ≤ rejectAfterMessages)
    (hok : f.canAccept c = .ret true) :
    ∃ f', f.accept c = .ret f' ∧ Tracks f' (insert c acc) := by
  obtain ⟨f', hf', -, ht⟩ := h.accept_next hc hok
  exact ⟨f', hf', ht⟩

end Tracks

/-! ## Sequences of counters -/

/-- Offer the counters of a list to the filter one by one, accepting each exactly when
`can_accept` says so; returns the filter and the accepted counters in order. -/
def feed (f : NonceFilter) : List ℕ → Outcome (NonceFilter × List ℕ)
  | [] => .ret (f, [])
  | c :: cs => do
    let ok ← f.canAccept c
    if ok then do
      let f ← f.accept c
      let (f, taken) ← feed f cs
      return (f, c :: taken)
    else feed f cs

/-- What a run of the filter does to the tracked set: the counters taken are new, pairwise
different, and are what the set grows by. -/
lemma feed_spec {cs : List ℕ} (hcs : ∀ c ∈ cs, c ≤ rejectAfterMessages) :
    ∀ {f : NonceFilter} {acc : Finset ℕ}, Tracks f acc →
      ∃ f' taken, f.feed cs = .ret (f', taken) ∧ taken.Nodup ∧ (∀ c ∈ taken, c ∉ acc) ∧
        Tracks f' (acc ∪ taken.toFinset) := by
  induction cs with
  | nil =>
    intro f acc h
    exact ⟨f, [], rfl, List.nodup_nil, by simp, by simpa using h⟩
  | cons c cs ih =>
    intro f acc h
    have hcs' : ∀ d ∈ cs, d ≤ rejectAfterMessages := fun d hd => hcs d (List.mem_cons_of_mem c hd)
    obtain ⟨b, hb, hsound⟩ := h.canAccept c
    cases b with
    | false =>
      obtain ⟨f', taken, hf', hrest⟩ := ih hcs' h
      exact ⟨f', taken, by simp [feed, hb, hf'], hrest⟩
    | true =>
      obtain ⟨f₁, hf₁, h₁⟩ := h.accept (hcs c List.mem_cons_self) hb
      obtain ⟨f', taken, hf', hnd, hnew, h'⟩ := ih hcs' h₁
      refine ⟨f', c :: taken, by simp [feed, hb, hf₁, hf'], ?_, ?_, ?_⟩
      · exact List.nodup_cons.mpr
          ⟨fun hmem => hnew c hmem (Finset.mem_insert_self c acc), hnd⟩
      · intro d hd
        rcases List.mem_cons.mp hd with rfl | hd
        · exact hsound rfl
        · exact fun hmem => hnew d hd (Finset.mem_insert_of_mem hmem)
      · rwa [List.toFinset_cons, Finset.union_insert, ← Finset.insert_union]

/-- **No counter is accepted twice**: whatever counters up to `REJECT_AFTER_MESSAGES` are
offered to a fresh filter, in whatever order and with whatever gaps, every call comes back and
the accepted counters are pairwise different. -/
theorem feed_nodup (cs : List ℕ) (hcs : ∀ c ∈ cs, c ≤ rejectAfterMessages) :
    ∃ f taken, new.feed cs = .ret (f, taken) ∧ taken.Nodup := by
  obtain ⟨f, taken, hf, hnd, -⟩ := feed_spec hcs tracks_new
  exact ⟨f, taken, hf, hnd⟩

/-- A sequence with a repetition, a jump over the window and a late counter. -/
theorem feed_nodup_jump : (∀ c ∈ [5, 5, 3000, 5, 2999, 2999], c ≤ rejectAfterMessages) ∧
    ∃ f taken, new.feed [5, 5, 3000, 5, 2999, 2999] = .ret (f, taken) ∧ taken.Nodup :=
  ⟨by decide, feed_nodup _ (by decide)⟩

end NonceFilter

end Vlink
