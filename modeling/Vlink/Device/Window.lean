import Vlink.Device.NonceFilter
import Vlink.Lib.Runs

set_option autoImplicit false

/-!
# What the replay filter lets through

`NonceFilter` never accepts a counter twice. Here is the converse: which counters of the window it
lets through. The flags of a slot must be cleared when the slot comes to stand for a new counter,
and `advance` does so once `next` is above `MAX_REPLAY_SIZE`. The test should have been `>=`: when
`next` is exactly `1024` the slot of counter `0` comes to stand for counter `1024` without being
cleared. If counter `0` was accepted and `next` passes `1024` by advancing, counter `1024` is
refused although it was never accepted.

## Main definitions

* `Vlink.NonceFilter.step` — accepting one counter that `can_accept` let through.
* `Vlink.NonceFilter.LeftOver` — the sequences of counters that leave the flag of `0` to `1024`.
* `Vlink.NonceFilter.Window` — what the flags of the window say.

## Main results

* `Vlink.NonceFilter.canAccept_iff_new` — a counter of the window that was never accepted is let
  through, unless it is `1024` and the flag of `0` was left over.
-/

namespace Vlink.NonceFilter

/-- One counter is accepted; `none` if it is too large or `can_accept` refuses it. -/
def step (f : NonceFilter) (c : ℕ) : Option (NonceFilter × List ℕ) :=
  if c ≤ rejectAfterMessages ∧ f.canAccept c = .ret true then
    match f.accept c with
    | .ret f' => some (f', [c])
    | .panic => none
  else none

/-- One above the largest counter of a list. -/
def top (cs : List ℕ) : ℕ := cs.foldl (fun n c => max n (c + 1)) 0

/-- One more counter. -/
@[simp] lemma top_concat (cs : List ℕ) (c : ℕ) : top (cs ++ [c]) = max (top cs) (c + 1) := by
  simp [top]

/-- The counter `d`, accepted after those of `cs`, is reached by advancing past `1024`, while `0`
was accepted. -/
def Passes (cs : List ℕ) (d : ℕ) : Prop :=
  0 ∈ cs ∧ top cs ≤ 1024 ∧ 1024 < d ∧ d < top cs + 1024

/-- When the counters of a list are accepted one after the other, one of them passes `1024`. -/
def LeftOver (cs : List ℕ) : Prop := ∃ pre d post, cs = pre ++ d :: post ∧ Passes pre d

/-- Nothing is left over at first. -/
lemma not_leftOver_nil : ¬ LeftOver [] := by
  rintro ⟨pre, d, post, h, -⟩
  simp at h

/-- One more counter. -/
lemma leftOver_concat {cs : List ℕ} {d : ℕ} :
    LeftOver (cs ++ [d]) ↔ LeftOver cs ∨ Passes cs d := by
  constructor
  · rintro ⟨pre, e, post, h, hp⟩
    rcases List.eq_nil_or_concat post with rfl | ⟨post, e', rfl⟩
    · obtain ⟨hcs, he⟩ := List.append_inj' h rfl
      obtain ⟨rfl, rfl⟩ : cs = pre ∧ d = e := ⟨hcs, by simpa using he⟩
      exact .inr hp
    · rw [List.concat_eq_append, ← List.cons_append, ← List.append_assoc] at h
      obtain ⟨rfl, -⟩ := List.append_inj' h rfl
      exact .inl ⟨pre, e, post, rfl, hp⟩
  · rintro (⟨pre, e, post, rfl, hp⟩ | hp)
    · exact ⟨pre, e, post ++ [d], by simp, hp⟩
    · exact ⟨cs, d, [], rfl, hp⟩

/-! ## The flag of counter 1024 -/

/-- The flags describe the set `acc`, and `old` says whether counter `1024` has the flag of counter
`0`. -/
structure Window (f : NonceFilter) (acc : Finset ℕ) (old : Prop) : Prop extends Marks f acc where
  /-- The flag of counter `0` is still there when its slot comes around. -/
  edge : f.next = 1024 → 0 ∈ acc → f.flagAt 1024 = true
  flag_iff : 1024 < f.next → f.next < 2048 → 1024 ∉ acc → (f.flagAt (f.next - 1024) = true ↔ old)
  not_old : f.next ≤ 1024 → ¬ old

section Window

variable {f : NonceFilter} {acc : Finset ℕ} {old : Prop} {c : ℕ}

/-- Counting keeps the window. -/
lemma Window.counted (h : Window f acc old) : Window f.counted acc old :=
  ⟨h.toMarks.counted, h.edge, h.flag_iff, h.not_old⟩

/-- One `advance` leaves a flag over if it starts at `1024`. -/
lemma Window.advance (h : Window f acc old) (hn : f.next ≤ rejectAfterMessages) :
    ∃ f', f.advance = .ret f' ∧ f'.next = f.next + 1 ∧
      Window f' acc (old ∨ f.next = 1024 ∧ 0 ∈ acc) := by
  have hroom := rejectAfterMessages_add_lt (k := 1) (by decide)
  obtain ⟨f', hf', hnext, -, hm⟩ := h.toMarks.advance hn
  obtain ⟨f'', hf'', -, -, -, hsucc, hone⟩ := advance_spec h.idx_lt (by omega)
  cases hf''.symm.trans hf'
  refine ⟨f', hf', hnext, hm, fun hedge hmem => ?_, fun hgt hlt hnew => ?_, fun hle => ?_⟩
  · rw [hsucc 1023 (by omega) (by omega), show 1023 = f.next - 0 by omega]
    exact h.flag_of_mem 0 hmem (by omega)
  · by_cases heq : f.next = 1024
    · -- the slot that comes around is that of counter `0`
      have hflag : f.flagAt 1024 = true ↔ 0 ∈ acc := by
        refine ⟨fun hfl => ?_, h.edge heq⟩
        rcases h.mem_of_flag 1024 (by omega) le_rfl hfl with ⟨-, hbig⟩ | ⟨-, hmem | ⟨habs, -⟩⟩
        · omega
        · rwa [heq] at hmem
        · omega
      rw [show f'.next - 1024 = 1 by omega, hone, heq, Bool.and_eq_true, hflag]
      simp [h.not_old heq.le]
    · rw [show f'.next - 1024 = (f.next - 1024) + 1 by omega, hsucc _ (by omega) (by omega),
        h.flag_iff (by omega) (by omega) hnew]
      simp [heq]
  · rintro (hold | ⟨heq, -⟩)
    · exact h.not_old (by omega) hold
    · omega

/-- The loop of `accept` leaves a flag over if it passes `1024`. -/
lemma Window.advanceTo (hc : c ≤ rejectAfterMessages) :
    ∀ fuel (f : NonceFilter) (old : Prop), Window f acc old → f.next ≤ c → c - f.next ≤ fuel →
      ∃ f', NonceFilter.advanceTo c fuel f = .ret f' ∧ f'.next = c ∧
        Window f' acc (old ∨ (f.next ≤ 1024 ∧ 1024 < c) ∧ 0 ∈ acc) := by
  intro fuel
  induction fuel with
  | zero =>
    intro f old h hle hfuel
    have hno : ¬ (f.next ≤ 1024 ∧ 1024 < c) := by omega
    exact ⟨f, rfl, by omega, by simpa only [hno, false_and, or_false] using h⟩
  | succ fuel ih =>
    intro f old h hle hfuel
    by_cases hlt : f.next < c
    · obtain ⟨f₁, hf₁, hnext, h₁⟩ := h.advance (by omega)
      obtain ⟨f₂, hf₂, hnext₂, h₂⟩ := ih f₁ _ h₁ (by omega) (by omega)
      refine ⟨f₂, by simp [NonceFilter.advanceTo, hlt, hf₁, hf₂], hnext₂, ?_⟩
      have hsplit : (f.next ≤ 1024 ∧ 1024 < c) ↔
          f.next = 1024 ∨ (f₁.next ≤ 1024 ∧ 1024 < c) := by omega
      rwa [hsplit, or_and_right, ← or_assoc]
    · have hno : ¬ (f.next ≤ 1024 ∧ 1024 < c) := by omega
      exact ⟨f, by simp [NonceFilter.advanceTo, hlt], by omega,
        by simpa only [hno, false_and, or_false] using h⟩

/-- Setting the flag of a counter touches that of `1024` only if it is this counter. -/
lemma Window.set (h : Window f acc old) (hc : c < f.next) (hw : f.next < c + 1024) (old' : Prop)
    (hold : c ≠ 1024 → (old' ↔ old)) :
    ∃ f', f.set c = .ret f' ∧ f'.next = f.next ∧ Window f' (insert c acc) old' := by
  obtain ⟨f', hf', -, -, hm⟩ := h.toMarks.set hc hw
  obtain ⟨w, hset, hflag⟩ := set_spec h.idx_lt hc (Nat.le_of_lt hw)
  cases hset.symm.trans hf'
  refine ⟨_, hf', rfl, hm, fun hedge hmem => ?_, fun hgt hlt hnew => ?_, fun hle => ?_⟩
  · dsimp only at hedge
    rw [hflag 1024 (by omega) le_rfl, Bool.or_eq_true]
    rcases Finset.mem_insert.mp hmem with rfl | hmem
    · omega
    · exact .inr (h.edge hedge hmem)
  · dsimp only at hgt hlt ⊢
    obtain ⟨hne, hnew⟩ : 1024 ≠ c ∧ 1024 ∉ acc := by simpa using hnew
    have hother : f.next - 1024 ≠ f.next - c := by omega
    rw [hflag _ (by omega) (by omega), hold hne.symm, ← h.flag_iff hgt hlt hnew]
    simp [hother]
  · dsimp only at hle
    rw [hold (by omega)]
    exact h.not_old hle

/-- A ring that starts afresh holds no flag. -/
lemma Window.restart (h : Window f acc old) (hc : c ≤ rejectAfterMessages)
    (hj : f.next + 1024 ≤ c) : Window (f.restart c) acc old where
  toMarks := h.toMarks.restart hc hj
  edge hedge _ := by
    dsimp only [NonceFilter.restart] at hedge
    omega
  flag_iff hgt hlt _ := by
    have hnot : ¬ old := h.not_old (by dsimp only [NonceFilter.restart] at hlt; omega)
    simp [NonceFilter.restart, flagAt, hnot]
  not_old hle := by
    dsimp only [NonceFilter.restart] at hle
    omega

end Window

/-! ## Runs of the filter -/

/-- What is known of a filter after the counters of `cs` were accepted. -/
structure Fed (cs : List ℕ) (f : NonceFilter) : Prop where
  tracks : Tracks f cs.toFinset
  window : Window f cs.toFinset (LeftOver cs)
  next_eq : f.next = top cs

/-- A new filter was fed nothing. -/
lemma Fed.new : Fed [] new where
  tracks := tracks_new
  window := ⟨tracks_new.toMarks, by simp [NonceFilter.new], by simp [NonceFilter.new],
    fun _ => not_leftOver_nil⟩
  next_eq := rfl

/-- Accepting one counter. -/
lemma Fed.step {cs evs : List ℕ} {f f' : NonceFilter} {c : ℕ} (h : Fed cs f)
    (hstep : f.step c = some (f', evs)) : Fed (cs ++ evs) f' := by
  unfold NonceFilter.step at hstep
  split_ifs at hstep with hok
  obtain ⟨hc, hok⟩ := hok
  obtain ⟨f₁, hf₁, htracks⟩ := h.tracks.accept hc hok
  rw [hf₁] at hstep
  cases hstep
  have hset : (cs ++ [c]).toFinset = insert c cs.toFinset := by
    ext
    simp
  have hnext := h.next_eq
  -- `Passes` speaks of the state before the step
  have hleft : LeftOver (cs ++ [c]) ↔ LeftOver cs ∨
      0 ∈ cs.toFinset ∧ f.next ≤ 1024 ∧ 1024 < c ∧ c < f.next + 1024 := by
    rw [leftOver_concat, hnext, List.mem_toFinset]
    rfl
  suffices hw : f'.next = max f.next (c + 1) ∧
      Window f' (insert c cs.toFinset) (LeftOver (cs ++ [c])) by
    exact ⟨hset ▸ htracks, hset ▸ hw.2, by rw [hw.1, top_concat, hnext]⟩
  rcases h.tracks.accept_cases hc hok with ⟨hlt, hwin, heq⟩ | ⟨hjump, heq⟩ | ⟨hle, hnear, heq⟩
  · obtain ⟨f₂, hf₂, hn₂, hw⟩ := h.window.counted.set hlt hwin (LeftOver (cs ++ [c]))
      fun _ => hleft.trans (or_iff_left fun hp => by omega)
    cases hf₁.symm.trans (heq.trans hf₂)
    exact ⟨by rw [hn₂]; exact (Nat.max_eq_left hlt).symm, hw⟩
  · obtain ⟨f₂, hf₂, hn₂, hw⟩ := (h.window.counted.restart hc hjump).set (c := c)
      (Nat.lt_succ_self c) (by change c + 1 < c + 1024; omega) (LeftOver (cs ++ [c]))
      fun _ => hleft.trans (or_iff_left fun hp => by omega)
    cases hf₁.symm.trans (heq.trans hf₂)
    have hn : (f.counted.restart c).next = c + 1 := rfl
    exact ⟨by omega, hw⟩
  · obtain ⟨f₂, hf₂, hn₂, hw₂⟩ :=
      Window.advanceTo hc (c - f.next) f.counted _ h.window.counted hle le_rfl
    obtain ⟨f₃, hf₃, hn₃, hw₃⟩ := hw₂.advance (by omega)
    obtain ⟨f₄, hf₄, hn₄, hw⟩ := hw₃.set (c := c) (by omega) (by omega)
      (LeftOver (cs ++ [c])) (by
        intro hne
        have hcounted : f.counted.next = f.next := rfl
        rw [hleft, hcounted]
        constructor
        · rintro (hold | ⟨hmem, hle', hgt, -⟩)
          · exact .inl (.inl hold)
          · exact .inl (.inr ⟨⟨hle', hgt⟩, hmem⟩)
        · rintro ((hold | ⟨⟨hle', hgt⟩, hmem⟩) | ⟨habs, -⟩)
          · exact .inl hold
          · exact .inr ⟨hmem, hle', hgt, hnear⟩
          · omega)
    have hf : f.accept c = .ret f₄ := by
      rw [heq, hf₂, Outcome.ret_bind, hf₃, Outcome.ret_bind, hf₄]
    cases hf₁.symm.trans hf
    exact ⟨by omega, hw⟩

/-- **What the filter lets through.** After counters that `can_accept` let through were accepted one
by one, a counter of the window that is not among them is let through, except that counter `1024` is
refused if the flag of counter `0` was left over for it.

**Proof sketch.** The invariant `Fed` says which flags are set: those of the counters that were
accepted, and the one that was left over. -/
theorem canAccept_iff_new {cs : List ℕ} {f : NonceFilter}
    (run : Run step (fun _ _ => True) new cs f) {c : ℕ} (hnew : c ∉ cs)
    (hwin : f.next < c + maxReplaySize) :
    f.canAccept c = .ret true ↔ ¬ (c = 1024 ∧ LeftOver cs) := by
  rw [maxReplaySize_eq] at hwin
  have h : Fed cs f := by
    refine Run.invariant (I := Fed) Fed.new ?_ run
    intro cs f c f' evs _ ih _ hstep
    exact ih.step hstep
  by_cases hle : f.next ≤ c
  · refine iff_of_true (by simp [canAccept, hle]) ?_
    rintro ⟨rfl, hold⟩
    exact h.window.not_old hle hold
  · have hnew' : c ∉ cs.toFinset := by simpa using hnew
    rw [h.window.canAccept_of_lt (by omega), Outcome.ret.injEq, Bool.and_eq_true,
      decide_eq_true_eq, and_iff_right hwin, Bool.not_eq_true', Bool.eq_false_iff]
    apply not_congr
    by_cases hc : c = 1024
    · subst hc
      rw [h.window.flag_iff (by omega) (by omega) hnew']
      simp
    · refine iff_of_false (fun hfl => ?_) (by simp [hc])
      rcases h.window.mem_of_flag _ (by omega) (by omega) hfl with ⟨habs, -⟩ | ⟨-, hmem⟩
      · omega
      · rw [show f.next - (f.next - c) = c by omega] at hmem
        exact hmem.elim hnew' fun hz => hc hz.1

/-- A late counter, after counters with gaps that never include `0`, is let through. -/
theorem canAccept_late : ∃ f, Run step (fun _ _ => True) new [1, 1020, 1030] f ∧
    1024 ∉ [1, 1020, 1030] ∧ f.next < 1024 + maxReplaySize ∧ f.canAccept 1024 = .ret true := by
  obtain ⟨f, tr, run, check⟩ := exists_run_of_exec step [1, 1020, 1030] new
    (fun r => decide (r.2 = [1, 1020, 1030] ∧ r.1.next < 1024 + maxReplaySize))
    (by decide +kernel)
  obtain ⟨rfl, hwin⟩ := of_decide_eq_true check
  refine ⟨f, run, by decide, hwin, (canAccept_iff_new run (by decide) hwin).mpr ?_⟩
  rintro ⟨-, pre, d, post, h, hzero, -⟩
  have : (0 : ℕ) ∈ [1, 1020, 1030] := h ▸ List.mem_append_left _ hzero
  simp at this

/-- **A late counter is refused.** After `0`, `1023` and `1025` were accepted, counter `1024` is in
the window and was never accepted, but is refused. -/
theorem late_refused : ∃ f, Run step (fun _ _ => True) new [0, 1023, 1025] f ∧
    1024 ∉ [0, 1023, 1025] ∧ f.next < 1024 + maxReplaySize ∧ f.canAccept 1024 = .ret false := by
  obtain ⟨f, tr, run, check⟩ := exists_run_of_exec step [0, 1023, 1025] new
    (fun r => decide (r.2 = [0, 1023, 1025] ∧ r.1.next < 1024 + maxReplaySize ∧
      r.1.canAccept 1024 = .ret false)) (by decide +kernel)
  obtain ⟨rfl, hwin, hrefused⟩ := of_decide_eq_true check
  exact ⟨f, run, by decide, hwin, hrefused⟩

end Vlink.NonceFilter
