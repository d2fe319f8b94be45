import Mathlib.Data.List.Induction
import Mathlib.Data.List.Pairwise
import Mathlib.Data.Nat.Notation
import Mathlib.Tactic.Lemma
import Mathlib.Tactic.TypeStar

set_option autoImplicit false

/-!
# Runs of a labelled transition system

A system is a step function: in state `s` the action `a` is either not possible or leads to a
new state and emits a list of events. A run starts in a given state and records the events of
its steps in order; each of its steps may be required to meet a condition on the action and the
state it is taken in.

## Main definitions

* `Run step guard s₀ tr s` — some sequence of steps, each meeting `guard`, leads from `s₀` to
  `s` and emits the trace `tr`.
* `exec` — carry out a list of actions.
* `checked` — the system without the steps that fail a check.
* `recorded` — the system with a history variable.
* `Historically P tr` — at each event of a trace, `P` holds of the events before it and of it.
* `Since P Q tr` — an event of `P` has happened, and none of `Q` since then.

## Main results

* `Run.invariant` — what holds at the start and is kept by each step holds at the end.
* `Run.trans` — runs compose.
* `Run.mono`, `Run.upgrade` — other conditions on the steps.
* `Run.exists_final` — steps that make a measure smaller lead to a final state.
* `Run.of_exec`, `exists_run_of_exec` — a list of actions that can be carried out is a run.
* `historically_concat` — a trace is checked event by event.
* `nodup_label_of_historically` — labels that are new each time do not repeat.
* `eq_of_nodup_label` — where labels do not repeat, an event is known by its label.
* `since_append` — what more events do to `Since`; `Since.meet` — which of two kinds of events
  came last.
-/

section Runs

variable {σ α ε : Type*} {step : σ → α → Option (σ × List ε)} {guard guard' : σ → α → Prop}

/-- `Run step guard s₀ tr s`: steps that meet `guard` lead from `s₀` to `s` and emit `tr`. -/
inductive Run (step : σ → α → Option (σ × List ε)) (guard : σ → α → Prop) (s₀ : σ) :
    List ε → σ → Prop
  | nil : Run step guard s₀ [] s₀
  | snoc {tr : List ε} {s s' : σ} {a : α} {evs : List ε} (run : Run step guard s₀ tr s)
      (ok : guard s a) (h : step s a = some (s', evs)) : Run step guard s₀ (tr ++ evs) s'

namespace Run

variable {s₀ s s' : σ} {tr tr' : List ε}

/-- **The invariant rule.** A relation between the trace and the state that holds at the start
and is kept by every step of a run holds at the end of the run. -/
theorem invariant {I : List ε → σ → Prop} (init : I [] s₀)
    (next : ∀ {tr s a s' evs}, Run step guard s₀ tr s → I tr s → guard s a →
      step s a = some (s', evs) → I (tr ++ evs) s')
    (run : Run step guard s₀ tr s) : I tr s := by
  induction run with
  | nil => exact init
  | snoc run ok h ih => exact next run ih ok h

/-- Runs compose. -/
theorem trans (run : Run step guard s₀ tr s) (run' : Run step guard s tr' s') :
    Run step guard s₀ (tr ++ tr') s' := by
  induction run' with
  | nil => simpa using run
  | snoc _ ok h ih =>
    rw [← List.append_assoc]
    exact ih.snoc ok h

/-- **Progress.** If a step that keeps the invariant and makes a measure smaller can be taken in
every state that is not final, then a run leads to a final state. -/
theorem exists_final (I : List ε → σ → Prop) (final : σ → Prop) (μ : σ → ℕ) (init : I [] s₀)
    (next : ∀ tr s, I tr s → ¬ final s →
      ∃ a s' evs, guard s a ∧ step s a = some (s', evs) ∧ I (tr ++ evs) s' ∧ μ s' < μ s) :
    ∃ tr s, Run step guard s₀ tr s ∧ I tr s ∧ final s := by
  -- the run so far is extended until the measure cannot become smaller
  have go : ∀ k tr s, μ s = k → Run step guard s₀ tr s → I tr s →
      ∃ tr s, Run step guard s₀ tr s ∧ I tr s ∧ final s := by
    intro k
    induction k using Nat.strongRecOn with
    | ind k ih =>
      intro tr s hk run hs
      by_cases hf : final s
      · exact ⟨tr, s, run, hs, hf⟩
      · obtain ⟨a, s', evs, ok, h, hs', hlt⟩ := next tr s hs hf
        exact ih _ (hk ▸ hlt) _ s' rfl (run.snoc ok h) hs'
  exact go _ [] s₀ rfl .nil init

/-- A run stays a run when the condition on its steps is weakened. -/
theorem mono (hg : ∀ s a, guard s a → guard' s a) (run : Run step guard s₀ tr s) :
    Run step guard' s₀ tr s := by
  induction run with
  | nil => exact .nil
  | snoc _ ok h ih => exact ih.snoc (hg _ _ ok) h

/-- A run stays a run under another condition, if the steps that it takes meet it. -/
theorem upgrade (run : Run step guard s₀ tr s)
    (hg : ∀ {past s a s' evs rest}, Run step guard s₀ past s → guard s a →
      step s a = some (s', evs) → tr = past ++ evs ++ rest → guard' s a) :
    Run step guard' s₀ tr s := by
  induction run with
  | nil => exact .nil
  | snoc run ok h ih =>
    refine (ih fun run ok h heq => ?_).snoc (hg run ok h (List.append_nil _).symm) h
    exact hg run ok h (by rw [heq, List.append_assoc])

end Run

/-- Carry out a list of actions. -/
def exec (step : σ → α → Option (σ × List ε)) (s : σ) : List α → Option (σ × List ε)
  | [] => some (s, [])
  | a :: as =>
    match step s a with
    | none => none
    | some (s', evs) => (exec step s' as).map fun r => (r.1, evs ++ r.2)

/-- A list of actions that can be carried out, each of whose steps meets the condition, is a
run. -/
theorem Run.of_exec {as : List α} (hg : ∀ s, ∀ a ∈ as, guard s a) :
    ∀ {s s' : σ} {tr : List ε}, exec step s as = some (s', tr) → Run step guard s tr s' := by
  induction as with
  | nil =>
    intro s s' tr h
    simp only [exec, Option.some.injEq, Prod.mk.injEq] at h
    obtain ⟨rfl, rfl⟩ := h
    exact .nil
  | cons a as ih =>
    intro s s' tr h
    rw [exec] at h
    cases hs : step s a with
    | none => simp [hs] at h
    | some r =>
      obtain ⟨s₁, evs⟩ := r
      simp only [hs, Option.map_eq_some_iff, Prod.mk.injEq] at h
      obtain ⟨⟨s₂, tr'⟩, hrec, rfl, rfl⟩ := h
      have first : Run step guard s ([] ++ evs) s₁ := .snoc .nil (hg s a (by simp)) hs
      exact first.trans (ih (fun s b hb => hg s b (by simp [hb])) hrec)

/-- If a list of actions can be carried out and its outcome passes a check, then a run leads to a
state that passes it. -/
theorem exists_run_of_exec (step : σ → α → Option (σ × List ε)) (as : List α) (s : σ)
    (check : σ × List ε → Bool)
    (h : (exec step s as).any check = true) :
    ∃ s' tr, Run step (fun _ _ => True) s tr s' ∧ check (s', tr) = true := by
  cases hr : exec step s as with
  | none => simp [hr] at h
  | some r => exact ⟨r.1, r.2, Run.of_exec (fun _ _ _ => trivial) hr, by simpa [hr] using h⟩

/-- The system that only takes the steps that pass a check. -/
def checked (step : σ → α → Option (σ × List ε)) (ok : σ → α → Bool) (s : σ) (a : α) :
    Option (σ × List ε) :=
  if ok s a then step s a else none

/-- The runs with checked steps are the runs whose steps pass the check. -/
lemma Run.of_checked {ok : σ → α → Bool} {s s' : σ} {tr : List ε}
    (run : Run (checked step ok) guard s tr s') : Run step (fun s a => ok s a = true) s tr s' := by
  induction run with
  | nil => exact .nil
  | snoc _ _ h ih =>
    unfold checked at h
    split_ifs at h with hok
    exact ih.snoc hok h

section History

variable {τ : Type*} {obs : σ → α → List τ} {s s' : σ} {log log' : List τ} {tr evs : List ε}

/-- The system with a history variable: `obs` says what is recorded of a step. -/
def recorded (step : σ → α → Option (σ × List ε)) (obs : σ → α → List τ) (x : σ × List τ) (a : α) :
    Option ((σ × List τ) × List ε) :=
  (step x.1 a).map fun r => ((r.1, x.2 ++ obs x.1 a), r.2)

/-- A step that is recorded. -/
lemma recorded_eq_some {a : α} : recorded step obs (s, log) a = some ((s', log'), evs) ↔
    step s a = some (s', evs) ∧ log' = log ++ obs s a := by
  simp only [recorded, Option.map_eq_some_iff, Prod.exists, Prod.mk.injEq]
  constructor
  · rintro ⟨_, _, h, ⟨rfl, rfl⟩, rfl⟩
    exact ⟨h, rfl⟩
  · rintro ⟨h, rfl⟩
    exact ⟨s', evs, h, ⟨rfl, rfl⟩, rfl⟩

/-- The history does not matter for what can happen. -/
lemma Run.of_recorded {guard : σ × List τ → α → Prop} {x x' : σ × List τ}
    (hg : ∀ x a, guard x a → guard' x.1 a)
    (run : Run (recorded step obs) guard x tr x') : Run step guard' x.1 tr x'.1 := by
  induction run with
  | nil => exact .nil
  | snoc _ ok h ih => exact ih.snoc (hg _ _ ok) (recorded_eq_some.mp h).1

end History

end Runs

section Traces

variable {ε : Type*} {P Q : List ε → ε → Prop} {tr : List ε} {e : ε}

/-- At each event of the trace, `P` holds of the events before it and of the event. -/
def Historically (P : List ε → ε → Prop) (tr : List ε) : Prop :=
  ∀ past e rest, tr = past ++ e :: rest → P past e

/-- Nothing has happened yet. -/
lemma historically_nil : Historically P [] := by
  intro past e rest h
  simp at h

/-- A trace is checked event by event. -/
theorem historically_concat : Historically P (tr ++ [e]) ↔ Historically P tr ∧ P tr e := by
  constructor
  · refine fun h => ⟨fun past e' rest heq => ?_, h tr e [] rfl⟩
    exact h past e' (rest ++ [e]) (by simp [heq])
  · rintro ⟨h, he⟩ past e' rest heq
    rcases List.eq_nil_or_concat rest with rfl | ⟨rest', x, rfl⟩
    · obtain ⟨rfl, h'⟩ := List.append_inj' heq rfl
      cases h'
      exact he
    · have hsplit : tr ++ [e] = (past ++ e' :: rest') ++ [x] := by simpa using heq
      exact h past e' rest' (List.append_inj' hsplit rfl).1

/-- Two more events. -/
lemma historically_concat₂ {e' : ε} :
    Historically P (tr ++ [e, e']) ↔ Historically P tr ∧ P tr e ∧ P (tr ++ [e]) e' := by
  rw [show tr ++ [e, e'] = (tr ++ [e]) ++ [e'] by simp, historically_concat, historically_concat,
    and_assoc]

/-- Three more events. -/
lemma historically_concat₃ {e' e'' : ε} :
    Historically P (tr ++ [e, e', e'']) ↔
      Historically P tr ∧ P tr e ∧ P (tr ++ [e]) e' ∧ P (tr ++ [e, e']) e'' := by
  rw [show tr ++ [e, e', e''] = (tr ++ [e, e']) ++ [e''] by simp, historically_concat,
    historically_concat₂, and_assoc, and_assoc]

/-- A list of events of which `P` holds whatever came before. -/
lemma Historically.append (h : Historically P tr) {evs : List ε}
    (hevs : ∀ past, ∀ e ∈ evs, P past e) : Historically P (tr ++ evs) := by
  induction evs using List.reverseRecOn with
  | nil => simpa using h
  | append_singleton evs e ih =>
    rw [← List.append_assoc, historically_concat]
    exact ⟨ih fun past e' he' => hevs past e' (by simp [he']), hevs _ e (by simp)⟩

/-- If no event carries a label that an earlier one has, then labels do not repeat. -/
theorem nodup_label_of_historically {ι : Type*} {f : ε → Option ι}
    (h : Historically (fun past e => ∀ i, f e = some i → ∀ e' ∈ past, f e' ≠ some i) tr) :
    (tr.filterMap f).Nodup := by
  induction tr using List.reverseRecOn with
  | nil => exact List.nodup_nil
  | append_singleton tr e ih =>
    obtain ⟨h, he⟩ := historically_concat.mp h
    rw [List.filterMap_append]
    cases hf : f e with
    | none => simpa [hf] using ih h
    | some i =>
      refine List.nodup_append.mpr ⟨ih h, by simp [hf], ?_⟩
      rintro j hj k hk rfl
      obtain ⟨e', he', hj⟩ := List.mem_filterMap.mp hj
      simp only [hf, List.filterMap_cons, List.filterMap_nil, List.mem_singleton] at hk
      exact he i hf e' he' (hj.trans (congrArg some hk))

/-- If no two events of a trace carry the same label, then an event is known by its label. -/
theorem eq_of_nodup_label {ι : Type*} {f : ε → Option ι} (h : (tr.filterMap f).Nodup) {e e' : ε}
    {i : ι} (he : e ∈ tr) (he' : e' ∈ tr) (hi : f e = some i) (hi' : f e' = some i) : e = e' := by
  have symm : Std.Symm fun a b : ε => ∀ i, f a = some i → ∀ j, f b = some j → i ≠ j :=
    ⟨fun a b hab i hi j hj => (hab j hj i hi).symm⟩
  by_contra hne
  exact (List.pairwise_filterMap.mp h).forall he he' hne i hi i hi' rfl

end Traces

section Since

variable {ε : Type*} {P Q P' Q' : ε → Prop} {tr evs : List ε} {e : ε}

/-- An event of `P` has happened, and none of `Q` since then. -/
def Since (P Q : ε → Prop) (tr : List ε) : Prop :=
  ∃ past e rest, tr = past ++ e :: rest ∧ P e ∧ ∀ x ∈ rest, ¬ Q x

/-- Nothing has happened at first. -/
lemma not_since_nil : ¬ Since P Q [] := by
  rintro ⟨past, e, rest, h, -⟩
  simp at h

/-- One more event. -/
lemma since_concat : Since P Q (tr ++ [e]) ↔ P e ∨ Since P Q tr ∧ ¬ Q e := by
  constructor
  · rintro ⟨past, x, rest, heq, hx, hrest⟩
    rcases List.eq_nil_or_concat rest with rfl | ⟨rest, y, rfl⟩
    · obtain ⟨-, h⟩ := List.append_inj' heq rfl
      cases h
      exact .inl hx
    · have hsplit : tr ++ [e] = (past ++ x :: rest) ++ [y] := by simpa using heq
      obtain ⟨rfl, h⟩ := List.append_inj' hsplit rfl
      cases h
      exact .inr ⟨⟨past, x, rest, rfl, hx, fun z hz => hrest z (by simp [hz])⟩, hrest e (by simp)⟩
  · rintro (he | ⟨⟨past, x, rest, rfl, hx, hrest⟩, he⟩)
    · exact ⟨tr, e, [], rfl, he, by simp⟩
    · refine ⟨past, x, rest ++ [e], by simp, hx, fun y hy => ?_⟩
      rcases List.mem_append.mp hy with hy | hy
      · exact hrest y hy
      · rwa [List.mem_singleton.mp hy]

/-- More events. -/
theorem since_append :
    Since P Q (tr ++ evs) ↔ Since P Q evs ∨ Since P Q tr ∧ ∀ x ∈ evs, ¬ Q x := by
  induction evs using List.reverseRecOn with
  | nil => simp [not_since_nil]
  | append_singleton evs e ih =>
    rw [← List.append_assoc, since_concat, since_concat, ih]
    simp only [List.mem_append, List.mem_singleton, or_imp, forall_and, forall_eq]
    tauto

/-- Of two kinds of events, each of which ends what the other began, only one can be the last. -/
theorem Since.meet (h : Since P Q tr) (h' : Since P' Q' tr) (hP : ∀ e, P e → Q' e)
    (hP' : ∀ e, P' e → Q e) : ∃ e ∈ tr, P e ∧ P' e := by
  induction tr using List.reverseRecOn with
  | nil => exact absurd h not_since_nil
  | append_singleton tr e ih =>
    rw [since_concat] at h h'
    rcases h with he | ⟨h, he⟩
    · rcases h' with he' | ⟨-, he'⟩
      · exact ⟨e, by simp, he, he'⟩
      · exact absurd (hP e he) he'
    · rcases h' with he' | ⟨h', -⟩
      · exact absurd (hP' e he') he
      · obtain ⟨x, hx, hpx⟩ := ih h h'
        exact ⟨x, by simp [hx], hpx⟩

/-- Events that are neither of `P` nor of `Q` do not matter. -/
lemma since_filter {f : ε → Bool} (hP : ∀ e, P e → f e = true) (hQ : ∀ e, Q e → f e = true) :
    Since P Q (tr.filter f) ↔ Since P Q tr := by
  induction tr using List.reverseRecOn with
  | nil => rfl
  | append_singleton tr e ih =>
    rw [List.filter_append]
    cases he : f e with
    | true => rw [List.filter_cons_of_pos he, List.filter_nil, since_concat, since_concat, ih]
    | false =>
      have hnP : ¬ P e := fun h => by simp [hP e h] at he
      have hnQ : ¬ Q e := fun h => by simp [hQ e h] at he
      rw [List.filter_cons_of_neg (by simp [he]), List.filter_nil, List.append_nil, since_concat,
        ih]
      simp [hnP, hnQ]

/-- Whether an event of `P` has happened and none of `Q` since can be found out by going through
the trace. -/
instance [DecidablePred P] [DecidablePred Q] : Decidable (Since P Q tr) :=
  decidable_of_iff
    (tr.foldl (fun held e => decide (P e) || (held && !decide (Q e))) false = true) <| by
      induction tr using List.reverseRecOn with
      | nil => simp [not_since_nil]
      | append_singleton tr e ih => simp [since_concat, ← ih]

end Since
