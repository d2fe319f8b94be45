import Vlink.Lib.Outcome

set_option autoImplicit false

/-!
# Computations that keep a log

A function that is written once more with calls of `Logged.log` in it computes the same value, and
returns what was logged besides. What holds of each entry of the log is then a statement about what
the function does on the way.

## Main definitions

* `Logged ω α` — a call that returns a value and a log, or panics; `Logged.log` and `Logged.lift`.
* `Logged.value` — the call without the log.
* `Logged.Logs P x` — every entry that `x` logs satisfies `P`.
* `Logged.AtMost p n x` — at most `n` entries that `x` logs satisfy `p`.

## Main results

* `Logged.value_bind` — forgetting the log goes through a sequence of calls.
* `Logged.Logs.bind`, `Logged.AtMost.bind` — the entries of two calls in sequence.
-/

/-- A call that keeps a log of entries `ω`. -/
def Logged (ω α : Type) := Outcome (α × List ω)

namespace Logged

variable {ω α β : Type}

/-- Run `f` on the returned value and append its log. -/
protected def bind (x : Logged ω α) (f : α → Logged ω β) : Logged ω β :=
  Outcome.bind x fun (a, l) => Outcome.bind (f a) fun (b, l') => .ret (b, l ++ l')

instance : Monad (Logged ω) where
  pure a := Outcome.ret (a, [])
  bind := Logged.bind

/-- Log an entry. -/
def log (e : ω) : Logged ω Unit := Outcome.ret ((), [e])

/-- A call that logs nothing. -/
def lift (x : Outcome α) : Logged ω α := Outcome.bind x fun a => .ret (a, [])

/-- The call without the log. -/
def value (x : Logged ω α) : Outcome α := Outcome.bind x fun r => .ret r.1

/-- Two calls return, one after the other. -/
lemma bind_eq_ret {x : Logged ω α} {f : α → Logged ω β} {b : β} {l : List ω} :
    (x >>= f) = Outcome.ret (b, l) ↔
      ∃ a l₁ l₂, x = Outcome.ret (a, l₁) ∧ f a = Outcome.ret (b, l₂) ∧ l = l₁ ++ l₂ := by
  change Logged.bind x f = _ ↔ _
  unfold Logged.bind
  constructor
  · intro h
    obtain ⟨⟨a, l₁⟩, hx, h⟩ := Outcome.bind_eq_ret.mp h
    obtain ⟨⟨b', l₂⟩, hf, h⟩ := Outcome.bind_eq_ret.mp h
    cases h
    exact ⟨a, l₁, l₂, hx, hf, rfl⟩
  · rintro ⟨a, l₁, l₂, hx, hf, rfl⟩
    rw [hx]
    change Outcome.bind (f a) _ = _
    rw [hf]
    rfl

/-- A call whose value came back kept some log. -/
lemma value_eq_ret {x : Logged ω α} {a : α} :
    x.value = .ret a ↔ ∃ l, x = Outcome.ret (a, l) := by
  unfold value
  constructor
  · intro h
    obtain ⟨⟨a', l⟩, hx, h⟩ := Outcome.bind_eq_ret.mp h
    cases h
    exact ⟨l, hx⟩
  · rintro ⟨l, rfl⟩
    rfl

/-! ## Values -/

/-- The value of `pure`. -/
@[simp] lemma value_pure (a : α) : (pure a : Logged ω α).value = .ret a := rfl

/-- The value of `log`. -/
@[simp] lemma value_log (e : ω) : (log e).value = .ret () := rfl

/-- The value of `lift`. -/
@[simp] lemma value_lift (x : Outcome α) : (lift x : Logged ω α).value = x := by
  cases x <;> rfl

/-- Forgetting the log goes through a sequence of calls. -/
@[simp] theorem value_bind (x : Logged ω α) (f : α → Logged ω β) :
    (x >>= f).value = x.value >>= fun a => (f a).value := by
  change (Logged.bind x f).value = Outcome.bind x.value _
  unfold Logged.bind value
  cases x with
  | panic => rfl
  | ret r =>
    obtain ⟨a, l⟩ := r
    change Outcome.bind (Outcome.bind (f a) _) _ = Outcome.bind (f a) _
    cases f a <;> rfl

/-- The value of a branch. -/
@[simp] lemma value_ite (c : Prop) [Decidable c] (x y : Logged ω α) :
    (if c then x else y).value = if c then x.value else y.value := by
  split <;> rfl

/-! ## Entries -/

/-- Every entry that the call logs satisfies `P`. -/
def Logs (P : ω → Prop) (x : Logged ω α) : Prop :=
  ∀ a l, x = Outcome.ret (a, l) → ∀ e ∈ l, P e

/-- At most `n` entries that the call logs satisfy `p`. -/
def AtMost (p : ω → Bool) (n : ℕ) (x : Logged ω α) : Prop :=
  ∀ a l, x = Outcome.ret (a, l) → l.countP p ≤ n

section Entries

variable {P : ω → Prop} {p : ω → Bool} {x : Logged ω α} {f : α → Logged ω β} {m n : ℕ}

/-- `pure` logs nothing. -/
lemma logs_pure (a : α) : Logs P (pure a : Logged ω α) := by
  rintro _ _ ⟨⟩ e he
  cases he

/-- `log` logs its event. -/
lemma logs_log {e : ω} (h : P e) : Logs P (log e) := by
  rintro _ _ ⟨⟩ e' he'
  rwa [List.mem_singleton.mp he']

/-- `lift` logs nothing. -/
lemma logs_lift (y : Outcome α) : Logs P (lift y : Logged ω α) := by
  intro a l h e he
  cases y with
  | panic => cases h
  | ret a' =>
    cases h
    cases he

/-- Two calls that log only such events. -/
theorem Logs.bind (hx : Logs P x) (hf : ∀ a, x.value = .ret a → Logs P (f a)) :
    Logs P (x >>= f) := by
  intro b l h e he
  obtain ⟨a, l₁, l₂, hx', hf', rfl⟩ := bind_eq_ret.mp h
  rcases List.mem_append.mp he with he | he
  · exact hx a l₁ hx' e he
  · exact hf a (value_eq_ret.mpr ⟨l₁, hx'⟩) b l₂ hf' e he

/-- A weaker condition holds too. -/
lemma Logs.imp {Q : ω → Prop} (h : Logs P x) (hPQ : ∀ e, P e → Q e) : Logs Q x :=
  fun a l hx e he => hPQ e (h a l hx e he)

/-- An entry counts once, if at all. -/
lemma atMost_log (e : ω) : AtMost p (if p e then 1 else 0) (log e) := by
  rintro _ _ ⟨⟩
  simp [List.countP_cons]

/-- None is at most any number. -/
lemma AtMost.of_logs (h : Logs (fun e => p e = false) x) : AtMost p n x := by
  intro a l hx
  have : l.countP p = 0 := List.countP_eq_zero.mpr fun e he => by simp [h a l hx e he]
  omega

/-- The bounds of two calls add up. -/
theorem AtMost.bind (hx : AtMost p m x) (hf : ∀ a, x.value = .ret a → AtMost p n (f a)) :
    AtMost p (m + n) (x >>= f) := by
  intro b l h
  obtain ⟨a, l₁, l₂, hx', hf', rfl⟩ := bind_eq_ret.mp h
  rw [List.countP_append]
  exact Nat.add_le_add (hx a l₁ hx') (hf a (value_eq_ret.mpr ⟨l₁, hx'⟩) b l₂ hf')

/-- A weaker bound holds too. -/
lemma AtMost.mono (h : AtMost p m x) (hmn : m ≤ n) : AtMost p n x :=
  fun a l hx => Nat.le_trans (h a l hx) hmn

end Entries

end Logged
