import Mathlib.Algebra.Order.Ring.Nat

set_option autoImplicit false

/-!
# Computations that return or panic

A call of a Rust function either returns a value or panics: an index out of range, a failed
`unwrap`, an arithmetic overflow, a `todo!`. `Outcome α` records which of the two happened.
Errors that the code hands back to its caller (`Result`) are ordinary values and live inside
the returned value, so a function with both behaviours has the type
`Outcome (Except ε α)`.

## Main definitions

* `Outcome` — a returned value, or a panic; `Outcome.bind` runs one call after another.
* `Outcome.Returns` — the call comes back.
* `Outcome.propagate`, `Outcome.unwrap` — the operator `?`, and `unwrap`, on a `Result`.
* `Outcome.addW`, `Outcome.subW` — addition and subtraction of `w`-bit words, which panic on
  overflow.

## Main results

* `Outcome.bind_eq_ret` — what is known of two calls in sequence that came back.
* `Outcome.returns_bind` — a sequence comes back when both calls do.
-/

/-- The outcome of a call: a returned value, or a panic. -/
inductive Outcome (α : Type) where
  /-- The call returned `a`. -/
  | ret (a : α)
  /-- The call panicked; the task that made it is gone. -/
  | panic
deriving DecidableEq, Repr

namespace Outcome

variable {α β γ : Type}

/-- Run `f` on the returned value; a panic stays a panic. -/
protected def bind (x : Outcome α) (f : α → Outcome β) : Outcome β :=
  match x with
  | ret a => f a
  | panic => panic

instance : Monad Outcome where
  pure := ret
  bind := Outcome.bind

/-- `pure` returns. -/
@[simp] lemma pure_eq (a : α) : (pure a : Outcome α) = ret a := rfl

/-- A call that returns goes on. -/
@[simp] lemma ret_bind (a : α) (f : α → Outcome β) : (ret a >>= f) = f a := rfl

/-- A panic ends the call. -/
@[simp] lemma panic_bind (f : α → Outcome β) : ((panic : Outcome α) >>= f) = panic := rfl

/-- A function of a result. -/
@[simp] lemma map_ret (f : α → β) (a : α) : f <$> (ret a) = ret (f a) := rfl

/-- A panic has no result. -/
@[simp] lemma map_panic (f : α → β) : f <$> (panic : Outcome α) = panic := rfl

instance : LawfulMonad Outcome :=
  LawfulMonad.mk' Outcome (fun x => by cases x <;> rfl) (fun _ _ => rfl)
    (fun x _ _ => by cases x <;> rfl)

/-- A sequence of two calls returned `b` iff the first returned some `a` and the second
returned `b` on it. -/
theorem bind_eq_ret {x : Outcome α} {f : α → Outcome β} {b : β} :
    (x >>= f) = ret b ↔ ∃ a, x = ret a ∧ f a = ret b := by
  cases x with
  | ret a => simp
  | panic => simp

/-- The call comes back. -/
def Returns (x : Outcome α) : Prop := ∃ a, x = ret a

/-- What returns, returns. -/
@[simp] lemma returns_ret (a : α) : (ret a).Returns := ⟨a, rfl⟩

/-- A panic does not return. -/
@[simp] lemma not_returns_panic : ¬ (panic : Outcome α).Returns := by
  rintro ⟨a, h⟩
  cases h

/-- A call that does not panic comes back. -/
lemma returns_iff_ne_panic {x : Outcome α} : x.Returns ↔ x ≠ panic := by
  cases x <;> simp

/-- A sequence of two calls comes back when the first does and the second does on whatever
the first returned. -/
theorem returns_bind {x : Outcome α} {f : α → Outcome β} (hx : x.Returns)
    (hf : ∀ a, x = ret a → (f a).Returns) : (x >>= f).Returns := by
  obtain ⟨a, rfl⟩ := hx
  exact hf a rfl

/-- And only then. -/
lemma returns_bind_iff {x : Outcome α} {f : α → Outcome β} :
    (x >>= f).Returns ↔ x.Returns ∧ ∀ a, x = ret a → (f a).Returns := by
  constructor
  · rintro ⟨b, hb⟩
    obtain ⟨a, rfl, hf⟩ := bind_eq_ret.mp hb
    refine ⟨returns_ret a, fun a' ha' => ?_⟩
    cases ha'
    exact ⟨b, hf⟩
  · rintro ⟨hx, hf⟩
    exact returns_bind hx hf

/-- `x?` and the rest of the function: an error is handed back to the caller at once. -/
def propagate {ε : Type} (x : Except ε α) (f : α → Outcome (Except ε β)) :
    Outcome (Except ε β) :=
  match x with
  | .ok a => f a
  | .error e => ret (.error e)

/-- `?` goes on with the value. -/
@[simp] lemma propagate_ok {ε : Type} (a : α) (f : α → Outcome (Except ε β)) :
    propagate (.ok a) f = f a := rfl

/-- `x?` and the rest succeed when `x` is a value and the rest succeeds on it. -/
lemma propagate_eq_ok {ε : Type} {x : Except ε α} {f : α → Outcome (Except ε β)} {b : β} :
    propagate x f = .ret (.ok b) ↔ ∃ a, x = .ok a ∧ f a = .ret (.ok b) := by
  cases x with
  | error e =>
    constructor
    · intro h
      cases h
    · rintro ⟨a, ha, -⟩
      cases ha
  | ok a => simp

/-- `x?` and the rest come back when the rest does on the value of `x`. -/
lemma returns_propagate {ε : Type} {x : Except ε α} {f : α → Outcome (Except ε β)}
    (hf : ∀ a, x = .ok a → (f a).Returns) : (propagate x f).Returns := by
  cases x with
  | ok a => exact hf a rfl
  | error e => exact returns_ret _

/-- `Result::unwrap`: an error panics. -/
def unwrap {ε : Type} : Except ε α → Outcome α
  | .ok a => ret a
  | .error _ => panic

/-- `unwrap` of a value. -/
@[simp] lemma unwrap_ok {ε : Type} (a : α) : unwrap (.ok a : Except ε α) = ret a := rfl

/-- `unwrap` of an error panics. -/
@[simp] lemma unwrap_error {ε : Type} (e : ε) : unwrap (.error e : Except ε α) = panic := rfl

/-- `unwrap` came back with the value of the `Result`. -/
lemma unwrap_eq_ret {ε : Type} {x : Except ε α} {a : α} : unwrap x = ret a ↔ x = .ok a := by
  cases x <;> simp

/-- Addition of `w`-bit unsigned words: a sum that needs more than `w` bits panics. -/
def addW (w a b : ℕ) : Outcome ℕ := if a + b < 2 ^ w then ret (a + b) else panic

/-- Subtraction of `w`-bit unsigned words: a negative difference panics. -/
def subW (a b : ℕ) : Outcome ℕ := if b ≤ a then ret (a - b) else panic

/-- A sum that fits is returned. -/
lemma addW_of_lt {w a b : ℕ} (h : a + b < 2 ^ w) : addW w a b = ret (a + b) := if_pos h

/-- A difference that is not negative is returned. -/
lemma subW_of_le {a b : ℕ} (h : b ≤ a) : subW a b = ret (a - b) := if_pos h

/-- A sum that was returned fits. -/
lemma addW_eq_ret {w a b c : ℕ} : addW w a b = ret c ↔ a + b < 2 ^ w ∧ c = a + b := by
  by_cases h : a + b < 2 ^ w
  · simp [addW, h, eq_comm]
  · simp [addW, h]

/-- A difference that was returned is not negative. -/
lemma subW_eq_ret {a b c : ℕ} : subW a b = ret c ↔ b ≤ a ∧ c = a - b := by
  by_cases h : b ≤ a
  · simp [subW, h, eq_comm]
  · simp [subW, h]

end Outcome
