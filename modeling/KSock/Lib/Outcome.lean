import Mathlib.Tactic.Common
/-!
# Computations that leave the model

A call may return, or go astray: it does something whose effect the model does
not have, at a point it can still tell. Or it gets stuck where nothing more is
known, as when it follows a NULL pointer. An optional value is a computation that
returns or is stuck.
-/

namespace KSockLib

/-- How a computation ends. `σ` tells where it went astray. -/
inductive Outcome (σ α : Type) where
  | returns (a : α)
  | astray (place : σ)
  | stuck
  deriving DecidableEq, Repr

namespace Outcome

variable {σ α β : Type}

protected def bind (x : Outcome σ α) (f : α → Outcome σ β) : Outcome σ β :=
  match x with
  | returns a => f a
  | astray place => astray place
  | stuck => stuck

instance : Monad (Outcome σ) where
  pure := returns
  bind := Outcome.bind

def ofOption : Option α → Outcome σ α
  | some a => returns a
  | none => stuck

/-- What was returned. -/
def value : Outcome σ α → Option α
  | returns a => some a
  | _ => none

/-- Where the computation went astray. -/
def strayed : Outcome σ α → Option σ
  | astray place => some place
  | _ => none

@[simp] theorem pure_eq (a : α) : (pure a : Outcome σ α) = returns a := rfl
@[simp] theorem returns_bind (a : α) (f : α → Outcome σ β) : (returns a >>= f) = f a := rfl
@[simp] theorem astray_bind (place : σ) (f : α → Outcome σ β) : (astray place >>= f) = astray place := rfl
@[simp] theorem stuck_bind (f : α → Outcome σ β) : ((stuck : Outcome σ α) >>= f) = stuck := rfl
@[simp] theorem ofOption_some (a : α) : (ofOption (some a) : Outcome σ α) = returns a := rfl
@[simp] theorem ofOption_none : (ofOption none : Outcome σ α) = stuck := rfl
@[simp] theorem value_returns (a : α) : (returns a : Outcome σ α).value = some a := rfl

theorem bind_eq_returns {x : Outcome σ α} {f : α → Outcome σ β} {b : β} :
    (x >>= f) = returns b ↔ ∃ a, x = returns a ∧ f a = returns b := by
  cases x <;> simp

theorem bind_eq_astray {x : Outcome σ α} {f : α → Outcome σ β} {place : σ} :
    (x >>= f) = astray place ↔ x = astray place ∨ ∃ a, x = returns a ∧ f a = astray place := by
  cases x <;> simp

theorem ofOption_eq_returns {o : Option α} {a : α} : (ofOption o : Outcome σ α) = returns a ↔ o = some a := by
  cases o <;> simp

theorem ofOption_ne_astray (o : Option α) (place : σ) : ofOption o ≠ astray place := by
  cases o <;> simp

theorem value_eq_some {x : Outcome σ α} {a : α} : x.value = some a ↔ x = returns a := by
  cases x <;> simp [value]

theorem strayed_eq_some {x : Outcome σ α} {place : σ} : x.strayed = some place ↔ x = astray place := by
  cases x <;> simp [strayed]

end Outcome

end KSockLib
