import Mathlib.Tactic.Common
import Mathlib.Data.List.Basic
/-!
# A pipe

What a buffer between a producer and a consumer is for: everything put in comes
out once, in order. A `Pipe` holds what went in, what came out and what is still
inside, with the law that ties them; `put` and `take` keep it. A buffer is
correct when its contents are `inside` for some pipe.
-/

namespace KSockLib

/-- What went into a buffer, what came out, and what is still inside. -/
structure Pipe (α : Type) where
  entered : List α
  left : List α
  inside : List α
  law : left ++ inside = entered

namespace Pipe

variable {α : Type}

/-- Nothing has gone in yet. -/
def empty : Pipe α := ⟨[], [], [], rfl⟩

/-- Put `xs` in at the back. -/
def put (p : Pipe α) (xs : List α) : Pipe α where
  entered := p.entered ++ xs
  left := p.left
  inside := p.inside ++ xs
  law := by rw [← List.append_assoc, p.law]

/-- Take the first `n` out. -/
def take (p : Pipe α) (n : Nat) : Pipe α where
  entered := p.entered
  left := p.left ++ p.inside.take n
  inside := p.inside.drop n
  law := by rw [List.append_assoc, List.take_append_drop, p.law]

@[simp] theorem put_inside (p : Pipe α) (xs : List α) : (p.put xs).inside = p.inside ++ xs := rfl
@[simp] theorem put_left (p : Pipe α) (xs : List α) : (p.put xs).left = p.left := rfl
@[simp] theorem put_entered (p : Pipe α) (xs : List α) : (p.put xs).entered = p.entered ++ xs := rfl
@[simp] theorem take_inside (p : Pipe α) (n : Nat) : (p.take n).inside = p.inside.drop n := rfl
@[simp] theorem take_left (p : Pipe α) (n : Nat) : (p.take n).left = p.left ++ p.inside.take n := rfl
@[simp] theorem take_entered (p : Pipe α) (n : Nat) : (p.take n).entered = p.entered := rfl

end Pipe

end KSockLib
