import Mathlib.Logic.Function.Basic
import Mathlib.Tactic.Common
/-!
# Slots

A function from slots to what is in them, if anything. `Distinct` says that no
two hold the same. Filling a slot with something that is in none keeps this, and
so does emptying one.
-/

namespace KSockLib.Slots

variable {ι α : Type} [DecidableEq ι] {f : ι → Option α} {i k : ι} {a b : α}

def Distinct (f : ι → Option α) : Prop := ∀ i j a, f i = some a → f j = some a → i = j

/-- What is there after a slot was filled is new, or was there before. -/
theorem of_fill (h : Function.update f k (some b) i = some a) : (i = k ∧ a = b) ∨ f i = some a := by
  rw [Function.update_apply] at h
  split at h
  · exact .inl ⟨‹_›, (Option.some.inj h).symm⟩
  · exact .inr h

/-- What is there after a slot was emptied is in another one. -/
theorem of_empty (h : Function.update f k none i = some a) : i ≠ k ∧ f i = some a := by
  rw [Function.update_apply] at h
  split at h
  · cases h
  · exact ⟨‹_›, h⟩

theorem Distinct.fill (hf : Distinct f) (hnew : ∀ i, f i ≠ some b) : Distinct (Function.update f k (some b)) := by
  intro i j a hi hj
  rcases of_fill hi with ⟨rfl, rfl⟩ | hfi
  · rcases of_fill hj with ⟨rfl, -⟩ | hfj
    · rfl
    · exact absurd hfj (hnew j)
  · rcases of_fill hj with ⟨-, rfl⟩ | hfj
    · exact absurd hfi (hnew i)
    · exact hf i j a hfi hfj

theorem Distinct.empty (hf : Distinct f) : Distinct (Function.update f k none) := by
  intro i j a hi hj
  exact hf i j a (of_empty hi).2 (of_empty hj).2

/-- What was in the slot is not in the others. -/
theorem Distinct.ne_of_empty (hf : Distinct f) (hk : f k = some b) (h : Function.update f k none i = some a) :
    a ≠ b := by
  rintro rfl
  obtain ⟨hne, hi⟩ := of_empty h
  exact hne (hf i k a hi hk)

end KSockLib.Slots
