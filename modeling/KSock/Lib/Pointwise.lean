import Mathlib.Data.List.Forall2
/-!
# Lists related element by element

`List.Forall₂ R as bs` as an invariant of two lists that go together: what it
says about one index, and that it is kept when one element is replaced.
-/

namespace KSockLib.Pointwise

variable {α β : Type} {R : α → β → Prop} {as : List α} {bs : List β} {i : Nat} {a : α} {b : β}

theorem get (h : List.Forall₂ R as bs) (ha : as[i]? = some a) (hb : bs[i]? = some b) : R a b := by
  obtain ⟨-, hget⟩ := List.forall₂_iff_get.1 h
  obtain ⟨hi, rfl⟩ := List.getElem?_eq_some_iff.1 ha
  obtain ⟨hj, rfl⟩ := List.getElem?_eq_some_iff.1 hb
  exact hget i hi hj

theorem exists_get (h : List.Forall₂ R as bs) (ha : as[i]? = some a) : ∃ b, bs[i]? = some b ∧ R a b := by
  have hi : i < bs.length := h.length_eq ▸ (List.getElem?_eq_some_iff.1 ha).1
  have hb := List.getElem?_eq_getElem hi
  exact ⟨bs[i], hb, get h ha hb⟩

theorem set (h : List.Forall₂ R as bs) (ha : as[i]? = some a) (hab : R a b) : List.Forall₂ R as (bs.set i b) := by
  refine List.forall₂_iff_get.2 ⟨by rw [List.length_set, h.length_eq], fun j hj hj' => ?_⟩
  rw [List.length_set] at hj'
  simp only [List.get_eq_getElem, List.getElem_set]
  split_ifs with hij
  · subst hij
    cases (List.getElem?_eq_getElem hj).symm.trans ha
    exact hab
  · exact get h (List.getElem?_eq_getElem hj) (List.getElem?_eq_getElem hj')

end KSockLib.Pointwise
