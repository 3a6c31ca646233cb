import Mathlib.Data.Set.Lattice
import Mathlib.Data.Set.Pairwise.Basic
import Mathlib.Order.CompletePartialOrder
/-!
# Owners and what they hold

`Accounts base owners of total`: what is outstanding in all is what was so at
the base and what the owners hold, each thing for one of them. Acquiring makes
an owner of things that are new, and releasing ends one with all it holds. So
without owners the total is the base.
-/

namespace KSockLib

variable {α ρ : Type}

structure Accounts (base : Set ρ) (owners : Set α) (of : α → Set ρ) (total : Set ρ) : Prop where
  total_eq : total = base ∪ ⋃ a ∈ owners, of a
  apart : owners.PairwiseDisjoint of
  new : ∀ a ∈ owners, Disjoint (of a) base

namespace Accounts

variable {base total : Set ρ} {owners : Set α} {of : α → Set ρ} {a : α}

theorem none : Accounts base ∅ of base := ⟨by simp, by simp, by simp⟩

theorem total_of_none (h : Accounts base ∅ of total) : total = base := by simp [h.total_eq]

theorem subset (h : Accounts base owners of total) (ha : a ∈ owners) : of a ⊆ total := by
  rw [h.total_eq]
  exact (Set.subset_biUnion_of_mem ha).trans Set.subset_union_right

/-- Only what the owners hold matters. -/
theorem congr (h : Accounts base owners of total) {of' : α → Set ρ} (hof : ∀ a ∈ owners, of' a = of a) :
    Accounts base owners of' total where
  total_eq := by rw [h.total_eq, Set.iUnion₂_congr hof]
  apart a ha b hb hab := by
    change Disjoint (of' a) (of' b)
    rw [hof a ha, hof b hb]
    exact h.apart ha hb hab
  new a ha := hof a ha ▸ h.new a ha

/-- Another owner, of things that are not outstanding. -/
theorem acquire (h : Accounts base owners of total) (hnew : Disjoint (of a) total) :
    Accounts base (insert a owners) of (total ∪ of a) where
  total_eq := by rw [h.total_eq, Set.biUnion_insert, Set.union_assoc, Set.union_comm (⋃ b ∈ owners, of b)]
  apart := h.apart.insert fun b hb _ => hnew.mono_right (h.subset hb)
  new := by
    rintro b (rfl | hb)
    · exact hnew.mono_right (h.total_eq ▸ Set.subset_union_left)
    · exact h.new b hb

/-- An owner less, and what it held is no longer outstanding. -/
theorem release (h : Accounts base owners of total) (ha : a ∈ owners) :
    Accounts base (owners \ {a}) of (total \ of a) where
  total_eq := by
    ext x
    have hbase : x ∈ base → x ∉ of a := fun hx hxa => Set.disjoint_left.1 (h.new a ha) hxa hx
    have hother : ∀ b ∈ owners, b ≠ a → x ∈ of b → x ∉ of a := fun b hb hne hxb hxa =>
      Set.disjoint_left.1 (h.apart hb ha hne) hxb hxa
    simp only [h.total_eq, Set.mem_sdiff, Set.mem_union, Set.mem_iUnion, Set.mem_singleton_iff, exists_prop]
    constructor
    · rintro ⟨hx | ⟨b, hb, hxb⟩, hxa⟩
      · exact .inl hx
      · exact .inr ⟨b, ⟨hb, fun he => hxa (he ▸ hxb)⟩, hxb⟩
    · rintro (hx | ⟨b, ⟨hb, hne⟩, hxb⟩)
      · exact ⟨.inl hx, hbase hx⟩
      · exact ⟨.inr ⟨b, hb, hxb⟩, hother b hb hne hxb⟩
  apart := h.apart.subset Set.sdiff_subset
  new b hb := h.new b hb.1

end Accounts

end KSockLib
