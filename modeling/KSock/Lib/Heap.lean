import Mathlib.Data.Finset.Lattice.Fold
import Mathlib.Order.Lattice.Nat
/-!
# Live blocks

A heap seen as the set of its live blocks. An `Allocator` decides which requests
succeed and which dead block they get, so addresses may be used again.
`free` has no result for a block that is not live. The lemmas say how the set
changes.
-/

namespace KSockLib

/-- Picks a block that is not live for the `n`-th request, or fails it. -/
structure Allocator where
  pick : (n : Nat) → (live : Finset Nat) → Option { p : Nat // p ∉ live }

/-- The live blocks and how many were asked for. -/
structure Heap where
  live : Finset Nat
  requests : Nat

/-- The block after the last one. -/
def nextBlock (live : Finset Nat) : { p : Nat // p ∉ live } :=
  ⟨live.sup id + 1, fun h => Nat.not_succ_le_self _ (Finset.le_sup (f := id) h)⟩

/-- The allocator that never fails and takes the block after the last one. -/
def Allocator.next : Allocator := ⟨fun _ live => some (nextBlock live)⟩

namespace Heap

variable (A : Allocator)

def empty : Heap := ⟨∅, 0⟩

def alloc (h : Heap) : Option Nat × Heap :=
  match A.pick h.requests h.live with
  | none => (none, { h with requests := h.requests + 1 })
  | some p => (some p, ⟨insert p.val h.live, h.requests + 1⟩)

def free (h : Heap) (p : Nat) : Option Heap :=
  if p ∈ h.live then some { h with live := h.live.erase p } else none

variable {A} {h h' : Heap} {p : Nat}

theorem alloc_none (ha : h.alloc A = (none, h')) : h'.live = h.live := by
  unfold alloc at ha
  split at ha <;> cases ha
  rfl

theorem alloc_some (ha : h.alloc A = (some p, h')) : p ∉ h.live ∧ h'.live = insert p h.live := by
  unfold alloc at ha
  split at ha
  · cases ha
  · rename_i q _
    cases ha
    exact ⟨q.property, rfl⟩

theorem free_live (hp : p ∈ h.live) : h.free p = some { h with live := h.live.erase p } := if_pos hp

theorem free_some (hf : h.free p = some h') : p ∈ h.live ∧ h' = { h with live := h.live.erase p } := by
  unfold free at hf
  split at hf
  · rename_i hp
    exact ⟨hp, (Option.some.inj hf).symm⟩
  · cases hf

theorem mem_free (hf : h.free p = some h') (q : Nat) : q ∈ h'.live ↔ q ∈ h.live ∧ q ≠ p := by
  obtain ⟨-, rfl⟩ := free_some hf
  simp [and_comm]

/-! ## Several blocks -/

/-- With what is new given back there is what was there before. -/
theorem given_back {before new : Prop} (hnew : before → ¬new) : (before ∨ new) ∧ ¬new ↔ before := by
  rw [or_and_right, and_not_self_iff, or_false]
  exact and_iff_left_of_imp hnew

/-- Between the two heaps the blocks `ps`, all different, were allocated. -/
structure Grows (h : Heap) (ps : List Nat) (h' : Heap) : Prop where
  fresh : ∀ p ∈ ps, p ∉ h.live
  nodup : ps.Nodup
  live : ∀ p, p ∈ h'.live ↔ p ∈ h.live ∨ p ∈ ps

theorem Grows.of_live (hlive : h'.live = h.live) : Grows h [] h' := ⟨by simp, by simp, by simp [hlive]⟩

theorem Grows.alloc (ha : h.alloc A = (some p, h')) : Grows h [p] h' := by
  obtain ⟨hp, hlive⟩ := alloc_some ha
  exact ⟨by simpa using hp, by simp, fun q => by simp [hlive, or_comm]⟩

theorem Grows.append {ps qs : List Nat} {h₁ h₂ : Heap} (hps : Grows h ps h₁) (hqs : Grows h₁ qs h₂) :
    Grows h (ps ++ qs) h₂ where
  fresh p hp := by
    rcases List.mem_append.1 hp with hp | hp
    · exact hps.fresh p hp
    · exact fun hlive => hqs.fresh p hp ((hps.live p).2 (.inl hlive))
  nodup := List.nodup_append.2 ⟨hps.nodup, hqs.nodup, fun p hp q hq he =>
    hqs.fresh q hq ((hps.live q).2 (.inr (he ▸ hp)))⟩
  live p := by rw [hqs.live, hps.live, List.mem_append, or_assoc]

theorem Grows.congr {ps : List Nat} {h₁ h₂ : Heap} (hps : Grows h ps h₁) (hlive : h₂.live = h₁.live) :
    Grows h ps h₂ := ⟨hps.fresh, hps.nodup, fun p => by rw [hlive, hps.live]⟩

theorem Grows.live_eq (hnil : Grows h [] h') : h'.live = h.live := by
  ext p
  simp [hnil.live]

/-- The last block is freed first. -/
theorem Grows.free_last {ps : List Nat} {h₁ h₂ : Heap} (hps : Grows h (ps ++ [p]) h₁) (hf : h₁.free p = some h₂) :
    Grows h ps h₂ where
  fresh q hq := hps.fresh q (List.mem_append_left _ hq)
  nodup := hps.nodup.of_append_left
  live q := by
    have hnew : ∀ q ∈ ps, q ≠ p := fun q hq he => (List.nodup_append.1 hps.nodup).2.2 q hq p (by simp) he
    have hold : q ∈ h.live → q ≠ p := fun hq he => hps.fresh p (by simp) (he ▸ hq)
    rw [mem_free hf, hps.live, List.mem_append, List.mem_singleton]
    constructor
    · rintro ⟨hq | hq | hq, hne⟩
      · exact .inl hq
      · exact .inr hq
      · exact absurd hq hne
    · rintro (hq | hq)
      · exact ⟨.inl hq, hold hq⟩
      · exact ⟨.inr (.inl hq), hnew q hq⟩

end Heap

end KSockLib
