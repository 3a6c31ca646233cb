import Mathlib.Tactic.Common
import Mathlib.Data.List.Basic
/-!
# Joined blocks

Blocks of one length joined by a delimiter. A writer that puts the delimiter
behind each block has written one delimiter too many (`flatMap_delimited`).
The blocks can be told apart by their length, so the delimiter may be empty or
look like them (`joined_injective`).
-/

namespace KSockLib.Join

variable {α β : Type} {d : List α} {k : Nat}

/-- The delimiter behind each block, which is one more than between them. -/
theorem flatMap_delimited (f : β → List α) (d : List α) {bs : List β} (hne : bs ≠ []) :
    bs.flatMap (fun b => f b ++ d) = d.intercalate (bs.map f) ++ d := by
  induction bs with
  | nil => exact absurd rfl hne
  | cons b bs ih =>
    cases bs with
    | nil => simp
    | cons b' bs =>
      rw [List.flatMap_cons, ih (List.cons_ne_nil _ _)]
      simp only [List.map_cons, List.intercalate_cons_cons, List.append_assoc]

theorem length_joined {blocks : List (List α)} (hk : ∀ x ∈ blocks, x.length = k) :
    (d.intercalate blocks).length = k * blocks.length + (blocks.length - 1) * d.length := by
  induction blocks with
  | nil => simp
  | cons x blocks ih =>
    rw [List.forall_mem_cons] at hk
    cases blocks with
    | nil => simp [hk.1]
    | cons y blocks =>
      rw [List.intercalate_cons_cons, List.length_append, List.length_append, ih hk.2, hk.1]
      simp only [List.length_cons, Nat.add_sub_cancel, Nat.mul_add, Nat.add_mul]
      omega

/-- Blocks of one length that is not zero are determined by what they join to. -/
theorem joined_injective (hpos : 0 < k) {xs ys : List (List α)} (hxs : ∀ x ∈ xs, x.length = k)
    (hys : ∀ y ∈ ys, y.length = k) (h : d.intercalate xs = d.intercalate ys) : xs = ys := by
  induction xs generalizing ys with
  | nil =>
    cases ys with
    | nil => rfl
    | cons y ys =>
      have hlen := congrArg List.length h
      rw [length_joined hxs, length_joined hys, List.length_cons, List.length_nil, Nat.mul_add] at hlen
      omega
  | cons x xs ih =>
    cases ys with
    | nil =>
      have hlen := congrArg List.length h
      rw [length_joined hxs, length_joined hys, List.length_cons, List.length_nil, Nat.mul_add] at hlen
      omega
    | cons y ys =>
      rw [List.forall_mem_cons] at hxs hys
      have hxy : x.length = y.length := hxs.1.trans hys.1.symm
      cases xs with
      | nil =>
        cases ys with
        | nil => simpa using h
        | cons y' ys =>
          -- two blocks are longer than one
          have hlen := congrArg List.length h
          rw [List.intercalate_singleton, List.intercalate_cons_cons, List.length_append, List.length_append,
            length_joined hys.2, List.length_cons, Nat.mul_add] at hlen
          omega
      | cons x' xs =>
        cases ys with
        | nil =>
          have hlen := congrArg List.length h
          rw [List.intercalate_singleton, List.intercalate_cons_cons, List.length_append, List.length_append,
            length_joined hxs.2, List.length_cons, Nat.mul_add] at hlen
          omega
        | cons y' ys =>
          rw [List.intercalate_cons_cons, List.intercalate_cons_cons, List.append_assoc, List.append_assoc] at h
          obtain ⟨rfl, hrest⟩ := List.append_inj h hxy
          rw [ih hxs.2 hys.2 (List.append_cancel_left hrest)]

end KSockLib.Join
