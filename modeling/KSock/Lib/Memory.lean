import Mathlib.Data.List.Basic
import Mathlib.Tactic.Common
/-!
# Flat memory

A memory is a function from addresses to cells. A C array is a window of it,
addressed from the array's first cell: what lies past the window is there too,
so a read past the end has a value and a write past the end a place, and it is
up to the code that uses them to stay inside.

`read` and `write` move lists of cells. The lemmas say what a read sees after a
write (`read_write_same`, `read_write_before`) and how reads split (`read_add`,
`take_read`, `drop_read`).
-/

namespace KSockLib.Memory

variable {α : Type}

/-- The `n` cells from address `i` on. -/
def read (m : Nat → α) (i : Nat) : Nat → List α
  | 0 => []
  | n + 1 => m i :: read m (i + 1) n

/-- Store `bs` from address `i` on. -/
def write (m : Nat → α) (i : Nat) (bs : List α) : Nat → α :=
  fun k => if i ≤ k then (bs[k - i]?).getD (m k) else m k

@[simp] theorem read_zero (m : Nat → α) (i : Nat) : read m i 0 = [] := rfl

theorem read_succ (m : Nat → α) (i n : Nat) : read m i (n + 1) = m i :: read m (i + 1) n := rfl

@[simp] theorem length_read (m : Nat → α) (i n : Nat) : (read m i n).length = n := by
  induction n generalizing i with
  | zero => rfl
  | succ n ih => rw [read_succ, List.length_cons, ih]

theorem getElem?_read (m : Nat → α) (i n k : Nat) :
    (read m i n)[k]? = if k < n then some (m (i + k)) else none := by
  induction n generalizing i k with
  | zero => simp
  | succ n ih =>
    rw [read_succ]
    cases k with
    | zero => simp
    | succ k =>
      rw [List.getElem?_cons_succ, ih, show i + 1 + k = i + (k + 1) by omega]
      simp only [Nat.add_lt_add_iff_right]

/-- Two reads are equal when the cells are. -/
theorem read_congr {m m' : Nat → α} {i j n : Nat} (h : ∀ k < n, m (i + k) = m' (j + k)) :
    read m i n = read m' j n := by
  apply List.ext_getElem?
  intro k
  rw [getElem?_read, getElem?_read]
  split
  · rename_i hk; rw [h k hk]
  · rfl

/-! ## How reads split -/

theorem read_add (m : Nat → α) (i a b : Nat) : read m i (a + b) = read m i a ++ read m (i + a) b := by
  induction a generalizing i with
  | zero => simp
  | succ a ih =>
    rw [show a + 1 + b = a + b + 1 by omega, read_succ, read_succ, ih, List.cons_append,
      show i + 1 + a = i + (a + 1) by omega]

theorem take_read (m : Nat → α) (i : Nat) {n k : Nat} (h : k ≤ n) : (read m i n).take k = read m i k := by
  obtain ⟨d, rfl⟩ := Nat.exists_eq_add_of_le h
  rw [read_add, List.take_append_of_le_length (by simp), List.take_of_length_le (by simp)]

theorem drop_read (m : Nat → α) (i : Nat) {n k : Nat} (h : k ≤ n) :
    (read m i n).drop k = read m (i + k) (n - k) := by
  obtain ⟨d, rfl⟩ := Nat.exists_eq_add_of_le h
  rw [read_add, List.drop_append_of_le_length (by simp), List.drop_eq_nil_of_le (by simp), List.nil_append,
    Nat.add_sub_cancel_left]

/-! ## Reads after a write -/

theorem write_inside (m : Nat → α) {i k : Nat} {bs : List α} (h : i ≤ k) (hk : k - i < bs.length) :
    write m i bs k = bs[k - i] := by
  simp [write, h, List.getElem?_eq_getElem hk]

theorem write_outside (m : Nat → α) {i k : Nat} {bs : List α} (h : k < i ∨ i + bs.length ≤ k) :
    write m i bs k = m k := by
  unfold write
  rcases h with h | h
  · rw [if_neg (by omega)]
  · split
    · rw [List.getElem?_eq_none (by omega)]; rfl
    · rfl

/-- What was stored is read back. -/
@[simp] theorem read_write_same (m : Nat → α) (i : Nat) (bs : List α) : read (write m i bs) i bs.length = bs := by
  apply List.ext_getElem?
  intro k
  rw [getElem?_read]
  split
  · rename_i hk
    rw [write_inside m (by omega) (by omega), List.getElem?_eq_getElem hk]
    simp
  · rw [List.getElem?_eq_none (by omega)]

/-- A read that ends before the store sees the old cells. -/
theorem read_write_before (m : Nat → α) {i j n : Nat} {bs : List α} (h : i + n ≤ j) :
    read (write m j bs) i n = read m i n :=
  read_congr fun k hk => write_outside m (.inl (by omega))

/-- Appending a store to the cells before it. -/
theorem read_write_append (m : Nat → α) (i n : Nat) (bs : List α) :
    read (write m (i + n) bs) i (n + bs.length) = read m i n ++ bs := by
  rw [read_add, read_write_before m (Nat.le_refl _), read_write_same]

/-- Two stores next to each other are one store. -/
theorem write_write_append (m : Nat → α) (i : Nat) (bs cs : List α) :
    write (write m i bs) (i + bs.length) cs = write m i (bs ++ cs) := by
  funext k
  rcases Nat.lt_or_ge k i with h | h
  · rw [write_outside _ (.inl (by omega)), write_outside _ (.inl h), write_outside _ (.inl h)]
  rcases Nat.lt_or_ge k (i + bs.length) with hb | hb
  · rw [write_outside _ (.inl hb), write_inside _ h (by omega), write_inside _ h (by simp; omega),
      List.getElem_append_left]
  rcases Nat.lt_or_ge k (i + bs.length + cs.length) with hc | hc
  · rw [write_inside _ hb (by omega), write_inside _ h (by simp; omega),
      List.getElem_append_right (by omega)]
    simp only [Nat.sub_sub]
  · rw [write_outside _ (.inr hc), write_outside _ (.inr hb), write_outside _ (.inr (by simp; omega))]

@[simp] theorem write_nil (m : Nat → α) (i : Nat) : write m i [] = m := by
  funext k
  exact write_outside _ (by simp only [List.length_nil]; omega)

/-- The second of two stores next to each other may come first. -/
theorem write_write_prepend (m : Nat → α) (i : Nat) (bs cs : List α) :
    write (write m (i + bs.length) cs) i bs = write m i (bs ++ cs) := by
  rw [← write_write_append]
  funext k
  rcases Nat.lt_or_ge k (i + bs.length) with h | h
  · rw [write_outside (write m i bs) (.inl h)]
    rcases Nat.lt_or_ge k i with hi | hi
    · rw [write_outside _ (.inl hi), write_outside _ (.inl hi), write_outside _ (.inl h)]
    · rw [write_inside _ hi (by omega), write_inside _ hi (by omega)]
  · rw [write_outside _ (.inr h)]
    rcases Nat.lt_or_ge k (i + bs.length + cs.length) with hc | hc
    · rw [write_inside _ h (by omega), write_inside _ h (by omega)]
    · rw [write_outside _ (.inr hc), write_outside _ (.inr hc), write_outside _ (.inr h)]

/-- A store over all of an earlier one. -/
theorem write_write_cover (m : Nat → α) {i j : Nat} {bs cs : List α} (hi : j ≤ i)
    (hlen : i + bs.length ≤ j + cs.length) : write (write m i bs) j cs = write m j cs := by
  funext k
  rcases Nat.lt_or_ge k j with h | h
  · rw [write_outside _ (.inl h), write_outside _ (.inl h), write_outside _ (.inl (by omega))]
  rcases Nat.lt_or_ge k (j + cs.length) with hk | hk
  · rw [write_inside _ h (by omega), write_inside _ h (by omega)]
  · rw [write_outside _ (.inr hk), write_outside _ (.inr hk), write_outside _ (.inr (by omega))]

/-- Storing over the first cell of an earlier store. -/
theorem write_write_head (m : Nat → α) (i : Nat) (b c : α) (bs : List α) :
    write (write m i (b :: bs)) i [c] = write m i (c :: bs) := by
  funext k
  rcases Nat.lt_or_ge k i with h | h
  · rw [write_outside _ (.inl h), write_outside _ (.inl h), write_outside _ (.inl h)]
  obtain ⟨d, rfl⟩ := Nat.exists_eq_add_of_le h
  simp only [write, h, if_true, Nat.add_sub_cancel_left]
  cases d with
  | zero => rfl
  | succ d => simp

/-- Moving `n` cells (with overlap allowed) is a read and a store. -/
def move (m : Nat → α) (dst src n : Nat) : Nat → α := write m dst (read m src n)

@[simp] theorem read_move (m : Nat → α) (dst src n : Nat) : read (move m dst src n) dst n = read m src n := by
  have h := read_write_same m dst (read m src n)
  rwa [length_read] at h

end KSockLib.Memory
