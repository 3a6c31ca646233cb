import Mathlib.Tactic.Common
import Mathlib.Tactic.Ring
import Mathlib.Data.List.Basic
/-!
# Words as bytes

A word of `n` bytes as a list of bytes, least significant first (`toLE`) or
most significant first (`toBE`), and back. `swap` reverses the bytes of a word:
storing a swapped word in little-endian order is storing the word in big-endian
order (`toLE_swap`), and loading it that way and swapping loads it in
big-endian order (`swap_ofLE`).
-/

namespace KSockLib.Endian

/-- The `n` low bytes of `v`, least significant first. -/
def toLE : Nat → Nat → List UInt8
  | 0, _ => []
  | n + 1, v => UInt8.ofNat v :: toLE n (v / 256)

/-- The number whose bytes are `bs`, least significant first. -/
def ofLE : List UInt8 → Nat
  | [] => 0
  | b :: bs => b.toNat + 256 * ofLE bs

/-- The `n` low bytes of `v`, most significant first. -/
def toBE (n v : Nat) : List UInt8 := (toLE n v).reverse

/-- The number whose bytes are `bs`, most significant first. -/
def ofBE (bs : List UInt8) : Nat := ofLE bs.reverse

/-- The `n`-byte word with the bytes of `v` in reverse order. -/
def swap (n v : Nat) : Nat := ofLE (toLE n v).reverse

@[simp] theorem length_toLE (n v : Nat) : (toLE n v).length = n := by
  induction n generalizing v with
  | zero => rfl
  | succ n ih => rw [toLE, List.length_cons, ih]

@[simp] theorem length_toBE (n v : Nat) : (toBE n v).length = n := by
  rw [toBE, List.length_reverse, length_toLE]

theorem ofLE_lt (bs : List UInt8) : ofLE bs < 256 ^ bs.length := by
  induction bs with
  | nil => simp [ofLE]
  | cons b bs ih =>
    have hb : b.toNat < 256 := b.toNat_lt
    rw [ofLE, List.length_cons, pow_succ]
    omega

theorem toLE_ofLE (bs : List UInt8) : toLE bs.length (ofLE bs) = bs := by
  induction bs with
  | nil => rfl
  | cons b bs ih =>
    have hb : b.toNat < 256 := b.toNat_lt
    have hq : (b.toNat + 256 * ofLE bs) / 256 = ofLE bs := by omega
    have hr : UInt8.ofNat (b.toNat + 256 * ofLE bs) = b := by
      apply UInt8.toNat_inj.1
      rw [UInt8.toNat_ofNat']
      omega
    rw [ofLE, List.length_cons, toLE, hq, hr, ih]

theorem ofLE_toLE (n v : Nat) : ofLE (toLE n v) = v % 256 ^ n := by
  induction n generalizing v with
  | zero => simp [toLE, ofLE, Nat.mod_one]
  | succ n ih =>
    have hb : (UInt8.ofNat v).toNat = v % 256 := UInt8.toNat_ofNat'
    rw [toLE, ofLE, ih, hb, pow_succ, Nat.mul_comm (256 ^ n) 256, Nat.mod_mul]

/-- A word of the right size is determined by its bytes. -/
theorem ofLE_toLE_of_lt {n v : Nat} (h : v < 256 ^ n) : ofLE (toLE n v) = v := by
  rw [ofLE_toLE, Nat.mod_eq_of_lt h]

theorem ofBE_toBE {n v : Nat} (h : v < 256 ^ n) : ofBE (toBE n v) = v := by
  rw [ofBE, toBE, List.reverse_reverse, ofLE_toLE_of_lt h]

theorem ofBE_lt (bs : List UInt8) : ofBE bs < 256 ^ bs.length := by
  have h := ofLE_lt bs.reverse
  rwa [List.length_reverse] at h

/-- The bytes of a swapped word are the bytes of the word, reversed. -/
theorem toLE_swap (n v : Nat) : toLE n (swap n v) = toBE n v := by
  have h := toLE_ofLE (toLE n v).reverse
  rwa [List.length_reverse, length_toLE] at h

/-- Loading bytes in little-endian order and swapping loads them in big-endian order. -/
theorem swap_ofLE (bs : List UInt8) : swap bs.length (ofLE bs) = ofBE bs := by
  rw [swap, toLE_ofLE, ofBE]

theorem swap_lt (n v : Nat) : swap n v < 256 ^ n := by
  have h := ofLE_lt (toLE n v).reverse
  rwa [List.length_reverse, length_toLE] at h

/-! ## Bytes by mask and shift -/

/-- Masking a byte out and shifting it down is shifting down. -/
theorem ofNat_and_shiftRight (v s : Nat) : UInt8.ofNat ((v &&& (255 <<< s)) >>> s) = UInt8.ofNat (v >>> s) := by
  apply UInt8.toNat_inj.1
  rw [UInt8.toNat_ofNat', UInt8.toNat_ofNat', Nat.shiftRight_and_distrib, Nat.shiftLeft_shiftRight,
    Nat.and_two_pow_sub_one_eq_mod (v >>> s) 8, Nat.mod_mod]

/-- The bytes of a word, each shifted down from its place. -/
theorem toLE_eq_map (n v : Nat) : toLE n v = (List.range n).map fun i => UInt8.ofNat (v >>> (8 * i)) := by
  induction n generalizing v with
  | zero => rfl
  | succ n ih =>
    rw [toLE, ih, List.range_succ_eq_map, List.map_cons, List.map_map]
    refine congrArg (_ :: ·) (List.map_congr_left fun i _ => ?_)
    rw [Function.comp_apply, Nat.succ_eq_add_one, Nat.mul_add, Nat.add_comm, Nat.shiftRight_add, Nat.mul_one,
      Nat.shiftRight_eq_div_pow v 8]

end KSockLib.Endian
