import Mathlib.Tactic.Common
import Mathlib.Algebra.Group.Nat.Defs
import Mathlib.Algebra.Group.Int.Defs
import Mathlib.Data.Nat.Basic
import Mathlib.Data.Int.Basic
/-!
# Machine words as numbers

Unsigned words of `w` bits as natural numbers below `2 ^ w`, with the
arithmetic that wraps. `addW_eq` and `subW_eq` are what a proof uses: while
nothing wraps, the operations are the ones on numbers.
-/

namespace KSockLib.Word

/-- `a + b` in a word of `w` bits. -/
def addW (w a b : Nat) : Nat := (a + b) % 2 ^ w

/-- `a - b` in a word of `w` bits. -/
def subW (w a b : Nat) : Nat := (a + (2 ^ w - b % 2 ^ w)) % 2 ^ w

/-- The conversion of a signed integer to a word of `w` bits. -/
def ofInt (w : Nat) (i : Int) : Nat := (i % 2 ^ w).toNat

theorem addW_lt (w a b : Nat) : addW w a b < 2 ^ w := Nat.mod_lt _ (Nat.two_pow_pos w)

theorem addW_eq {w a b : Nat} (h : a + b < 2 ^ w) : addW w a b = a + b := Nat.mod_eq_of_lt h

theorem subW_eq {w a b : Nat} (hb : b ≤ a) (ha : a < 2 ^ w) : subW w a b = a - b := by
  have hb' : b % 2 ^ w = b := Nat.mod_eq_of_lt (Nat.lt_of_le_of_lt hb ha)
  rw [subW, hb', show a + (2 ^ w - b) = a - b + 2 ^ w by omega, Nat.add_mod_right]
  exact Nat.mod_eq_of_lt (Nat.lt_of_le_of_lt (Nat.sub_le a b) ha)

theorem ofInt_natCast {w n : Nat} (h : n < 2 ^ w) : ofInt w (n : Int) = n := by
  have hc : ((n : Int) % 2 ^ w) = ((n % 2 ^ w : Nat) : Int) := by push_cast; rfl
  rw [ofInt, hc, Int.toNat_natCast, Nat.mod_eq_of_lt h]

end KSockLib.Word
