import Mathlib.Tactic.Common
import Mathlib.Tactic.Ring
import Mathlib.Data.List.Basic
/-!
# Numbers in base 128

A number as bytes of seven bits each, lowest first, where every byte but the
last has its high bit set. `value` reads any bytes that way, whether they end
or not. A reader first looks for the byte that ends a number (`stopIndex`),
then takes the value of the bytes up to it; `stopIndex_append` and
`value_encode` say that this finds what was written, whatever follows it.

The last part is the word arithmetic of such readers: putting the next seven
bits in with a shift and a bitwise or is adding them (`or_shiftLeft`).
-/

namespace KSockLib.Varint

/-- The digits of `n`, lowest first. -/
def encode (n : Nat) : List UInt8 :=
  if n < 128 then [UInt8.ofNat n] else UInt8.ofNat (n % 128 + 128) :: encode (n / 128)
termination_by n
decreasing_by omega

/-- The number whose digits are the low seven bits of the bytes. -/
def value : List UInt8 → Nat
  | [] => 0
  | b :: bs => b.toNat % 128 + 128 * value bs

/-- The last byte, and only that, has its high bit clear. -/
def Ends : List UInt8 → Prop
  | [] => False
  | [b] => b.toNat < 128
  | b :: bs => 128 ≤ b.toNat ∧ Ends bs

/-- How many of the first `max` bytes come before one whose high bit is clear;
`none` if the bytes run out. -/
def stopIndex : Nat → List UInt8 → Option Nat
  | 0, _ => some 0
  | _ + 1, [] => none
  | max + 1, b :: bs => if b &&& 0x80 = 0 then some 0 else (stopIndex max bs).map (· + 1)

/-! ## Encodings -/

theorem encode_of_lt {n : Nat} (h : n < 128) : encode n = [UInt8.ofNat n] := by
  rw [encode, if_pos h]

theorem encode_of_ge {n : Nat} (h : 128 ≤ n) : encode n = UInt8.ofNat (n % 128 + 128) :: encode (n / 128) := by
  rw [encode, if_neg (by omega)]

/-- The `k` lowest digits of `n`, none of them the last. -/
def lowDigits : Nat → Nat → List UInt8
  | 0, _ => []
  | k + 1, n => UInt8.ofNat (n % 128 + 128) :: lowDigits k (n / 128)

theorem encode_eq_lowDigits {k n : Nat} (h : 128 ^ k ≤ n) : encode n = lowDigits k n ++ encode (n / 128 ^ k) := by
  induction k generalizing n with
  | zero => rw [lowDigits, pow_zero, Nat.div_one, List.nil_append]
  | succ k ih =>
    have hpos : 0 < 128 ^ k := Nat.pow_pos (by decide)
    rw [pow_succ] at h
    rw [encode_of_ge (by omega), ih (by omega), lowDigits, List.cons_append, Nat.div_div_eq_div_mul, pow_succ,
      Nat.mul_comm]

@[simp] theorem length_lowDigits (k n : Nat) : (lowDigits k n).length = k := by
  induction k generalizing n with
  | zero => rfl
  | succ k ih => rw [lowDigits, List.length_cons, ih]

theorem length_encode_pos (n : Nat) : 0 < (encode n).length := by
  rw [encode]
  split <;> simp

theorem length_encode_le {n k : Nat} (h : n < 128 ^ (k + 1)) : (encode n).length ≤ k + 1 := by
  induction k generalizing n with
  | zero => rw [encode_of_lt (by omega), List.length_singleton]
  | succ k ih =>
    rcases Nat.lt_or_ge n 128 with hn | hn
    · rw [encode_of_lt hn, List.length_singleton]
      omega
    · rw [encode_of_ge hn, List.length_cons]
      have := ih (show n / 128 < 128 ^ (k + 1) by rw [pow_succ] at h; omega)
      omega

/-- A number between two powers of 128 has as many digits as the larger. -/
theorem length_encode_eq {n k : Nat} (hle : 128 ^ k ≤ n) (hlt : n < 128 ^ (k + 1)) : (encode n).length = k + 1 := by
  have hdiv : n / 128 ^ k < 128 := by
    rw [Nat.div_lt_iff_lt_mul (Nat.pow_pos (by decide)), Nat.mul_comm]
    exact hlt
  rw [encode_eq_lowDigits hle, List.length_append, length_lowDigits, encode_of_lt hdiv, List.length_singleton]

theorem ends_cons {b : UInt8} {bs : List UInt8} (hb : 128 ≤ b.toNat) (h : Ends bs) : Ends (b :: bs) := by
  cases bs with
  | nil => exact absurd h id
  | cons c cs => exact ⟨hb, h⟩

theorem ends_encode (n : Nat) : Ends (encode n) := by
  induction n using Nat.strong_induction_on with
  | _ n ih =>
    rcases Nat.lt_or_ge n 128 with hn | hn
    · rw [encode_of_lt hn]
      change (UInt8.ofNat n).toNat < 128
      rw [UInt8.toNat_ofNat']
      omega
    · rw [encode_of_ge hn]
      refine ends_cons ?_ (ih _ (by omega))
      rw [UInt8.toNat_ofNat']
      omega

/-- What was written is read back. -/
@[simp] theorem value_encode (n : Nat) : value (encode n) = n := by
  induction n using Nat.strong_induction_on with
  | _ n ih =>
    rcases Nat.lt_or_ge n 128 with hn | hn
    · rw [encode_of_lt hn, value, value, UInt8.toNat_ofNat']
      omega
    · rw [encode_of_ge hn, value, ih _ (by omega), UInt8.toNat_ofNat']
      omega

/-- The low three bits of a multiple of 8 are free. -/
theorem encode_or_low {n w : Nat} {b : UInt8} {bs : List UInt8} (hw : w < 8) (h : encode (8 * n) = b :: bs) :
    encode (8 * n + w) = (b ||| UInt8.ofNat w) :: bs := by
  have hor : ∀ x < 32, ∀ w < 8, UInt8.ofNat (8 * x) ||| UInt8.ofNat w = UInt8.ofNat (8 * x + w) := by decide +kernel
  rcases Nat.lt_or_ge (8 * n) 128 with hn | hn
  · rw [encode_of_lt hn] at h
    obtain ⟨rfl, rfl⟩ := List.cons.inj h
    rw [encode_of_lt (by omega), hor n (by omega) w hw]
  · rw [encode_of_ge hn] at h
    obtain ⟨rfl, rfl⟩ := List.cons.inj h
    rw [encode_of_ge (by omega), show (8 * n + w) / 128 = 8 * n / 128 by omega]
    have hx := hor (n % 16 + 16) (by omega) w hw
    rw [show 8 * (n % 16 + 16) = 8 * n % 128 + 128 by omega] at hx
    rw [hx, show 8 * n % 128 + 128 + w = (8 * n + w) % 128 + 128 by omega]

theorem value_lt (bs : List UInt8) : value bs < 128 ^ bs.length := by
  induction bs with
  | nil => simp [value]
  | cons b bs ih =>
    rw [value, List.length_cons, pow_succ]
    omega

theorem value_append (bs cs : List UInt8) : value (bs ++ cs) = value bs + 128 ^ bs.length * value cs := by
  induction bs with
  | nil => simp [value]
  | cons b bs ih =>
    rw [List.cons_append, value, value, ih, List.length_cons, pow_succ]
    ring

/-! ## Finding the end -/

/-- The high bit of a byte. -/
theorem and_high_eq_zero (b : UInt8) : b &&& 0x80 = 0 ↔ b.toNat < 128 := by
  have hsplit : b.toNat &&& 128 = b.toNat / 128 % 2 * 128 := by
    have hbit : ∀ i : Fin 256, i.val &&& 128 = i.val / 128 % 2 * 128 := by decide +kernel
    exact hbit ⟨b.toNat, b.toNat_lt⟩
  have hlt : b.toNat < 256 := b.toNat_lt
  rw [← UInt8.toNat_inj, UInt8.toNat_and]
  change b.toNat &&& 128 = 0 ↔ _
  omega

theorem stopIndex_le {max : Nat} {bs : List UInt8} {i : Nat} (h : stopIndex max bs = some i) : i ≤ max := by
  induction max generalizing bs i with
  | zero =>
    cases h
    exact Nat.le_refl 0
  | succ max ih =>
    cases bs with
    | nil => cases h
    | cons b bs =>
      rw [stopIndex] at h
      split at h
      · cases h
        exact Nat.zero_le _
      · obtain ⟨j, hj, rfl⟩ := Option.map_eq_some_iff.1 h
        exact Nat.succ_le_succ (ih hj)

/-- A search that stays inside the bytes has a result. -/
theorem stopIndex_isSome {max : Nat} {bs : List UInt8} (h : max ≤ bs.length) : ∃ i, stopIndex max bs = some i := by
  induction max generalizing bs with
  | zero => exact ⟨0, rfl⟩
  | succ max ih =>
    cases bs with
    | nil => cases h
    | cons b bs =>
      rw [stopIndex]
      split
      · exact ⟨0, rfl⟩
      · obtain ⟨i, hi⟩ := ih (Nat.le_of_succ_le_succ h)
        exact ⟨i + 1, by rw [hi, Option.map_some]⟩

/-- A number that is short enough is found to its end, whatever follows. -/
theorem stopIndex_append {bs : List UInt8} (h : Ends bs) {max : Nat} (hmax : bs.length ≤ max) (rest : List UInt8) :
    stopIndex max (bs ++ rest) = some (bs.length - 1) := by
  induction bs generalizing max with
  | nil => exact absurd h id
  | cons b bs ih =>
    cases max with
    | zero => cases hmax
    | succ max =>
      rw [List.cons_append, stopIndex]
      cases bs with
      | nil => rw [if_pos ((and_high_eq_zero b).2 h), List.length_singleton]
      | cons c cs =>
        have hb : ¬b &&& 0x80 = 0 := by
          rw [and_high_eq_zero]
          exact Nat.not_lt.2 h.1
        rw [if_neg hb, ih h.2 (Nat.le_of_succ_le_succ hmax), Option.map_some, List.length_cons, List.length_cons]
        rfl

/-- The bytes up to the one that was found end there. -/
theorem ends_of_stopIndex {max : Nat} {bs : List UInt8} {i : Nat} (h : stopIndex max bs = some i) (hi : i < max) :
    i + 1 ≤ bs.length ∧ Ends (bs.take (i + 1)) := by
  induction max generalizing bs i with
  | zero => cases hi
  | succ max ih =>
    cases bs with
    | nil => cases h
    | cons b bs =>
      rw [stopIndex] at h
      split at h
      case isTrue hb =>
        cases h
        exact ⟨Nat.succ_le_succ (Nat.zero_le _), (and_high_eq_zero b).1 hb⟩
      case isFalse hb =>
        obtain ⟨j, hj, rfl⟩ := Option.map_eq_some_iff.1 h
        obtain ⟨hlen, hends⟩ := ih hj (Nat.lt_of_succ_lt_succ hi)
        refine ⟨Nat.succ_le_succ hlen, ?_⟩
        rw [List.take_succ_cons]
        rw [and_high_eq_zero] at hb
        exact ends_cons (Nat.le_of_not_lt hb) hends

/-- How many of the bytes end a number. -/
def lastDigits (bs : List UInt8) : Nat := bs.countP (·.toNat < 128)

theorem lastDigits_append (bs cs : List UInt8) : lastDigits (bs ++ cs) = lastDigits bs + lastDigits cs :=
  List.countP_append

theorem lastDigits_of_ends {bs : List UInt8} (h : Ends bs) : lastDigits bs = 1 := by
  induction bs with
  | nil => exact absurd h id
  | cons b bs ih =>
    cases bs with
    | nil =>
      have hb : b.toNat < 128 := h
      simp [lastDigits, hb]
    | cons c cs =>
      have hb : ¬b.toNat < 128 := Nat.not_lt.2 h.1
      have hrest := ih h.2
      rw [lastDigits] at hrest ⊢
      rw [List.countP_cons_of_neg (by simpa using hb), hrest]

theorem lastDigits_le (bs : List UInt8) : lastDigits bs ≤ bs.length := List.countP_le_length

/-- The number that the bytes start with, if it ends within `max` of them. -/
def front : Nat → List UInt8 → Option (List UInt8)
  | 0, _ => none
  | _ + 1, [] => none
  | max + 1, b :: bs => if b.toNat < 128 then some [b] else (front max bs).map (b :: ·)

theorem front_eq_some {max : Nat} {bs ds : List UInt8} (h : front max bs = some ds) :
    Ends ds ∧ ds.length ≤ max ∧ ∃ rest, bs = ds ++ rest := by
  induction max generalizing bs ds with
  | zero => cases h
  | succ max ih =>
    cases bs with
    | nil => cases h
    | cons b bs =>
      rw [front] at h
      split at h
      case isTrue hb =>
        cases h
        exact ⟨hb, Nat.le_add_left 1 max, bs, rfl⟩
      case isFalse hb =>
        obtain ⟨ds, hds, rfl⟩ := Option.map_eq_some_iff.1 h
        obtain ⟨hends, hlen, rest, rfl⟩ := ih hds
        exact ⟨ends_cons (Nat.le_of_not_lt hb) hends, Nat.succ_le_succ hlen, rest, rfl⟩

theorem front_append {max : Nat} {ds : List UInt8} (h : Ends ds) (hmax : ds.length ≤ max) (rest : List UInt8) :
    front max (ds ++ rest) = some ds := by
  induction ds generalizing max with
  | nil => exact absurd h id
  | cons b ds ih =>
    cases max with
    | zero => cases hmax
    | succ max =>
      rw [List.cons_append, front]
      cases ds with
      | nil => exact if_pos h
      | cons c ds => rw [if_neg (Nat.not_lt.2 h.1), ih h.2 (Nat.le_of_succ_le_succ hmax), Option.map_some]

theorem front_min (max : Nat) (bs : List UInt8) : front (min max bs.length) bs = front max bs := by
  induction max generalizing bs with
  | zero => rw [Nat.zero_min]
  | succ max ih =>
    cases bs with
    | nil => rfl
    | cons b bs => rw [List.length_cons, Nat.succ_min_succ, front, front, ih]

/-- A search looks no further than it is told to. -/
theorem stopIndex_inside {n : Nat} {bs : List UInt8} (h : n ≤ bs.length) (rest : List UInt8) :
    stopIndex n (bs ++ rest) = stopIndex n bs := by
  induction n generalizing bs with
  | zero => rfl
  | succ n ih =>
    cases bs with
    | nil => cases h
    | cons b bs => rw [List.cons_append, stopIndex, stopIndex, ih (Nat.le_of_succ_le_succ h)]

/-- A search for the end finds the number, or comes to the end itself. -/
theorem stopIndex_front (max : Nat) (bs : List UInt8) :
    stopIndex (min max bs.length) bs =
      some (match front max bs with | some ds => ds.length - 1 | none => min max bs.length) ∧
      ∀ ds, front max bs = some ds → ds.length - 1 < min max bs.length := by
  cases hfront : front max bs with
  | some ds =>
    obtain ⟨hends, hlen, rest, rfl⟩ := front_eq_some hfront
    have hpos : 0 < ds.length := by
      cases ds with
      | nil => exact absurd hends id
      | cons d ds => exact Nat.succ_pos _
    have hmin : ds.length ≤ min max (ds ++ rest).length := by
      rw [List.length_append]
      omega
    refine ⟨stopIndex_append hends hmin rest, fun ds' heq => ?_⟩
    cases heq
    omega
  | none =>
    obtain ⟨i, hi⟩ := stopIndex_isSome (Nat.min_le_right max bs.length)
    refine ⟨?_, fun ds heq => by cases heq⟩
    rcases Nat.lt_or_ge i (min max bs.length) with hlt | hge
    · obtain ⟨hlen, hends⟩ := ends_of_stopIndex hi hlt
      have hsome : front max (bs.take (i + 1) ++ bs.drop (i + 1)) = _ :=
        front_append hends (by rw [List.length_take]; omega) _
      rw [List.take_append_drop, hfront] at hsome
      cases hsome
    · rw [hi, Nat.le_antisymm (stopIndex_le hi) hge]

/-! ## In a word -/

/-- Setting bits above those that are set adds them. -/
theorem or_shiftLeft {w a s : Nat} (x : Nat) (ha : a < 2 ^ s) (hw : a < 2 ^ w) :
    a ||| x <<< s % 2 ^ w = (a + 2 ^ s * x) % 2 ^ w := by
  rcases Nat.le_total s w with hs | hs
  · obtain ⟨d, rfl⟩ := Nat.exists_eq_add_of_le hs
    have hmod : x <<< s % 2 ^ (s + d) = 2 ^ s * (x % 2 ^ d) := by
      rw [Nat.shiftLeft_eq, Nat.mul_comm, pow_add, Nat.mul_mod_mul_left]
    have hlt : a + 2 ^ s * (x % 2 ^ d) < 2 ^ (s + d) := by
      have hd : x % 2 ^ d < 2 ^ d := Nat.mod_lt _ (Nat.two_pow_pos d)
      have hmul : 2 ^ s * (x % 2 ^ d + 1) ≤ 2 ^ s * 2 ^ d := Nat.mul_le_mul_left _ hd
      rw [pow_add]
      rw [Nat.mul_add, Nat.mul_one] at hmul
      omega
    have hadd : (a + 2 ^ s * x) % 2 ^ (s + d) = (a + 2 ^ s * (x % 2 ^ d)) % 2 ^ (s + d) := by
      rw [Nat.add_mod, ← hmod, Nat.shiftLeft_eq, Nat.mul_comm x, Nat.add_mod a, Nat.mod_mod]
    rw [hmod, hadd, Nat.mod_eq_of_lt hlt, Nat.or_comm, ← Nat.two_pow_add_eq_or_of_lt ha, Nat.add_comm]
  · obtain ⟨d, rfl⟩ := Nat.exists_eq_add_of_le hs
    have hzero : ∀ y, (2 ^ (w + d) * y) % 2 ^ w = 0 := by
      intro y
      rw [pow_add, Nat.mul_assoc, Nat.mul_mod_right]
    rw [Nat.shiftLeft_eq, Nat.mul_comm, hzero, Nat.or_zero, Nat.add_mod, hzero, Nat.add_zero, Nat.mod_mod,
      Nat.mod_eq_of_lt hw]

/-- Putting one more digit above those that are in. -/
theorem or_digit {w s : Nat} {bs : List UInt8} (b : UInt8) (hs : s = 7 * bs.length) (hroom : s + 7 ≤ w) :
    value bs ||| (b.toNat % 128) <<< s % 2 ^ w = value (bs ++ [b]) := by
  have hpow : 128 ^ bs.length = 2 ^ s := by
    rw [hs, pow_mul]
    rfl
  have hbs : value bs < 2 ^ s := hpow ▸ value_lt bs
  have hlt : value (bs ++ [b]) < 2 ^ w := by
    refine Nat.lt_of_lt_of_le (value_lt _) ?_
    rw [List.length_append, List.length_singleton, pow_succ, hpow, show 128 = 2 ^ 7 from rfl, ← pow_add]
    exact Nat.pow_le_pow_right (by decide) hroom
  have hw : value bs < 2 ^ w := Nat.lt_of_lt_of_le hbs (Nat.pow_le_pow_right (by decide) (by omega))
  rw [or_shiftLeft _ hbs hw, ← hpow]
  rw [value_append, value, value, Nat.mul_zero, Nat.add_zero] at hlt ⊢
  exact Nat.mod_eq_of_lt hlt

end KSockLib.Varint
