import KSock.Protobuf.Unpack
import KSock.Lib.Wire
/-!
# The scanners read the wire format

What `parse_tag_and_wiretype`, `scan_length_prefixed_data` and the switch on the
wire type find at the front of the bytes is what the wire format has there, and
they look no further than the bytes they are given.
-/
open KSockLib KSockLib.Varint KSockLib.Wire

namespace KSock.Protobuf

namespace Outcome
variable {α β : Type}

/-- No fault. -/
def total : Option α → Outcome α
  | none => fail
  | some a => ok a

@[simp] theorem pure_eq (a : α) : (pure a : Outcome α) = ok a := rfl
@[simp] theorem bind_ok (a : α) (f : α → Outcome β) : (ok a >>= f) = f a := rfl
@[simp] theorem bind_fail (f : α → Outcome β) : ((fail : Outcome α) >>= f) = fail := rfl
@[simp] theorem bind_fault (f : α → Outcome β) : ((fault : Outcome α) >>= f) = fault := rfl
@[simp] theorem lift_some (a : α) : (liftM (some a) : Outcome α) = ok a := rfl
@[simp] theorem lift_none : (liftM (none : Option α) : Outcome α) = fault := rfl

end Outcome

/-- The next digit goes above those that are in. -/
theorem value_digit (ds : List UInt8) (b : UInt8) :
    value (ds ++ [b]) = value ds + 2 ^ (7 * ds.length) * (b.toNat % 128) := by
  rw [value_append, value, value, Nat.mul_zero, Nat.add_zero, pow_mul]
  rfl

theorem value_digit_lt (ds : List UInt8) : value ds < 2 ^ (7 * ds.length) := by
  rw [pow_mul]
  exact value_lt ds

theorem getElem?_middle (ds : List UInt8) (b : UInt8) (bs : List UInt8) : (ds ++ (b :: bs))[ds.length]? = some b := by
  rw [List.getElem?_append_right (Nat.le_refl _), Nat.sub_self, List.getElem?_cons_zero]

theorem tag_digit {ds : List UInt8} {tag shift : UInt32} {b : UInt8} {x : UInt32} (hpos : 0 < ds.length)
    (hroom : ds.length < 5) (htag : tag.toNat = value ds / 8) (hshift : shift.toNat + 3 = 7 * ds.length)
    (hx : x.toNat = b.toNat % 128) : (tag ||| x <<< shift).toNat = value (ds ++ [b]) / 8 := by
  have hds := value_digit_lt ds
  have hpow : 2 ^ (7 * ds.length) = 8 * 2 ^ shift.toNat := by
    rw [← hshift, pow_add]
    exact Nat.mul_comm _ _
  have hlt : value (ds ++ [b]) < 2 ^ 35 :=
    Nat.lt_of_lt_of_le (value_digit_lt _) (Nat.pow_le_pow_right (by decide) (by
      rw [List.length_append, List.length_singleton]; omega))
  have hvalue := value_digit ds b
  rw [toNat_or_shiftLeft32 x (by omega) (by omega), htag, hx]
  rw [hpow, Nat.mul_assoc] at hvalue
  omega

/-- The rounds that are left look at the next digits. -/
theorem parseTagLoop_eq {n : Nat} (ds bs : List UInt8) {rest : List UInt8} {tag shift : UInt32} (hpos : 0 < ds.length)
    (hn : n ≤ bs.length) (hroom : ds.length + n ≤ 5) (htag : tag.toNat = value ds / 8)
    (hshift : shift.toNat + 3 = 7 * ds.length) : parseTagLoop n (ds ++ (bs ++ rest)) ds.length tag shift =
      some (match front n bs with
        | none => (0, 0)
        | some key => (ds.length + key.length, UInt32.ofNat (value (ds ++ key) / 8))) := by
  induction n generalizing ds bs tag shift with
  | zero => rfl
  | succ n ih =>
    cases bs with
    | nil => cases hn
    | cons b bs =>
      rw [parseTagLoop, List.cons_append, getElem?_middle, front]
      simp only [Option.bind_eq_bind, Option.bind_some, ne_eq, and_high_eq_zero]
      have hlow := b.toNat_lt
      by_cases hb : b.toNat < 128
      · rw [if_neg (not_not.2 hb), if_pos hb]
        have hdigit := tag_digit (b := b) (x := b.toUInt32) hpos (by omega) htag hshift (by
          rw [UInt8.toNat_toUInt32]; omega)
        change some (_, _) = some (ds.length + 1, UInt32.ofNat (value (ds ++ [b]) / 8))
        rw [← hdigit, UInt32.ofNat_toNat]
      · rw [if_pos hb, if_neg hb]
        have hdigit := tag_digit (b := b) (x := (b &&& 0x7f).toUInt32) hpos (by omega) htag hshift (by
          rw [UInt8.toNat_toUInt32, toNat_and_low])
        have hnext : (shift + 7).toNat = shift.toNat + 7 := by
          rw [UInt32.toNat_add, show (7 : UInt32).toNat = 7 from rfl]
          omega
        have hlen : (ds ++ [b]).length = ds.length + 1 := by rw [List.length_append, List.length_singleton]
        have hih := ih (ds ++ [b]) bs (by omega) (by rw [List.length_cons] at hn; omega) (by omega)
          hdigit (by rw [hnext, hlen]; omega)
        rw [List.append_assoc, List.singleton_append, hlen] at hih
        rw [hih]
        cases front n bs with
        | none => rfl
        | some key =>
          simp only [Option.map_some, List.length_cons, List.append_assoc, List.singleton_append]
          rw [Nat.add_assoc, Nat.add_comm 1]

theorem first_byte (b : UInt8) : (b &&& 0xf8 = 0 ↔ b.toNat < 8) ∧ (b &&& 7).toNat = b.toNat % 8 ∧
    ((b &&& 0x7f) >>> 3).toUInt32.toNat = b.toNat % 128 / 8 := by
  have hlt : b.toNat < 256 := b.toNat_lt
  refine ⟨?_, ?_, ?_⟩
  · have hsplit : b.toNat &&& 248 = b.toNat / 8 * 8 := by
      have hbits : ∀ i : Fin 256, i.val &&& 248 = i.val / 8 * 8 := by decide +kernel
      exact hbits ⟨b.toNat, hlt⟩
    rw [← UInt8.toNat_inj, UInt8.toNat_and]
    change b.toNat &&& 248 = 0 ↔ _
    omega
  · rw [UInt8.toNat_and]
    exact Nat.and_two_pow_sub_one_eq_mod _ 3
  · rw [UInt8.toNat_toUInt32, UInt8.toNat_shiftRight, toNat_and_low]
    exact Nat.shiftRight_eq_div_pow _ 3

/-- The tag is at the front, or there is none. -/
theorem parseTagAndWiretype_eq {bs : List UInt8} (hpos : 0 < bs.length) (rest : List UInt8) :
    ∃ used tag wireType, parseTagAndWiretype bs.length (bs ++ rest) = some (used, tag, wireType) ∧
      match front 5 bs with
      | none => used = 0
      | some key => if (key.headD 0).toNat < 8 then used = 0 else
          used = key.length ∧ tag = UInt32.ofNat (value key / 8) ∧ wireType = UInt8.ofNat (value key % 8) := by
  obtain ⟨b, bs, rfl⟩ := List.exists_cons_of_length_pos hpos
  obtain ⟨hzero, hlow, htag⟩ := first_byte b
  rw [parseTagAndWiretype, List.cons_append, List.getElem?_cons_zero, front]
  simp only [Option.bind_eq_bind, Option.bind_some, hzero, and_high_eq_zero]
  by_cases h8 : b.toNat < 8
  · refine ⟨0, 0, 0, by rw [if_pos h8]; rfl, ?_⟩
    rw [if_pos (by omega)]
    change if b.toNat < 8 then 0 = 0 else _
    rw [if_pos h8]
  rw [if_neg h8]
  have hb128 := b.toNat_lt
  by_cases h128 : b.toNat < 128
  · refine ⟨1, _, _, by rw [if_pos h128]; rfl, ?_⟩
    rw [if_pos h128]
    change if b.toNat < 8 then 1 = 0 else 1 = 1 ∧ _
    rw [if_neg h8]
    have hvalue : value [b] = b.toNat := by
      rw [value, value]
      omega
    refine ⟨rfl, ?_, ?_⟩
    · rw [← UInt32.toNat_inj, htag, hvalue, UInt32.toNat_ofNat']
      omega
    · rw [← UInt8.toNat_inj, hlow, hvalue, UInt8.toNat_ofNat']
      omega
  · have hrounds : (if (b :: bs).length > 5 then 5 else (b :: bs).length) - 1 = min 4 bs.length := by
      rw [List.length_cons]
      split <;> omega
    have hloop : parseTagLoop (min 4 bs.length) ([b] ++ (bs ++ rest)) _ ((b &&& 0x7f) >>> 3).toUInt32 4 = _ :=
      parseTagLoop_eq [b] bs Nat.one_pos (Nat.min_le_right _ _)
      (by rw [List.length_singleton]; omega) (by rw [htag, value, value]; omega) rfl
    rw [front_min, List.singleton_append, List.length_singleton] at hloop
    rw [if_neg h128, if_neg h128, hrounds, hloop]
    cases hfront : front 4 bs with
    | none => exact ⟨_, _, _, rfl, rfl⟩
    | some key =>
      refine ⟨_, _, _, rfl, ?_⟩
      change if b.toNat < 8 then _ else _
      rw [if_neg h8]
      refine ⟨?_, rfl, ?_⟩
      · rw [List.length_cons, Nat.add_comm]
      · rw [← UInt8.toNat_inj, hlow, UInt8.toNat_ofNat', value]
        omega

/-! ## Bodies -/

theorem length_digit (ds : List UInt8) (b : UInt8) :
    value ds ||| (b &&& 0x7f).toNat <<< (7 * ds.length) = value (ds ++ [b]) := by
  rw [toNat_and_low, Nat.shiftLeft_eq, Nat.mul_comm, Nat.or_comm, ← Nat.two_pow_add_eq_or_of_lt (value_digit_lt ds),
    value_digit, Nat.add_comm]

theorem scanLengthLoop_eq {n : Nat} (ds : List UInt8) {bs : List UInt8} (rest : List UInt8) (hn : n ≤ bs.length) :
    ∃ val, scanLengthLoop n (ds ++ (bs ++ rest)) ds.length (value ds) (7 * ds.length) =
      some (match front n bs with
        | none => (ds.length + n, val)
        | some key => (ds.length + key.length - 1, value (ds ++ key))) := by
  induction n generalizing ds bs with
  | zero => exact ⟨value ds, rfl⟩
  | succ n ih =>
    cases bs with
    | nil => cases hn
    | cons b bs =>
      rw [scanLengthLoop, List.cons_append, getElem?_middle, front]
      simp only [Option.bind_eq_bind, Option.bind_some, and_high_eq_zero, length_digit]
      by_cases hb : b.toNat < 128
      · rw [if_pos hb, if_pos hb]
        exact ⟨0, rfl⟩
      · rw [if_neg hb, if_neg hb]
        have hlen : (ds ++ [b]).length = ds.length + 1 := by rw [List.length_append, List.length_singleton]
        obtain ⟨val, hih⟩ := ih (ds ++ [b]) (Nat.le_of_succ_le_succ hn)
        rw [List.append_assoc, List.singleton_append, hlen, Nat.mul_add] at hih
        refine ⟨val, ?_⟩
        rw [hih]
        cases front n bs with
        | none => simp only [Option.map_none]; rw [Nat.add_assoc, Nat.add_comm 1]
        | some key =>
          simp only [Option.map_some, List.length_cons, List.append_assoc, List.singleton_append]
          rw [Nat.add_assoc, Nat.add_comm 1]

theorem scanLengthPrefixedData_eq (bs rest : List UInt8) :
    ∃ prefLen, scanLengthPrefixedData bs.length (bs ++ rest) =
      some (match delimited bs with | none => (0, prefLen) | some ds => (ds.length, prefixLength ds)) := by
  have hmax : (if bs.length < 5 then bs.length else 5) = min 5 bs.length := by split <;> omega
  obtain ⟨val, hloop⟩ := scanLengthLoop_eq [] rest (Nat.min_le_right 5 bs.length)
  rw [front_min] at hloop
  simp only [List.nil_append, List.length_nil, value, Nat.mul_zero, Nat.zero_add] at hloop
  rw [scanLengthPrefixedData, hmax, hloop]
  cases hfront : front 5 bs with
  | none =>
    refine ⟨0, ?_⟩
    simp only [delimited, hfront, Option.bind_eq_bind, Option.bind_some, Option.bind_none, if_true]
    rfl
  | some key =>
    obtain ⟨hends, hlen, bs', hbs⟩ := front_eq_some hfront
    have hpos := ends_ne_nil hends
    have hle : key.length ≤ bs.length := by
      rw [hbs, List.length_append]
      omega
    have hne : ¬key.length - 1 = min 5 bs.length := by omega
    refine ⟨key.length, ?_⟩
    simp only [Option.bind_eq_bind, Option.bind_some, if_neg hne, Nat.sub_add_cancel hpos]
    cases hdelimited : delimited bs with
    | none =>
      rw [delimited, hfront, Option.bind_eq_bind, Option.bind_some] at hdelimited
      split_ifs at hdelimited ⊢ <;> first | rfl | omega
    | some ds =>
      obtain ⟨key', rest', hkey', hsplit, hpayload, hkeyLength, hvalue, hlt⟩ := delimited_eq_some hdelimited
      rw [hfront] at hkey'
      cases hkey'
      have hlength : key.length + value key = ds.length := by
        rw [hvalue, ← List.length_append, ← hpayload]
      have hshort : ds.length ≤ bs.length := by
        rw [hsplit, List.length_append]
        omega
      rw [if_neg (by omega), if_neg (by omega)]
      change some (_, _) = some (ds.length, prefixLength ds)
      rw [hkeyLength, hlength]

/-- The length of the prefix of a body. -/
def bodyPrefix (wireType : Nat) (body : List UInt8) : Nat := if wireType = 2 then prefixLength body else 0

theorem scanBody_fixed {n : Nat} (bs : List UInt8) :
    (if bs.length < n then Outcome.fail else (Outcome.ok (n, 0) : Outcome (Nat × Nat))) =
      Outcome.total ((if n ≤ bs.length then some (bs.take n) else none).map fun body => (body.length, 0)) := by
  split_ifs with hlt hle hle
  · omega
  · rfl
  · rw [Option.map_some, List.length_take, Nat.min_eq_left hle]
    rfl
  · omega

theorem scanBody_eq {wireType : Nat} (hw : wireType < 8) (bs rest : List UInt8) :
    scanBody (UInt8.ofNat wireType) bs.length (bs ++ rest) =
      Outcome.total ((bodyOf wireType bs).map fun body => (body.length, bodyPrefix wireType body)) := by
  match wireType with
  | 0 =>
    have hmax : (if bs.length < 10 then bs.length else 10) = min 10 bs.length := by split <;> omega
    obtain ⟨hstop, hfound⟩ := stopIndex_front 10 bs
    change (liftM (stopIndex (if bs.length < 10 then bs.length else 10) (bs ++ rest)) >>= _) =
      Outcome.total ((front 10 bs).map _)
    rw [hmax, stopIndex_inside (Nat.min_le_right 10 bs.length), hstop]
    cases hfront : front 10 bs with
    | none => exact if_pos rfl
    | some ds =>
      have hpos := ends_ne_nil (front_eq_some hfront).1
      refine (if_neg (Nat.ne_of_lt (hfound ds hfront))).trans ?_
      rw [Nat.sub_add_cancel hpos]
      rfl
  | 1 => exact scanBody_fixed bs
  | 2 =>
    obtain ⟨prefLen, hscan⟩ := scanLengthPrefixedData_eq bs rest
    change (liftM (scanLengthPrefixedData bs.length (bs ++ rest)) >>= _) = Outcome.total ((delimited bs).map _)
    rw [hscan]
    cases hdelimited : delimited bs with
    | none => rfl
    | some ds =>
      have hpos : 0 < ds.length := (bodyOf_eq_some (show bodyOf 2 bs = some ds from hdelimited)).2.1
      exact if_neg (Nat.pos_iff_ne_zero.1 hpos)
  | 3 => rfl
  | 4 => rfl
  | 5 => exact scanBody_fixed bs
  | 6 => rfl
  | 7 => rfl
  | n + 8 => omega

end KSock.Protobuf
