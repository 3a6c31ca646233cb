import KSock.Lib.Varint
import KSock.Utils
/-!
# Scalars on the wire

The scalar encodings of `protobuf-c.c`: sizes, packers and parsers. A packer is
given by the bytes it writes to `out`; their number is what it returns. A parser
reads behind a pointer, so it has no result where it reads past the memory it
was given.

Integers are packed in base 128, by unrolled code that differs for 32 and 64
bits and for negative numbers. Each of the packers writes `Varint.encode` of
some number, each of the parsers takes `Varint.value` of its bytes modulo its
word, and each of the size functions is the length of what the packer writes.
-/
open KSockLib KSockLib.Varint KSockLib.Endian

namespace KSock.Protobuf

/-! ## Sizes -/

def getTagSize (number : UInt32) : Nat :=
  if number < 0x10 then 1
  else if number < 0x800 then 2
  else if number < 0x40000 then 3
  else if number < 0x2000000 then 4
  else 5

def uint32Size (v : UInt32) : Nat :=
  if v < 0x80 then 1
  else if v < 0x4000 then 2
  else if v < 0x200000 then 3
  else if v < 0x10000000 then 4
  else 5

def int32Size (v : Int32) : Nat :=
  if v < 0 then 10
  else if v < 0x80 then 1
  else if v < 0x4000 then 2
  else if v < 0x200000 then 3
  else if v < 0x10000000 then 4
  else 5

def zigzag32 (v : Int32) : UInt32 := (v.toUInt32 <<< 1) ^^^ -(v.toUInt32 >>> 31)

def sint32Size (v : Int32) : Nat := uint32Size (zigzag32 v)

def uint64Size (v : UInt64) : Nat :=
  let upperV := (v >>> 32).toUInt32
  if upperV = 0 then uint32Size v.toUInt32
  else if upperV < 8 then 5
  else if upperV < 0x400 then 6
  else if upperV < 0x20000 then 7
  else if upperV < 0x1000000 then 8
  else if upperV < 0x80000000 then 9
  else 10

def zigzag64 (v : Int64) : UInt64 := (v.toUInt64 <<< 1) ^^^ -(v.toUInt64 >>> 63)

def sint64Size (v : Int64) : Nat := uint64Size (zigzag64 v)

/-! ## Packers -/

def uint32Pack (value : UInt32) : List UInt8 :=
  if value ≥ 0x80 then
    (value ||| 0x80).toUInt8 ::
      let value := value >>> 7
      if value ≥ 0x80 then
        (value ||| 0x80).toUInt8 ::
          let value := value >>> 7
          if value ≥ 0x80 then
            (value ||| 0x80).toUInt8 ::
              let value := value >>> 7
              if value ≥ 0x80 then
                (value ||| 0x80).toUInt8 ::
                  let value := value >>> 7
                  [value.toUInt8]
              else [value.toUInt8]
          else [value.toUInt8]
      else [value.toUInt8]
  else [value.toUInt8]

def int32Pack (value : UInt32) : List UInt8 :=
  if value.toInt32 < 0 then
    [(value ||| 0x80).toUInt8, ((value >>> 7) ||| 0x80).toUInt8, ((value >>> 14) ||| 0x80).toUInt8,
      ((value >>> 21) ||| 0x80).toUInt8, ((value >>> 28) ||| 0xf0).toUInt8, 0xff, 0xff, 0xff, 0xff, 0x01]
  else uint32Pack value

def sint32Pack (value : Int32) : List UInt8 := uint32Pack (zigzag32 value)

/-- The loop at the end of `uint64_pack`, which goes round at most four times. -/
def packHigh : Nat → UInt32 → List UInt8
  | 0, hi => [hi.toUInt8]
  | n + 1, hi => if hi ≥ 128 then (hi ||| 0x80).toUInt8 :: packHigh n (hi >>> 7) else [hi.toUInt8]

def uint64Pack (value : UInt64) : List UInt8 :=
  let hi := (value >>> 32).toUInt32
  let lo := value.toUInt32
  if hi = 0 then uint32Pack lo else
  let out := [(lo ||| 0x80).toUInt8, ((lo >>> 7) ||| 0x80).toUInt8, ((lo >>> 14) ||| 0x80).toUInt8,
    ((lo >>> 21) ||| 0x80).toUInt8]
  if hi < 8 then out ++ [((hi <<< 4) ||| (lo >>> 28)).toUInt8]
  else out ++ (((hi &&& 7) <<< 4) ||| (lo >>> 28) ||| 0x80).toUInt8 :: packHigh 4 (hi >>> 3)

def sint64Pack (value : Int64) : List UInt8 := uint64Pack (zigzag64 value)

def fixed32Pack (value : UInt32) : List UInt8 := storeU32 value
def fixed64Pack (value : UInt64) : List UInt8 := storeU64 value
def booleanPack (value : Bool) : List UInt8 := [if value then 1 else 0]

def tagPack (id : UInt32) : List UInt8 :=
  if id < 0x20000000 then uint32Pack (id <<< 3) else uint64Pack (id.toUInt64 <<< 3)

/-! ## Parsers -/

def parseUint32 (len : Nat) (data : List UInt8) : Option UInt32 := do
  let rv := ((← data[0]?) &&& 0x7f).toUInt32
  if ¬len > 1 then return rv
  let rv := rv ||| ((← data[1]?) &&& 0x7f).toUInt32 <<< 7
  if ¬len > 2 then return rv
  let rv := rv ||| ((← data[2]?) &&& 0x7f).toUInt32 <<< 14
  if ¬len > 3 then return rv
  let rv := rv ||| ((← data[3]?) &&& 0x7f).toUInt32 <<< 21
  if ¬len > 4 then return rv
  return rv ||| (← data[4]?).toUInt32 <<< 28

def parseInt32 (len : Nat) (data : List UInt8) : Option UInt32 := parseUint32 len data

def unzigzag32 (v : UInt32) : Int32 := ((v >>> 1) ^^^ -(v &&& 1)).toInt32

/-- The next `n` rounds of the loop in `parse_uint64`. -/
def parseHigh : Nat → List UInt8 → UInt64 → UInt64 → Option UInt64
  | 0, _, _, rv => some rv
  | n + 1, data, shift, rv => do
    let b ← data.head?
    parseHigh n data.tail (shift + 7) (rv ||| (b &&& 0x7f).toUInt64 <<< shift)

def parseUint64 (len : Nat) (data : List UInt8) : Option UInt64 := do
  if len < 5 then return (← parseUint32 len data).toUInt64
  let rv := ((← data[0]?) &&& 0x7f).toUInt64 ||| ((← data[1]?) &&& 0x7f).toUInt64 <<< 7 |||
    ((← data[2]?) &&& 0x7f).toUInt64 <<< 14 ||| ((← data[3]?) &&& 0x7f).toUInt64 <<< 21
  parseHigh (len - 4) (data.drop 4) 28 rv

def unzigzag64 (v : UInt64) : Int64 := ((v >>> 1) ^^^ -(v &&& 1)).toInt64

/-- `memcpy` of the first `n` bytes behind `data`. -/
def copy (n : Nat) (data : List UInt8) : Option (List UInt8) :=
  if n ≤ data.length then some (data.take n) else none

def parseFixedUint32 (data : List UInt8) : Option UInt32 := (copy 4 data).map loadU32

def parseFixedUint64 (data : List UInt8) : Option UInt64 := (copy 8 data).map fun raw => UInt64.ofNat (ofLE raw)

def parseBoolean : Nat → List UInt8 → Option Bool
  | 0, _ => some false
  | len + 1, data => do
    let b ← data.head?
    if b &&& 0x7f ≠ 0 then return true
    parseBoolean len data.tail

/-! ## What the packers write -/

/-- Shifting a word right divides it. -/
theorem toNat_shiftRight32 (v : UInt32) {s : UInt32} (hs : s.toNat < 32) : (v >>> s).toNat = v.toNat / 2 ^ s.toNat := by
  rw [UInt32.toNat_shiftRight, Nat.mod_eq_of_lt hs, Nat.shiftRight_eq_div_pow]

theorem toNat_shiftRight64 (v : UInt64) {s : UInt64} (hs : s.toNat < 64) : (v >>> s).toNat = v.toNat / 2 ^ s.toNat := by
  rw [UInt64.toNat_shiftRight, Nat.mod_eq_of_lt hs, Nat.shiftRight_eq_div_pow]

theorem toUInt8_eq (v : UInt32) : v.toUInt8 = UInt8.ofNat v.toNat := by
  apply UInt8.toNat_inj.1
  rw [UInt32.toNat_toUInt8, UInt8.toNat_ofNat']

/-- Seven bits of a word, with the high bit of the byte set. -/
theorem or_high (v : UInt32) : (v ||| 0x80).toUInt8 = UInt8.ofNat (v.toNat % 128 + 128) := by
  have hbyte : ∀ i : Fin 256, i.val ||| 128 = i.val % 128 + 128 := by decide +kernel
  have hlow := hbyte ⟨v.toNat % 256, Nat.mod_lt _ (by decide)⟩
  apply UInt8.toNat_inj.1
  rw [UInt32.toNat_toUInt8, UInt32.toNat_or, UInt8.toNat_ofNat', Nat.or_mod_two_pow]
  change v.toNat % 256 ||| 128 = _
  rw [hlow]
  dsimp only
  omega

theorem encode_continues {v : UInt32} (h : v ≥ 0x80) :
    encode v.toNat = (v ||| 0x80).toUInt8 :: encode (v >>> 7).toNat := by
  have hge : 128 ≤ v.toNat := UInt32.le_iff_toNat_le.1 h
  rw [encode_of_ge hge, or_high, toNat_shiftRight32 v (by decide)]
  rfl

theorem encode_stops {v : UInt32} (h : ¬v ≥ 0x80) : encode v.toNat = [v.toUInt8] := by
  have hlt : v.toNat < 128 := by
    have := mt UInt32.le_iff_toNat_le.2 h
    exact Nat.lt_of_not_le this
  rw [encode_of_lt hlt, toUInt8_eq]

theorem uint32Pack_eq (value : UInt32) : uint32Pack value = encode value.toNat := by
  have hlast : ¬value >>> 7 >>> 7 >>> 7 >>> 7 ≥ 0x80 := by
    rw [ge_iff_le, UInt32.le_iff_toNat_le]
    simp only [toNat_shiftRight32 _ (show (7 : UInt32).toNat < 32 by decide)]
    have := value.toNat_lt
    change ¬128 ≤ value.toNat / 128 / 128 / 128 / 128
    omega
  unfold uint32Pack
  split
  case isFalse h => rw [encode_stops h]
  case isTrue h =>
    rw [encode_continues h]
    dsimp only
    split
    case isFalse h => rw [encode_stops h]
    case isTrue h =>
      rw [encode_continues h]
      split
      case isFalse h => rw [encode_stops h]
      case isTrue h =>
        rw [encode_continues h]
        split
        case isFalse h => rw [encode_stops h]
        case isTrue h => rw [encode_continues h, encode_stops hlast]

/-- The 64-bit number that `int32_pack` packs: 32 bits, extended by their sign. -/
def signExtend (v : UInt32) : Nat := if v.toInt32 < 0 then v.toNat + (2 ^ 64 - 2 ^ 32) else v.toNat

theorem toInt32_neg_iff (v : UInt32) : v.toInt32 < 0 ↔ 2 ^ 31 ≤ v.toNat := by
  have hlt := v.toNat_lt
  have htoInt : v.toInt32.toInt = (v.toNat : Int).bmod (2 ^ 32) := by
    rw [Int32.toInt, UInt32.toBitVec_toInt32, BitVec.toInt_eq_toNat_bmod]
    rfl
  rw [Int32.lt_iff_toInt_lt, htoInt, Int.bmod_def]
  change _ < 0 ↔ _
  split <;> omega

theorem int32Pack_eq (value : UInt32) : int32Pack value = encode (signExtend value) := by
  unfold int32Pack signExtend
  split
  case isFalse => exact uint32Pack_eq value
  case isTrue hneg =>
    have hlt := value.toNat_lt
    rw [toInt32_neg_iff] at hneg
    generalize hn : value.toNat = n at hlt hneg
    have h7 : (value >>> 7).toNat = n / 2 ^ 7 := by rw [toNat_shiftRight32 value (by decide), hn]; rfl
    have h14 : (value >>> 14).toNat = n / 2 ^ 14 := by rw [toNat_shiftRight32 value (by decide), hn]; rfl
    have h21 : (value >>> 21).toNat = n / 2 ^ 21 := by rw [toNat_shiftRight32 value (by decide), hn]; rfl
    have h28 : (value >>> 28).toNat = n / 2 ^ 28 := by rw [toNat_shiftRight32 value (by decide), hn]; rfl
    have htop : ((value >>> 28) ||| 0xf0).toUInt8 = UInt8.ofNat (n / 2 ^ 28 + 240) := by
      have hbyte : ∀ i : Fin 16, i.val ||| 240 = i.val + 240 := by decide +kernel
      have := hbyte ⟨n / 2 ^ 28, by omega⟩
      rw [toUInt8_eq, UInt32.toNat_or, h28]
      exact congrArg UInt8.ofNat this
    rw [encode_eq_lowDigits (k := 9) (by omega), encode_of_lt (by omega)]
    simp only [lowDigits, or_high, htop, h7, h14, h21, hn]
    have hbyte : ∀ {a b : Nat}, a = b → UInt8.ofNat a = UInt8.ofNat b := fun h => congrArg UInt8.ofNat h
    have hones : ∀ {b : Nat}, 255 = b → (0xff : UInt8) = UInt8.ofNat b := fun h => congrArg UInt8.ofNat h
    have hone : ∀ {b : Nat}, 1 = b → (0x01 : UInt8) = UInt8.ofNat b := fun h => congrArg UInt8.ofNat h
    simp only [List.cons_append, List.nil_append, List.cons.injEq, and_true]
    exact ⟨hbyte (by omega), hbyte (by omega), hbyte (by omega), hbyte (by omega), hbyte (by omega),
      hones (by omega), hones (by omega), hones (by omega), hones (by omega), hone (by omega)⟩

/-- The high word of a number that needs it, from its third bit on. -/
theorem packHigh_eq {n : Nat} {hi : UInt32} (h : hi.toNat < 128 ^ (n + 1)) : packHigh n hi = encode hi.toNat := by
  induction n generalizing hi with
  | zero => rw [packHigh, encode_of_lt (by omega), toUInt8_eq]
  | succ n ih =>
    rw [packHigh]
    split
    case isFalse hlt => rw [encode_stops hlt]
    case isTrue hge =>
      have hshift : (hi >>> 7).toNat = hi.toNat / 128 := toNat_shiftRight32 hi (by decide)
      rw [encode_continues hge, ih]
      rw [hshift]
      rw [pow_succ] at h
      omega

theorem uint64Pack_eq (value : UInt64) : uint64Pack value = encode value.toNat := by
  have hlt := value.toNat_lt
  have hhi : (value >>> 32).toUInt32.toNat = value.toNat / 2 ^ 32 := by
    rw [UInt64.toNat_toUInt32, toNat_shiftRight64 value (by decide)]
    change value.toNat / 2 ^ 32 % 2 ^ 32 = _
    omega
  have hlo : value.toUInt32.toNat = value.toNat % 2 ^ 32 := UInt64.toNat_toUInt32 value
  unfold uint64Pack
  generalize (value >>> 32).toUInt32 = hi at hhi
  generalize value.toUInt32 = lo at hlo
  generalize value.toNat = n at *
  dsimp only
  have hzero : hi = 0 ↔ n < 2 ^ 32 := by
    rw [← UInt32.toNat_inj, hhi]
    change n / 2 ^ 32 = 0 ↔ _
    omega
  by_cases hsmall : n < 2 ^ 32
  · rw [if_pos (hzero.2 hsmall), uint32Pack_eq, hlo, Nat.mod_eq_of_lt hsmall]
  rw [if_neg (mt hzero.1 hsmall), encode_eq_lowDigits (k := 4) (by omega)]
  have h7 : (lo >>> 7).toNat = lo.toNat / 2 ^ 7 := toNat_shiftRight32 lo (by decide)
  have h14 : (lo >>> 14).toNat = lo.toNat / 2 ^ 14 := toNat_shiftRight32 lo (by decide)
  have h21 : (lo >>> 21).toNat = lo.toNat / 2 ^ 21 := toNat_shiftRight32 lo (by decide)
  have h28 : (lo >>> 28).toNat = lo.toNat / 2 ^ 28 := toNat_shiftRight32 lo (by decide)
  have hout : [(lo ||| 0x80).toUInt8, ((lo >>> 7) ||| 0x80).toUInt8, ((lo >>> 14) ||| 0x80).toUInt8,
      ((lo >>> 21) ||| 0x80).toUInt8] = lowDigits 4 n := by
    have hbyte : ∀ {a b : Nat}, a = b → UInt8.ofNat a = UInt8.ofNat b := fun h => congrArg UInt8.ofNat h
    simp only [lowDigits, or_high, h7, h14, h21, hlo, List.cons.injEq, and_true]
    exact ⟨hbyte (by omega), hbyte (by omega), hbyte (by omega), hbyte (by omega)⟩
  -- four bits of the low word are left, and go below three of the high word
  have hjoin : ∀ x < 2 ^ 28, x * 2 ^ 4 ||| lo.toNat / 2 ^ 28 = x * 2 ^ 4 + lo.toNat / 2 ^ 28 := by
    intro x _
    have hb : lo.toNat / 2 ^ 28 < 2 ^ 4 := by have := lo.toNat_lt; omega
    rw [Nat.mul_comm, ← Nat.two_pow_add_eq_or_of_lt hb]
  rw [hout]
  have height : hi < 8 ↔ n / 2 ^ 32 < 8 := by rw [UInt32.lt_iff_toNat_lt, hhi]; rfl
  split
  case isTrue h =>
    rw [height] at h
    have hlast : (hi <<< 4).toNat = n / 2 ^ 32 * 2 ^ 4 := by
      rw [UInt32.toNat_shiftLeft, hhi]
      change (n / 2 ^ 32) <<< 4 % 2 ^ 32 = _
      rw [Nat.shiftLeft_eq, Nat.mod_eq_of_lt (by omega)]
    rw [encode_of_lt (by omega), toUInt8_eq, UInt32.toNat_or, hlast, h28, hjoin _ (by omega), hlo]
    exact congrArg (lowDigits 4 n ++ [UInt8.ofNat ·]) (by omega)
  case isFalse h =>
    rw [height] at h
    have hand : (hi &&& 7).toNat = n / 2 ^ 32 % 8 := by
      rw [UInt32.toNat_and, hhi]
      exact Nat.and_two_pow_sub_one_eq_mod _ 3
    have hmid : ((hi &&& 7) <<< 4).toNat = n / 2 ^ 32 % 8 * 2 ^ 4 := by
      rw [UInt32.toNat_shiftLeft, hand]
      change (n / 2 ^ 32 % 8) <<< 4 % 2 ^ 32 = _
      rw [Nat.shiftLeft_eq, Nat.mod_eq_of_lt (by omega)]
    have h3 : (hi >>> 3).toNat = n / 2 ^ 32 / 2 ^ 3 := by rw [toNat_shiftRight32 hi (by decide), hhi]; rfl
    rw [encode_of_ge (by omega), or_high, UInt32.toNat_or, hmid, h28, hjoin _ (by omega), hlo,
      packHigh_eq (by rw [h3]; omega), h3]
    refine congrArg₂ (fun a b => lowDigits 4 n ++ UInt8.ofNat a :: encode b) ?_ ?_ <;> omega

/-- The key of a field, with three bits left for the wire type. -/
theorem tagPack_eq (id : UInt32) : tagPack id = encode (8 * id.toNat) := by
  have hlt := id.toNat_lt
  unfold tagPack
  split
  case isTrue h =>
    have hid : id.toNat < 2 ^ 29 := UInt32.lt_iff_toNat_lt.1 h
    have hshift : (id <<< 3).toNat = 8 * id.toNat := by
      rw [UInt32.toNat_shiftLeft]
      change id.toNat <<< 3 % 2 ^ 32 = _
      rw [Nat.shiftLeft_eq]
      omega
    rw [uint32Pack_eq, hshift]
  case isFalse =>
    have hshift : (id.toUInt64 <<< 3).toNat = 8 * id.toNat := by
      rw [UInt64.toNat_shiftLeft, UInt32.toNat_toUInt64]
      change id.toNat <<< 3 % 2 ^ 64 = _
      rw [Nat.shiftLeft_eq]
      omega
    rw [uint64Pack_eq, hshift]

/-! ## The sizes are those of the packers -/

theorem uint32Size_eq (v : UInt32) : uint32Size v = (uint32Pack v).length := by
  have hlt := v.toNat_lt
  rw [uint32Pack_eq]
  unfold uint32Size
  simp only [UInt32.lt_iff_toNat_lt]
  split
  case isTrue h => rw [encode_of_lt h, List.length_singleton]
  case isFalse h1 =>
    split
    case isTrue h => exact (length_encode_eq (k := 1) (Nat.le_of_not_lt h1) h).symm
    case isFalse h2 =>
      split
      case isTrue h => exact (length_encode_eq (k := 2) (Nat.le_of_not_lt h2) h).symm
      case isFalse h3 =>
        split
        case isTrue h => exact (length_encode_eq (k := 3) (Nat.le_of_not_lt h3) h).symm
        case isFalse h4 => exact (length_encode_eq (k := 4) (Nat.le_of_not_lt h4) (by omega)).symm

theorem sint32Size_eq (v : Int32) : sint32Size v = (sint32Pack v).length := uint32Size_eq (zigzag32 v)

theorem int32Size_eq (v : Int32) : int32Size v = (int32Pack v.toUInt32).length := by
  have hsign : v < 0 ↔ v.toUInt32.toInt32 < 0 := by rw [Int32.toInt32_toUInt32]
  rw [int32Pack, int32Size]
  split
  case isTrue h => rw [if_pos (hsign.1 h), List.length_cons]; rfl
  case isFalse h =>
    rw [if_neg (mt hsign.2 h), ← uint32Size_eq, uint32Size]
    -- a number that is not negative compares as its bits do
    have hlt : ∀ {n : UInt32}, n.toNat < 2 ^ 31 → (v < n.toInt32 ↔ v.toUInt32 < n) := by
      intro n hn
      have hv : ¬2 ^ 31 ≤ v.toUInt32.toNat := mt (toInt32_neg_iff _).2 (mt hsign.2 h)
      have htoInt : ∀ {u : UInt32}, u.toNat < 2 ^ 31 → u.toInt32.toInt = u.toNat := by
        intro u hu
        rw [Int32.toInt, UInt32.toBitVec_toInt32, BitVec.toInt_eq_toNat_of_lt (by change 2 * u.toNat < 2 ^ 32; omega)]
        rfl
      rw [Int32.lt_iff_toInt_lt, UInt32.lt_iff_toNat_lt, htoInt hn, ← Int32.toInt32_toUInt32 v,
        htoInt (Nat.lt_of_not_le hv), Int32.toInt32_toUInt32]
      omega
    simp only [← hlt (n := 0x80) (by decide), ← hlt (n := 0x4000) (by decide), ← hlt (n := 0x200000) (by decide),
      ← hlt (n := 0x10000000) (by decide)]
    rfl

theorem uint64Size_eq (v : UInt64) : uint64Size v = (uint64Pack v).length := by
  have hlt := v.toNat_lt
  have hupper : (v >>> 32).toUInt32.toNat = v.toNat / 2 ^ 32 := by
    rw [UInt64.toNat_toUInt32, toNat_shiftRight64 v (by decide)]
    change v.toNat / 2 ^ 32 % 2 ^ 32 = _
    omega
  have hlow : v.toUInt32.toNat = v.toNat % 2 ^ 32 := UInt64.toNat_toUInt32 v
  rw [uint64Pack_eq, uint64Size]
  generalize (v >>> 32).toUInt32 = upper at hupper
  generalize v.toNat = n at *
  have hbelow : ∀ {k : UInt32}, upper < k ↔ n < 2 ^ 32 * k.toNat := by
    intro k
    rw [UInt32.lt_iff_toNat_lt, hupper]
    omega
  have hzero : upper = 0 ↔ n < 2 ^ 32 := by
    rw [← UInt32.toNat_inj, hupper]
    change n / 2 ^ 32 = 0 ↔ _
    omega
  simp only [hbelow, hzero]
  split
  case isTrue h => rw [uint32Size_eq, uint32Pack_eq, hlow, Nat.mod_eq_of_lt h]
  case isFalse h0 =>
    split
    case isTrue h => exact (length_encode_eq (k := 4) (by omega) h).symm
    case isFalse h1 =>
      split
      case isTrue h => exact (length_encode_eq (k := 5) (Nat.le_of_not_lt h1) h).symm
      case isFalse h2 =>
        split
        case isTrue h => exact (length_encode_eq (k := 6) (Nat.le_of_not_lt h2) h).symm
        case isFalse h3 =>
          split
          case isTrue h => exact (length_encode_eq (k := 7) (Nat.le_of_not_lt h3) h).symm
          case isFalse h4 =>
            split
            case isTrue h => exact (length_encode_eq (k := 8) (Nat.le_of_not_lt h4) h).symm
            case isFalse h5 => exact (length_encode_eq (k := 9) (Nat.le_of_not_lt h5) (by omega)).symm

theorem sint64Size_eq (v : Int64) : sint64Size v = (sint64Pack v).length := uint64Size_eq (zigzag64 v)

theorem getTagSize_eq (number : UInt32) : getTagSize number = (tagPack number).length := by
  have hlt := number.toNat_lt
  rw [tagPack_eq]
  unfold getTagSize
  have hscale : ∀ {k : UInt32}, number < k ↔ 8 * number.toNat < 8 * k.toNat := by
    intro k
    rw [UInt32.lt_iff_toNat_lt]
    omega
  simp only [hscale]
  split
  case isTrue h => rw [encode_of_lt h, List.length_singleton]
  case isFalse h1 =>
    split
    case isTrue h => exact (length_encode_eq (k := 1) (Nat.le_of_not_lt h1) h).symm
    case isFalse h2 =>
      split
      case isTrue h => exact (length_encode_eq (k := 2) (Nat.le_of_not_lt h2) h).symm
      case isFalse h3 =>
        split
        case isTrue h => exact (length_encode_eq (k := 3) (Nat.le_of_not_lt h3) h).symm
        case isFalse h4 => exact (length_encode_eq (k := 4) (Nat.le_of_not_lt h4) (by omega)).symm

/-! ## What the parsers read -/

/-- The next digit of a word. -/
theorem toNat_or_shiftLeft32 {rv : UInt32} {s : UInt32} (x : UInt32) (hs : s.toNat < 32)
    (hrv : rv.toNat < 2 ^ s.toNat) : (rv ||| x <<< s).toNat = (rv.toNat + 2 ^ s.toNat * x.toNat) % 2 ^ 32 := by
  rw [UInt32.toNat_or, UInt32.toNat_shiftLeft, Nat.mod_eq_of_lt hs, or_shiftLeft _ hrv rv.toNat_lt]

theorem toNat_or_shiftLeft64 {rv : UInt64} {s : UInt64} (x : UInt64) (hs : s.toNat < 64)
    (hrv : rv.toNat < 2 ^ s.toNat) : (rv ||| x <<< s).toNat = (rv.toNat + 2 ^ s.toNat * x.toNat) % 2 ^ 64 := by
  rw [UInt64.toNat_or, UInt64.toNat_shiftLeft, Nat.mod_eq_of_lt hs, or_shiftLeft _ hrv rv.toNat_lt]

theorem toNat_and_low (b : UInt8) : (b &&& 0x7f).toNat = b.toNat % 128 := by
  rw [UInt8.toNat_and]
  exact Nat.and_two_pow_sub_one_eq_mod _ 7

theorem toNat_or_digit32 {rv s : UInt32} {bs : List UInt8} (b : UInt8) (hrv : rv.toNat = value bs)
    (hs : s.toNat = 7 * bs.length) (hroom : s.toNat + 7 ≤ 32) :
    (rv ||| (b &&& 0x7f).toUInt32 <<< s).toNat = value (bs ++ [b]) := by
  have hlow : (b &&& 0x7f).toUInt32.toNat = b.toNat % 128 := toNat_and_low b
  have hmod : s.toNat % 32 = s.toNat := Nat.mod_eq_of_lt (by omega)
  rw [UInt32.toNat_or, UInt32.toNat_shiftLeft, hmod, hrv, hlow, or_digit b hs hroom]

theorem toNat_or_digit64 {rv s : UInt64} {bs : List UInt8} (b : UInt8) (hrv : rv.toNat = value bs)
    (hs : s.toNat = 7 * bs.length) (hroom : s.toNat + 7 ≤ 64) :
    (rv ||| (b &&& 0x7f).toUInt64 <<< s).toNat = value (bs ++ [b]) := by
  have hlow : (b &&& 0x7f).toUInt64.toNat = b.toNat % 128 := toNat_and_low b
  have hmod : s.toNat % 64 = s.toNat := Nat.mod_eq_of_lt (by omega)
  rw [UInt64.toNat_or, UInt64.toNat_shiftLeft, hmod, hrv, hlow, or_digit b hs hroom]

theorem parseUint32_eq {len : Nat} {data : List UInt8} (hpos : 0 < len) (hlen : len ≤ data.length) :
    parseUint32 len data = some (UInt32.ofNat (value (data.take len))) := by
  have hdone : ∀ {rv : UInt32} {bs : List UInt8}, rv.toNat = value bs → rv = UInt32.ofNat (value bs) := by
    intro rv bs h
    rw [← h, UInt32.ofNat_toNat]
  obtain ⟨d0, data, rfl⟩ := List.exists_cons_of_length_pos (Nat.lt_of_lt_of_le hpos hlen)
  rw [List.length_cons] at hlen
  have h0 : (d0 &&& 0x7f).toUInt32.toNat = value [d0] := toNat_and_low d0
  unfold parseUint32
  simp only [List.getElem?_cons_zero, List.getElem?_cons_succ, Option.pure_def, Option.bind_eq_bind, Option.bind_some]
  by_cases h1 : len > 1
  case neg =>
    obtain rfl : len = 1 := by omega
    rw [if_pos h1]
    exact congrArg some (hdone h0)
  rw [if_neg (not_not.2 h1)]
  obtain ⟨d1, data, rfl⟩ := List.exists_cons_of_length_pos (show 0 < data.length by omega)
  rw [List.length_cons] at hlen
  have h01 := toNat_or_digit32 (s := 7) d1 h0 rfl (by decide)
  simp only [List.getElem?_cons_zero, List.getElem?_cons_succ, Option.bind_some]
  by_cases h2 : len > 2
  case neg =>
    obtain rfl : len = 2 := by omega
    rw [if_pos h2]
    exact congrArg some (hdone h01)
  rw [if_neg (not_not.2 h2)]
  obtain ⟨d2, data, rfl⟩ := List.exists_cons_of_length_pos (show 0 < data.length by omega)
  rw [List.length_cons] at hlen
  have h02 := toNat_or_digit32 (s := 14) d2 h01 rfl (by decide)
  simp only [List.getElem?_cons_zero, List.getElem?_cons_succ, Option.bind_some]
  by_cases h3 : len > 3
  case neg =>
    obtain rfl : len = 3 := by omega
    rw [if_pos h3]
    exact congrArg some (hdone h02)
  rw [if_neg (not_not.2 h3)]
  obtain ⟨d3, data, rfl⟩ := List.exists_cons_of_length_pos (show 0 < data.length by omega)
  rw [List.length_cons] at hlen
  have h03 := toNat_or_digit32 (s := 21) d3 h02 rfl (by decide)
  simp only [List.getElem?_cons_zero, List.getElem?_cons_succ, Option.bind_some]
  by_cases h4 : len > 4
  case neg =>
    obtain rfl : len = 4 := by omega
    rw [if_pos h4]
    exact congrArg some (hdone h03)
  rw [if_neg (not_not.2 h4)]
  obtain ⟨d4, data, rfl⟩ := List.exists_cons_of_length_pos (show 0 < data.length by omega)
  simp only [List.getElem?_cons_zero, Option.bind_some]
  -- of the fifth byte and what comes after it only four bits are in the word
  obtain ⟨n, rfl⟩ : ∃ n, len = n + 5 := ⟨len - 5, by omega⟩
  refine congrArg some (UInt32.toNat_inj.1 ?_)
  have hlow : value [d0, d1, d2, d3] < 128 ^ 4 := value_lt _
  have hsplit : value ((d0 :: d1 :: d2 :: d3 :: d4 :: data).take (n + 5)) =
      value [d0, d1, d2, d3] + 128 ^ 4 * (d4.toNat % 128 + 128 * value (data.take n)) :=
    value_append [d0, d1, d2, d3] (d4 :: data.take n)
  rw [toNat_or_shiftLeft32 _ (by decide) (by rw [h03]; exact hlow), h03, UInt32.toNat_ofNat', hsplit]
  change (value [d0, d1, d2, d3] + 2 ^ 28 * d4.toNat) % 2 ^ 32 = _
  omega

/-- The remaining rounds put the remaining digits in, as far as the word goes. -/
theorem parseHigh_eq {n : Nat} {data : List UInt8} {shift rv : UInt64} (hlen : n ≤ data.length)
    (hshift : shift.toNat + 7 * n ≤ 70) (hrv : rv.toNat < 2 ^ shift.toNat) :
    parseHigh n data shift rv = some (UInt64.ofNat (rv.toNat + 2 ^ shift.toNat * value (data.take n))) := by
  induction n generalizing data shift rv with
  | zero => rw [parseHigh, List.take_zero, value, Nat.mul_zero, Nat.add_zero, UInt64.ofNat_toNat]
  | succ n ih =>
    obtain ⟨b, data, rfl⟩ := List.exists_cons_of_length_pos (show 0 < data.length by omega)
    rw [List.length_cons] at hlen
    have hlow : (b &&& 0x7f).toUInt64.toNat = b.toNat % 128 := toNat_and_low b
    have hnext : (shift + 7).toNat = shift.toNat + 7 := by
      rw [UInt64.toNat_add]
      change (shift.toNat + 7) % 2 ^ 64 = _
      omega
    have hor : (rv ||| (b &&& 0x7f).toUInt64 <<< shift).toNat =
        (rv.toNat + 2 ^ shift.toNat * (b.toNat % 128)) % 2 ^ 64 := by
      rw [toNat_or_shiftLeft64 _ (by omega) hrv, hlow]
    have hbelow : (rv ||| (b &&& 0x7f).toUInt64 <<< shift).toNat < 2 ^ (shift + 7).toNat := by
      rw [hor, hnext, pow_add]
      refine Nat.lt_of_le_of_lt (Nat.mod_le _ _) ?_
      have hdigit : b.toNat % 128 + 1 ≤ 2 ^ 7 := Nat.mod_lt _ (by decide)
      have hmul := Nat.mul_le_mul_left (2 ^ shift.toNat) hdigit
      rw [Nat.mul_add, Nat.mul_one] at hmul
      omega
    rw [parseHigh, List.head?_cons, List.tail_cons, Option.bind_eq_bind, Option.bind_some,
      ih (by omega) (by omega) hbelow, hor, hnext, List.take_succ_cons, value]
    refine congrArg some (UInt64.toNat_inj.1 ?_)
    rw [UInt64.toNat_ofNat', UInt64.toNat_ofNat', Nat.mod_add_mod, pow_add]
    congr 1
    ring

theorem parseUint64_eq {len : Nat} {data : List UInt8} (hpos : 0 < len) (hmax : len ≤ 10) (hlen : len ≤ data.length) :
    parseUint64 len data = some (UInt64.ofNat (value (data.take len))) := by
  unfold parseUint64
  by_cases h5 : len < 5
  · rw [if_pos h5, parseUint32_eq hpos hlen]
    have hlt : value (data.take len) < 2 ^ 32 := by
      refine Nat.lt_of_lt_of_le (value_lt _) ?_
      rw [List.length_take, Nat.min_eq_left hlen]
      exact Nat.le_trans (Nat.pow_le_pow_right (by decide) (Nat.le_of_lt_succ h5)) (by decide)
    refine congrArg some (UInt64.toNat_inj.1 ?_)
    rw [UInt32.toNat_toUInt64, UInt32.toNat_ofNat', UInt64.toNat_ofNat', Nat.mod_eq_of_lt hlt]
    omega
  · rw [if_neg h5]
    obtain ⟨n, rfl⟩ : ∃ n, len = n + 4 := ⟨len - 4, by omega⟩
    match data, hlen with
    | d0 :: d1 :: d2 :: d3 :: data, hlen =>
      have h0 : (d0 &&& 0x7f).toUInt64.toNat = value [d0] := toNat_and_low d0
      have h01 := toNat_or_digit64 (s := 7) d1 h0 rfl (by decide)
      have h02 := toNat_or_digit64 (s := 14) d2 h01 rfl (by decide)
      have h03 := toNat_or_digit64 (s := 21) d3 h02 rfl (by decide)
      have hbelow : value [d0, d1, d2, d3] < 128 ^ 4 := value_lt _
      have happend : value ((d0 :: d1 :: d2 :: d3 :: data).take (n + 4)) =
          value [d0, d1, d2, d3] + 128 ^ 4 * value (data.take n) := value_append [d0, d1, d2, d3] _
      simp only [List.length_cons] at hlen
      simp only [List.getElem?_cons_zero, List.getElem?_cons_succ, Option.bind_eq_bind, Option.bind_some]
      have hlen' : n + 4 - 4 ≤ ((d0 :: d1 :: d2 :: d3 :: data).drop 4).length := by
        rw [List.length_drop]
        simp only [List.length_cons]
        omega
      have hshift : (28 : UInt64).toNat + 7 * (n + 4 - 4) ≤ 70 := by
        change 28 + 7 * (n + 4 - 4) ≤ 70
        omega
      rw [parseHigh_eq hlen' hshift (by rw [h03]; exact hbelow), h03, happend]
      rfl

theorem parseBoolean_eq {len : Nat} {data : List UInt8} (hlen : len ≤ data.length) :
    parseBoolean len data = some (decide (value (data.take len) ≠ 0)) := by
  induction len generalizing data with
  | zero => rfl
  | succ len ih =>
    obtain ⟨b, data, rfl⟩ := List.exists_cons_of_length_pos (show 0 < data.length by omega)
    rw [List.length_cons] at hlen
    have hzero : b &&& 0x7f = 0 ↔ b.toNat % 128 = 0 := by
      rw [← UInt8.toNat_inj, toNat_and_low]
      rfl
    rw [parseBoolean, List.head?_cons, List.tail_cons, Option.bind_eq_bind, Option.bind_some,
      ih (Nat.le_of_succ_le_succ hlen), List.take_succ_cons, value]
    by_cases h : b &&& 0x7f = 0
    · have hdigit := hzero.1 h
      simp only [ne_eq, h, not_true, if_false, hdigit, Nat.zero_add, Nat.mul_eq_zero, reduceCtorEq, false_or]
    · have hdigit := mt hzero.2 h
      have hne : ¬b.toNat % 128 + 128 * value (data.take len) = 0 := by omega
      simp only [ne_eq, h, not_false_eq_true, if_true, hne, decide_true, Option.pure_def]

/-! ## Signs -/

/-- The sign bit goes to the bottom and complements the others, and back. -/
theorem unzigzag32_zigzag32 (v : Int32) : unzigzag32 (zigzag32 v) = v := by
  suffices hbits : ∀ u z : UInt32, z = (u <<< 1) ^^^ -(u >>> 31) → (z >>> 1) ^^^ -(z &&& 1) = u by
    rw [unzigzag32, hbits v.toUInt32 (zigzag32 v) rfl, Int32.toInt32_toUInt32]
  rintro u z rfl
  have hlt := u.toNat_lt
  have htop : (u >>> 31).toNat = u.toNat / 2 ^ 31 := toNat_shiftRight32 u (by decide)
  have hhalf : ∀ x : UInt32, (x >>> 1).toNat = x.toNat / 2 := fun x => toNat_shiftRight32 x (by decide)
  have hdouble : (u <<< 1).toNat = 2 * u.toNat % 2 ^ 32 := by
    rw [UInt32.toNat_shiftLeft]
    change u.toNat <<< 1 % 2 ^ 32 = _
    rw [Nat.shiftLeft_eq, Nat.mul_comm]
  have hbit : ∀ x : UInt32, (x &&& 1).toNat = x.toNat % 2 := by
    intro x
    rw [UInt32.toNat_and]
    exact Nat.and_two_pow_sub_one_eq_mod _ 1
  rcases Nat.lt_or_ge u.toNat (2 ^ 31) with h | h
  · have hclear : u >>> 31 = 0 := by
      rw [← UInt32.toNat_inj, htop]
      exact Nat.div_eq_of_lt h
    have heven : u <<< 1 &&& 1 = 0 := by
      rw [← UInt32.toNat_inj, hbit, hdouble]
      change _ = 0
      omega
    rw [hclear, UInt32.neg_zero, UInt32.xor_zero, heven, UInt32.neg_zero, UInt32.xor_zero, ← UInt32.toNat_inj, hhalf,
      hdouble]
    omega
  · have hset : u >>> 31 = 1 := by
      rw [← UInt32.toNat_inj, htop]
      change _ = 1
      omega
    have hnot : ∀ x : UInt32, (~~~x).toNat = 2 ^ 32 - 1 - x.toNat := UInt32.toNat_not
    have hodd : ~~~(u <<< 1) &&& 1 = 1 := by
      rw [← UInt32.toNat_inj, hbit, hnot, hdouble]
      change _ = 1
      omega
    rw [hset, UInt32.xor_neg_one, hodd, UInt32.xor_neg_one, ← UInt32.toNat_inj, hnot, hhalf, hnot, hdouble]
    omega

theorem unzigzag64_zigzag64 (v : Int64) : unzigzag64 (zigzag64 v) = v := by
  suffices hbits : ∀ u z : UInt64, z = (u <<< 1) ^^^ -(u >>> 63) → (z >>> 1) ^^^ -(z &&& 1) = u by
    rw [unzigzag64, hbits v.toUInt64 (zigzag64 v) rfl, Int64.toInt64_toUInt64]
  rintro u z rfl
  have hlt := u.toNat_lt
  have htop : (u >>> 63).toNat = u.toNat / 2 ^ 63 := toNat_shiftRight64 u (by decide)
  have hhalf : ∀ x : UInt64, (x >>> 1).toNat = x.toNat / 2 := fun x => toNat_shiftRight64 x (by decide)
  have hdouble : (u <<< 1).toNat = 2 * u.toNat % 2 ^ 64 := by
    rw [UInt64.toNat_shiftLeft]
    change u.toNat <<< 1 % 2 ^ 64 = _
    rw [Nat.shiftLeft_eq, Nat.mul_comm]
  have hbit : ∀ x : UInt64, (x &&& 1).toNat = x.toNat % 2 := by
    intro x
    rw [UInt64.toNat_and]
    exact Nat.and_two_pow_sub_one_eq_mod _ 1
  rcases Nat.lt_or_ge u.toNat (2 ^ 63) with h | h
  · have hclear : u >>> 63 = 0 := by
      rw [← UInt64.toNat_inj, htop]
      exact Nat.div_eq_of_lt h
    have heven : u <<< 1 &&& 1 = 0 := by
      rw [← UInt64.toNat_inj, hbit, hdouble]
      change _ = 0
      omega
    rw [hclear, UInt64.neg_zero, UInt64.xor_zero, heven, UInt64.neg_zero, UInt64.xor_zero, ← UInt64.toNat_inj, hhalf,
      hdouble]
    omega
  · have hset : u >>> 63 = 1 := by
      rw [← UInt64.toNat_inj, htop]
      change _ = 1
      omega
    have hnot : ∀ x : UInt64, (~~~x).toNat = 2 ^ 64 - 1 - x.toNat := UInt64.toNat_not
    have hodd : ~~~(u <<< 1) &&& 1 = 1 := by
      rw [← UInt64.toNat_inj, hbit, hnot, hdouble]
      change _ = 1
      omega
    rw [hset, UInt64.xor_neg_one, hodd, UInt64.xor_neg_one, ← UInt64.toNat_inj, hnot, hhalf, hnot, hdouble]
    omega

end KSock.Protobuf
