import KSock.KSocket
import KSock.Lib.Join
/-!
# The dump of a buffer

`toHex` appends two digits and the delimiter for each byte and erases a
delimiter in the end. What is left is the bytes' digits joined by the delimiter.
-/
open KSockLib.Join

namespace KSock

namespace KSocketBuffer

/-- The digits, by their value. -/
def hex : List Char :=
  ['0', '1', '2', '3', '4', '5', '6', '7', '8', '9', 'A', 'B', 'C', 'D', 'E', 'F']

theorem low_lt (b : UInt8) : (b &&& 0xF).toNat < hex.length := by
  rw [UInt8.toNat_and]
  exact Nat.lt_of_le_of_lt Nat.and_le_right (by decide)

/-- The digits of a byte. -/
def pout (input_byte : UInt8) : List Char :=
  [hex.get ⟨((input_byte >>> 4) &&& 0xF).toNat, low_lt _⟩, hex.get ⟨(input_byte &&& 0xF).toNat, low_lt _⟩]

/-- `erase` of `n` characters from `pos` on. -/
def erase (str : List Char) (pos n : Nat) : List Char := str.take pos ++ str.drop (pos + n)

def toHex (b : KSocketBuffer) (delim : List Char) : List Char :=
  let str := b.buffer.foldl (fun str input_byte => str ++ pout input_byte ++ delim) []
  if str.length ≥ delim.length ∧ delim.length > 0 then erase str (str.length - delim.length) delim.length else str

/-! ## Digits -/

/-- The hexadecimal digit of a number below 16, in upper case. -/
def hexDigit (n : Nat) : Char := if n < 10 then Char.ofNat ('0'.toNat + n) else Char.ofNat ('A'.toNat + (n - 10))

/-- The two digits of a byte. -/
def hexForm (byte : UInt8) : List Char := [hexDigit (byte.toNat / 16), hexDigit (byte.toNat % 16)]

theorem hex_get : ∀ i : Fin hex.length, hex.get i = hexDigit i := by decide

theorem pout_eq (byte : UInt8) : pout byte = hexForm byte := by
  have hbyte : byte.toNat < 256 := byte.toNat_lt
  have hhigh : ((byte >>> 4) &&& 0xF).toNat = byte.toNat / 16 := by
    change ((byte.toNat >>> 4) &&& (2 ^ 4 - 1)) = byte.toNat / 16
    rw [Nat.and_two_pow_sub_one_eq_mod, Nat.shiftRight_eq_div_pow]
    omega
  have hlow : (byte &&& 0xF).toNat = byte.toNat % 16 := Nat.and_two_pow_sub_one_eq_mod byte.toNat 4
  rw [pout, hexForm, hex_get, hex_get]
  dsimp only
  rw [hhigh, hlow]

theorem hexDigit_injective : ∀ m < 16, ∀ n < 16, hexDigit m = hexDigit n → m = n := by decide

theorem hexForm_injective : Function.Injective hexForm := by
  intro x y h
  rw [hexForm, hexForm, List.cons.injEq, List.cons.injEq] at h
  have hx : x.toNat < 256 := x.toNat_lt
  have hy : y.toNat < 256 := y.toNat_lt
  have hhigh := hexDigit_injective (x.toNat / 16) (by omega) (y.toNat / 16) (by omega) h.1
  have hlow := hexDigit_injective (x.toNat % 16) (by omega) (y.toNat % 16) (by omega) h.2.1
  apply UInt8.toNat_inj.1
  omega

/-! ## The loop -/

/-- Each byte adds its digits and a delimiter. -/
theorem toHex_loop (bytes : List UInt8) (delim str : List Char) :
    bytes.foldl (fun str input_byte => str ++ pout input_byte ++ delim) str =
      str ++ bytes.flatMap fun byte => hexForm byte ++ delim := by
  induction bytes generalizing str with
  | nil => simp
  | cons byte bytes ih => rw [List.foldl_cons, ih, pout_eq, List.flatMap_cons, List.append_assoc, List.append_assoc,
      List.append_assoc]

/-- An erase of the end. -/
theorem erase_append (str delim : List Char) :
    erase (str ++ delim) ((str ++ delim).length - delim.length) delim.length = str := by
  have hpos : (str ++ delim).length - delim.length = str.length := by
    rw [List.length_append, Nat.add_sub_cancel]
  rw [erase, hpos, List.take_left, ← List.length_append, List.drop_length, List.append_nil]

theorem toHex_eq (b : KSocketBuffer) (delim : List Char) :
    b.toHex delim = delim.intercalate (b.buffer.map hexForm) := by
  unfold toHex
  dsimp only
  rw [toHex_loop, List.nil_append]
  by_cases hnil : b.buffer = []
  · -- nothing was written, and the guard keeps `erase` from it
    rw [hnil, List.flatMap_nil, if_neg]
    · rfl
    · rintro ⟨hlen, hpos⟩
      rw [List.length_nil] at hlen
      omega
  · rw [flatMap_delimited hexForm delim hnil]
    by_cases hdelim : delim = []
    · rw [hdelim, if_neg (by simp), List.append_nil]
    · rw [if_pos, erase_append]
      exact ⟨by simp, List.length_pos_iff.2 hdelim⟩

/-- For every buffer and delimiter: the dump is the two-digit forms of the bytes
joined by the delimiter, two digits a byte and a delimiter less than bytes long,
and no other buffer has the same dump. -/
theorem toHex_joined (delim : List Char) :
    (∀ b : KSocketBuffer, b.toHex delim = delim.intercalate (b.buffer.map hexForm) ∧
      (b.toHex delim).length = if b.size = 0 then 0 else 2 * b.size + (b.size - 1) * delim.length) ∧
    ∀ b b' : KSocketBuffer, b.toHex delim = b'.toHex delim → b = b' := by
  have hforms : ∀ b : KSocketBuffer, ∀ x ∈ b.buffer.map hexForm, x.length = 2 := by
    intro b x hx
    obtain ⟨byte, -, rfl⟩ := List.mem_map.1 hx
    rfl
  constructor
  · intro b
    refine ⟨toHex_eq b delim, ?_⟩
    rw [toHex_eq, length_joined (hforms b), List.length_map, size]
    split
    case isTrue h => simp [h]
    case isFalse => rfl
  · intro b b' h
    rw [toHex_eq, toHex_eq] at h
    have hmap := joined_injective (by decide) (hforms b) (hforms b') h
    have hbuffer := hexForm_injective.list_map hmap
    cases b
    cases b'
    rw [KSocketBuffer.mk.injEq]
    exact hbuffer

example : (⟨[0x01, 0xAB]⟩ : KSocketBuffer).toHex ['0'] = ['0', '1', '0', 'A', 'B'] := by decide

end KSocketBuffer

end KSock
