import KSock.Lib.PrefixCode
import KSock.Utils
/-!
# PDUs on the wire

A PDU is a 16-bit type and a payload. Its frame is the payload's length in four
big-endian bytes, the type in two, and the payload; the length field makes
frames a prefix code (`framing`).
-/
open KSockLib KSockLib.Endian

namespace KSock

/-- A type and a payload whose length fits the four bytes it is sent in. -/
structure Pdu where
  pduType : UInt16
  payload : List UInt8
  fits : payload.length < 2 ^ 32

/-- The bytes of a header: length, then type. -/
def headerBytes (pduType : UInt16) (len : Nat) : List UInt8 := toBE 4 len ++ toBE 2 pduType.toNat

/-- The bytes of a PDU on the wire. -/
def frame (p : Pdu) : List UInt8 := headerBytes p.pduType p.payload.length ++ p.payload

@[simp] theorem length_headerBytes (t : UInt16) (n : Nat) : (headerBytes t n).length = 6 := by
  simp [headerBytes]

@[simp] theorem length_frame (p : Pdu) : (frame p).length = 6 + p.payload.length := by
  simp [frame]

/-- The length field at the front of a byte string. -/
def lenField (bs : List UInt8) : Nat := ofBE (bs.take 4)

/-- The type field after it. -/
def typeField (bs : List UInt8) : UInt16 := UInt16.ofNat (ofBE ((bs.drop 4).take 2))

theorem lenField_lt (bs : List UInt8) : lenField bs < 2 ^ 32 := by
  have h := ofBE_lt (bs.take 4)
  refine Nat.lt_of_lt_of_le h (Nat.pow_le_pow_right (by omega) (List.length_take_le 4 bs))

/-- The fields are in the first six bytes. -/
@[simp] theorem lenField_take (bs : List UInt8) : lenField (bs.take 6) = lenField bs := by
  rw [lenField, lenField, List.take_take, Nat.min_eq_left (by omega)]

@[simp] theorem typeField_take (bs : List UInt8) : typeField (bs.take 6) = typeField bs := by
  rw [typeField, typeField, List.drop_take, List.take_take, Nat.min_eq_left (by omega)]

theorem lenField_frame (p : Pdu) (x : List UInt8) : lenField (frame p ++ x) = p.payload.length := by
  have h : (frame p ++ x).take 4 = toBE 4 p.payload.length := by
    rw [frame, headerBytes, List.append_assoc, List.append_assoc]
    exact List.take_left' (length_toBE _ _)
  rw [lenField, h, ofBE_toBE p.fits]

theorem typeField_frame (p : Pdu) (x : List UInt8) : typeField (frame p ++ x) = p.pduType := by
  have h : ((frame p ++ x).drop 4).take 2 = toBE 2 p.pduType.toNat := by
    rw [frame, headerBytes, List.append_assoc, List.append_assoc,
      List.drop_left' (length_toBE _ _)]
    exact List.take_left' (length_toBE _ _)
  have ht : p.pduType.toNat < 256 ^ 2 := p.pduType.toNat_lt
  rw [typeField, h, ofBE_toBE ht, UInt16.ofNat_toNat]

theorem frame_split {p q : Pdu} {x y : List UInt8} (h : frame p ++ x = frame q ++ y) : p = q := by
  have hl : p.payload.length = q.payload.length := by
    rw [← lenField_frame p x, h, lenField_frame]
  have ht : p.pduType = q.pduType := by rw [← typeField_frame p x, h, typeField_frame]
  have hf : frame p = frame q := (List.append_inj h (by simp [hl])).1
  have hp : p.payload = q.payload := by
    rw [frame, frame] at hf
    exact (List.append_inj hf (by simp)).2
  cases p
  cases q
  cases ht
  cases hp
  rfl

/-- Frames, one after another. -/
def framing : PrefixCode Pdu UInt8 where
  enc := frame
  pos p := by
    intro h
    have := congrArg List.length h
    rw [length_frame] at this
    simp at this
  split := frame_split

@[simp] theorem framing_enc (p : Pdu) : framing.enc p = frame p := rfl

/-- Six bytes and as many more as the first four announce are a frame. -/
theorem frame_of_length {bs : List UInt8} (h : 6 ≤ bs.length) (hl : bs.length = 6 + lenField bs) :
    ∃ m, bs = frame m := by
  have hlt := lenField_lt bs
  have h4 : (bs.take 4).length = 4 := by rw [List.length_take]; omega
  have h2 : ((bs.drop 4).take 2).length = 2 := by rw [List.length_take, List.length_drop]; omega
  refine ⟨⟨typeField bs, bs.drop 6, by rw [List.length_drop]; omega⟩, ?_⟩
  have hlen : toBE 4 (bs.drop 6).length = bs.take 4 := by
    have := toLE_ofLE (bs.take 4).reverse
    rw [List.length_reverse, h4] at this
    rw [List.length_drop, show bs.length - 6 = lenField bs by omega, toBE, lenField, ofBE, this,
      List.reverse_reverse]
  have htype : toBE 2 (typeField bs).toNat = (bs.drop 4).take 2 := by
    have hb : ofBE ((bs.drop 4).take 2) < 2 ^ 16 := by
      have := ofBE_lt ((bs.drop 4).take 2)
      rwa [h2] at this
    have := toLE_ofLE ((bs.drop 4).take 2).reverse
    rw [List.length_reverse, h2] at this
    rw [typeField, UInt16.toNat_ofNat', Nat.mod_eq_of_lt hb, toBE, ofBE, this, List.reverse_reverse]
  rw [frame, headerBytes, hlen, htype]
  conv_lhs => rw [← List.take_append_drop 4 bs, ← List.take_append_drop 2 (bs.drop 4), List.drop_drop]
  rw [List.append_assoc]

/-- Byte strings that start with a frame: six bytes, and as many more as announced. -/
theorem frame_prefix_iff {bs : List UInt8} :
    (∃ m, frame m <+: bs) ↔ 6 ≤ bs.length ∧ 6 + lenField bs ≤ bs.length := by
  constructor
  · rintro ⟨m, x, rfl⟩
    rw [lenField_frame, List.length_append, length_frame]
    omega
  · rintro ⟨h6, hl⟩
    have hlen : (bs.take (6 + lenField bs)).length = 6 + lenField bs := by rw [List.length_take]; omega
    have hfield : lenField (bs.take (6 + lenField bs)) = lenField bs := by
      rw [lenField, lenField, List.take_take, Nat.min_eq_left (by omega)]
    obtain ⟨m, hm⟩ := @frame_of_length (bs.take (6 + lenField bs)) (by omega) (by rw [hlen, hfield])
    exact ⟨m, hm ▸ List.take_prefix _ _⟩

end KSock
