import KSock.Batches
import KSock.KSocket
/-!
# The two encoders

A frame can also be built in a `KSocketBuffer`, by inserting its length, type
and payload at the end, or the payload first and the header in front of it. The
typed inserts take a swapped word apart with masks and shifts, `AddPdu` stores
it through a cast pointer; both put the word's bytes in big-endian order, and
`GetPdu` reads either.
-/
open KSockLib KSockLib.Memory KSockLib.Endian

namespace KSock

namespace KSocketBuffer

/-! ## The typed inserts -/

/-- `begin()` and `end()`, as indices into the vector. -/
def beginIt (_ : KSocketBuffer) : Nat := 0
def endIt (b : KSocketBuffer) : Nat := b.size

/-- The array `insert_value`: `(net_value & mask) >> shift` for each byte. -/
def insertValue (netValue : Nat) (parts : List (Nat × Nat)) : List UInt8 :=
  parts.map fun part => UInt8.ofNat ((netValue &&& part.1) >>> part.2)

def insertU16 (b : KSocketBuffer) (it : Nat) (value : UInt16) : KSocketBuffer :=
  ⟨b.buffer.insert it (insertValue (htons value).toNat [(0x00FF, 0), (0xFF00, 8)])⟩

def insertU32 (b : KSocketBuffer) (it : Nat) (value : UInt32) : KSocketBuffer :=
  ⟨b.buffer.insert it (insertValue (htonl value).toNat
    [(0x000000FF, 0), (0x0000FF00, 8), (0x00FF0000, 16), (0xFF000000, 24)])⟩

/-- The masks and shifts of a word of `n` bytes. -/
theorem insertValue_range (n v : Nat) :
    insertValue v ((List.range n).map fun i => (255 <<< (8 * i), 8 * i)) = toLE n v := by
  rw [insertValue, List.map_map, toLE_eq_map]
  refine List.map_congr_left ?_
  intro i _
  exact ofNat_and_shiftRight v (8 * i)

theorem insertU16_eq (b : KSocketBuffer) (it : Nat) (value : UInt16) :
    b.insertU16 it value = b.insertBytebuffer it (toBE 2 value.toNat) := by
  have hbytes := insertValue_range 2 (htons value).toNat
  rw [← storeU16, storeU16_htons] at hbytes
  rw [insertU16, insertBytebuffer, ← hbytes]
  rfl

theorem insertU32_eq (b : KSocketBuffer) (it : Nat) (value : UInt32) :
    b.insertU32 it value = b.insertBytebuffer it (toBE 4 value.toNat) := by
  have hbytes := insertValue_range 4 (htonl value).toNat
  rw [← storeU32, storeU32_htonl] at hbytes
  rw [insertU32, insertBytebuffer, ← hbytes]
  rfl

/-- An insert at the end appends, and one at the beginning prepends. -/
theorem insertBytebuffer_endIt (b : KSocketBuffer) (bs : List UInt8) :
    b.insertBytebuffer b.endIt bs = ⟨b.buffer ++ bs⟩ := by
  rw [insertBytebuffer, KBuffer.insert, endIt, size, List.take_length, List.drop_length, List.append_nil]

theorem insertBytebuffer_beginIt (b : KSocketBuffer) (bs : List UInt8) :
    b.insertBytebuffer b.beginIt bs = ⟨bs ++ b.buffer⟩ := rfl

/-! ## Frames built by inserting -/

/-- Length, type and payload, each at the end. -/
def appendedFrame (pduType : UInt16) (payload : List UInt8) : KSocketBuffer :=
  let b : KSocketBuffer := ⟨[]⟩
  let b := b.insertU32 b.endIt (UInt32.ofNat payload.length)
  let b := b.insertU16 b.endIt pduType
  b.insertBytebuffer b.endIt payload

/-- The payload, and the type and then the length in front of it. -/
def prependedFrame (pduType : UInt16) (payload : List UInt8) : KSocketBuffer :=
  let b : KSocketBuffer := ⟨[]⟩
  let b := b.insertBytebuffer b.endIt payload
  let b := b.insertU16 b.beginIt pduType
  b.insertU32 b.beginIt (UInt32.ofNat payload.length)

theorem appendedFrame_eq (m : Pdu) : (appendedFrame m.pduType m.payload).buffer = frame m := by
  have hlen : (UInt32.ofNat m.payload.length).toNat = m.payload.length := Nat.mod_eq_of_lt m.fits
  simp only [appendedFrame, insertU32_eq, insertU16_eq, insertBytebuffer_endIt, hlen, List.nil_append]
  rfl

theorem prependedFrame_eq (m : Pdu) : (prependedFrame m.pduType m.payload).buffer = frame m := by
  have hlen : (UInt32.ofNat m.payload.length).toNat = m.payload.length := Nat.mod_eq_of_lt m.fits
  simp only [prependedFrame, insertU32_eq, insertU16_eq, insertBytebuffer_endIt, insertBytebuffer_beginIt, hlen,
    List.nil_append]
  exact (List.append_assoc _ _ _).symm

end KSocketBuffer

/-! ## One frame, three ways -/

namespace Encoders

open RecvPdu KSocketBuffer

/-- The bytes are in an unconsumed buffer from its start on, and the last `n` of
them are still to be announced. -/
structure Receives {R : ObjectSize} (receiver : SocketBuffer R) (n : Nat) (bytes : List UInt8) : Prop where
  unconsumed : receiver.consumed = 0
  room : receiver.used + n ≤ R.bytes
  bytes : read receiver.buffer receiver.getStart (receiver.used + n) = bytes

/-- `GetPdu` returns true, with the PDU in its out-parameters and at `GetStart()`. -/
def Decodes {R : ObjectSize} (receiver : SocketBuffer R) (n : Nat) (pduType : UInt16) (payload : List UInt8) : Prop :=
  ∀ out, ∃ sb hdr, receiver.getPdu n out = (true, sb, hdr) ∧ hdr.pduType = pduType ∧
    hdr.pduLen.toNat = payload.length ∧ read sb.buffer sb.getStart hdr.pduLen.toNat = payload

theorem Receives.decodes {R : ObjectSize} {receiver : SocketBuffer R} {n : Nat} {m : Pdu}
    (h : Receives receiver n (frame m)) : Decodes receiver n m.pduType m.payload := by
  intro out
  have hu : receiver.used ≤ R.bytes := Nat.le_trans (Nat.le_add_right _ n) h.room
  have hready : Ready receiver := ⟨h.unconsumed, hu⟩
  have hbytes := h.bytes
  have hp : ({ receiver with used := receiver.used + n } : SocketBuffer R).pending = frame m ++ [] := by
    rw [List.append_nil, ← hbytes, SocketBuffer.pending, SocketBuffer.getStart, h.unconsumed]
    rfl
  obtain ⟨sb, hdr, hget, hands⟩ := Batches.getPdu_frame hready h.room hp out
  exact ⟨sb, hdr, hget, by rw [hands.header], hands.pduLen, hands.payload⟩

/-- What an `AddPdu` that returns true has appended is the frame that either way
of inserting builds, and a buffer that received the one or the other decodes it. -/
theorem encoders_agree {S : ObjectSize} {sb sb' : SocketBuffer S} (h : sb.Reached) {pduType : UInt16}
    {payload : List UInt8} (hcall : sb.addPdu (serializer pduType payload) = some (true, sb')) :
    read sb'.buffer sb.used (sb'.used - sb.used) = (appendedFrame pduType payload).buffer ∧
      read sb'.buffer sb.used (sb'.used - sb.used) = (prependedFrame pduType payload).buffer ∧
      ∀ (R : ObjectSize) (receiver : SocketBuffer R) (n : Nat),
        Receives receiver n (appendedFrame pduType payload).buffer ∨
          Receives receiver n (prependedFrame pduType payload).buffer ∨
          Receives receiver n (read sb'.buffer sb.used (sb'.used - sb.used)) →
        Decodes receiver n pduType payload := by
  obtain ⟨fits, -, rfl⟩ := SocketBuffer.addPdu_accepted h.used_le hcall
  let m : Pdu := ⟨pduType, payload, fits⟩
  have hread : read (write sb.buffer sb.used (frame m)) sb.used (sb.used + (6 + payload.length) - sb.used) =
      frame m := by
    rw [Nat.add_sub_cancel_left, ← length_frame m, read_write_same]
  have happended : (appendedFrame pduType payload).buffer = frame m := appendedFrame_eq m
  have hprepended : (prependedFrame pduType payload).buffer = frame m := prependedFrame_eq m
  rw [happended, hprepended, hread]
  refine ⟨rfl, rfl, ?_⟩
  rintro R receiver n (hr | hr | hr) <;> exact hr.decodes

theorem three_bytes_agree :
    ∃ sb' : SocketBuffer ⟨16, by decide⟩,
      (.new fun _ => 0 : SocketBuffer ⟨16, by decide⟩).addPdu (serializer 0x0102 [7, 8, 9]) = some (true, sb') ∧
      sb'.used = 9 ∧ read sb'.buffer 0 9 = [0, 0, 0, 3, 1, 2, 7, 8, 9] ∧
      read sb'.buffer 0 9 = (appendedFrame 0x0102 [7, 8, 9]).buffer := by
  let sb : SocketBuffer ⟨16, by decide⟩ := .new fun _ => 0
  have hrun : (sb.addPdu (serializer 0x0102 [7, 8, 9])).map (fun r => (r.1, r.2.used, read r.2.buffer 0 9)) =
      some (true, 9, [0, 0, 0, 3, 1, 2, 7, 8, 9]) := by decide +kernel
  obtain ⟨⟨ok, sb'⟩, hcall, hr⟩ := Option.map_eq_some_iff.1 hrun
  obtain ⟨rfl, hused, hread⟩ : _ ∧ _ ∧ _ := by simpa only [Prod.mk.injEq] using hr
  obtain ⟨happended, -⟩ := encoders_agree (.new _) hcall
  refine ⟨sb', hcall, hused, hread, ?_⟩
  rw [← happended, hused]
  rfl

end Encoders

end KSock
