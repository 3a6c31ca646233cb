import KSock.Lib.Memory
import KSock.Lib.Word
import KSock.Pdu
/-!
# `SocketBuffer`

The class template of `helper.hpp`: an array of `SIZE` bytes with two counters.
Bytes below `used` have been filled, bytes below `consumed` are done with, and
the bytes between are pending. The counters are `size_t`, so sums and
differences of them wrap at 2^64; the lemmas of the last part say what each
method computes while `consumed <= used <= SIZE`.

A store that would leave the array is undefined behaviour, and the method that
makes it has no result. A load past the end yields whatever lies there.
-/
open KSockLib.Memory KSockLib.Word KSockLib.Endian

namespace KSock

def SOCKET_ERROR : Int := -1

/-- The size of a C++ object, which is at most `PTRDIFF_MAX`. -/
structure ObjectSize where
  bytes : Nat
  fits : bytes < 2 ^ 63

/-- `buffer` is memory from the array's first byte on. -/
structure SocketBuffer (SIZE : ObjectSize) where
  buffer : Nat → UInt8
  used : Nat
  consumed : Nat

/-- The two out-parameters of `GetPdu`. -/
structure PduHeader where
  pduType : UInt16
  pduLen : UInt32
  deriving DecidableEq, Repr

/-- What one `AddPdu` call gets from its serializer: the type and size it
announces, the bytes `Serialize` writes and the size it returns. -/
structure BaseSerializer where
  getPduType : UInt16
  getSerializedSize : UInt64
  serialized : List UInt8
  serialize : UInt64

namespace SocketBuffer

variable {SIZE : ObjectSize}

/-- The constructor sets the counters and leaves the array as it is. -/
def new (memory : Nat → UInt8) : SocketBuffer SIZE := ⟨memory, 0, 0⟩

/-! ## The methods -/

def getSize (_ : SocketBuffer SIZE) : Nat := SIZE.bytes
def getUsed (sb : SocketBuffer SIZE) : Nat := subW 64 sb.used sb.consumed
def getRemainingSendSize (sb : SocketBuffer SIZE) : Nat := sb.getUsed
def getRemainingRecvSize (sb : SocketBuffer SIZE) : Nat := subW 64 sb.getSize sb.getUsed

/-- `GetStart` and `GetStartS`, as an index into the array. -/
def getStart (sb : SocketBuffer SIZE) : Nat := sb.consumed

/-- `GetEnd`, as an index into the array. -/
def getEnd (sb : SocketBuffer SIZE) : Nat := sb.used

def sizeCheck (sb : SocketBuffer SIZE) (requiredSize : Nat) : Bool :=
  addW 64 sb.used requiredSize < SIZE.bytes

/-- Write `bs` at `buffer + i`. -/
def store (sb : SocketBuffer SIZE) (i : Nat) (bs : List UInt8) : Option (SocketBuffer SIZE) :=
  if i + bs.length ≤ SIZE.bytes then some { sb with buffer := write sb.buffer i bs } else none

/-- `GetPrimitve<T>` for a `T` of `sizeofOut` bytes: the bytes assigned to
`out`, if it returns true. -/
def getPrimitve (sb : SocketBuffer SIZE) (sizeofOut offset : Nat) : Option (List UInt8) :=
  if addW 64 offset sizeofOut > sb.used then none
  else some (read sb.buffer (addW 64 sb.getStart offset) sizeofOut)

/-- `AddPrimitve<T>`, given the bytes of the value in memory. -/
def addPrimitve (sb : SocketBuffer SIZE) (value : List UInt8) : Option (Bool × SocketBuffer SIZE) := do
  if !sb.sizeCheck value.length then
    return (false, sb)
  let sb ← sb.store sb.getEnd value
  return (true, { sb with used := addW 64 sb.used value.length })

def getPdu (sb : SocketBuffer SIZE) (receivedSize : Nat) (out : PduHeader) :
    Bool × SocketBuffer SIZE × PduHeader :=
  if receivedSize > subW 64 SIZE.bytes sb.used then (false, sb, out) else
  let sb := { sb with used := addW 64 sb.used receivedSize }
  if sb.used < 2 + 4 then (false, sb, out) else
  match sb.getPrimitve 4 0 with
  | none => (false, sb, out)
  | some len =>
    match sb.getPrimitve 2 4 with
    | none => (false, sb, { out with pduLen := loadU32 len })
    | some type =>
      let out := { pduType := ntohs (loadU16 type), pduLen := ntohl (loadU32 len) }
      if sb.used < addW 64 (2 + 4) out.pduLen.toNat then (false, sb, out)
      else (true, { sb with consumed := addW 64 sb.consumed (2 + 4) }, out)

def addPdu (sb : SocketBuffer SIZE) (bs : BaseSerializer) : Option (Bool × SocketBuffer SIZE) := do
  let pduType := bs.getPduType
  -- `uint32_t pdu_len = bs.GetSerializedSize()` keeps the low 32 bits
  let pduLen := bs.getSerializedSize.toUInt32
  if !sb.sizeCheck (addW 64 (2 + 4) pduLen.toNat) then
    return (false, sb)
  let (ok, sb) ← sb.addPrimitve (storeU32 (htonl pduLen))
  if !ok then
    return (false, sb)
  let (ok, sb) ← sb.addPrimitve (storeU16 (htons pduType))
  if !ok then
    return (false, sb)
  let sb ← sb.store sb.getEnd bs.serialized
  if bs.serialize ≠ pduLen.toUInt64 then
    return (false, sb)
  return (true, { sb with used := addW 64 sb.used pduLen.toNat })

def allConsumed (sb : SocketBuffer SIZE) : Bool := sb.used == sb.consumed

def consume (sb : SocketBuffer SIZE) (consumingSize : Nat) : Bool × SocketBuffer SIZE :=
  if addW 64 consumingSize sb.consumed > sb.used then (false, sb)
  else (true, { sb with consumed := addW 64 sb.consumed consumingSize })

/-- The move stays inside the array only if both of its ends do. -/
def sweep (sb : SocketBuffer SIZE) : Option (SocketBuffer SIZE) :=
  if sb.consumed = 0 then some sb else
  let n := subW 64 sb.used sb.consumed
  let swept (buffer : Nat → UInt8) : SocketBuffer SIZE := ⟨buffer, n, 0⟩
  if sb.used ≠ sb.consumed then
    if sb.consumed + n ≤ SIZE.bytes then some (swept (move sb.buffer 0 sb.consumed n)) else none
  else some (swept sb.buffer)

/-! ## The representation -/

/-- `consumed <= used <= SIZE`. -/
structure Inv (sb : SocketBuffer SIZE) : Prop where
  consumed_le : sb.consumed ≤ sb.used
  used_le : sb.used ≤ SIZE.bytes

/-- The bytes from `consumed` to `used`. -/
def pending (sb : SocketBuffer SIZE) : List UInt8 := read sb.buffer sb.consumed (sb.used - sb.consumed)

/-- The header fields in the six bytes at `GetStart`. -/
def header (sb : SocketBuffer SIZE) : PduHeader :=
  ⟨typeField (read sb.buffer sb.consumed 6), UInt32.ofNat (lenField (read sb.buffer sb.consumed 6))⟩

theorem new_inv (memory : Nat → UInt8) : (new memory : SocketBuffer SIZE).Inv :=
  ⟨Nat.le_refl 0, Nat.zero_le _⟩

@[simp] theorem length_pending (sb : SocketBuffer SIZE) : sb.pending.length = sb.used - sb.consumed := by
  simp [pending]

variable {sb : SocketBuffer SIZE}

theorem used_lt (h : sb.used ≤ SIZE.bytes) : sb.used < 2 ^ 63 := Nat.lt_of_le_of_lt h SIZE.fits

theorem Inv.used_lt (h : sb.Inv) : sb.used < 2 ^ 63 := SocketBuffer.used_lt h.used_le

theorem Inv.getUsed_eq (h : sb.Inv) : sb.getUsed = sb.used - sb.consumed :=
  subW_eq h.consumed_le (by have := h.used_lt; omega)

theorem Inv.getRemainingRecvSize_eq (h : sb.Inv) :
    sb.getRemainingRecvSize = SIZE.bytes - (sb.used - sb.consumed) := by
  have := h.used_le
  have := SIZE.fits
  rw [getRemainingRecvSize, h.getUsed_eq, getSize]
  exact subW_eq (by omega) (by omega)

theorem store_eq {i : Nat} {bs : List UInt8} (h : i + bs.length ≤ SIZE.bytes) :
    sb.store i bs = some { sb with buffer := write sb.buffer i bs } := if_pos h

theorem store_none {i : Nat} {bs : List UInt8} (h : SIZE.bytes < i + bs.length) : sb.store i bs = none :=
  if_neg (by omega)

theorem sizeCheck_eq (h : sb.used ≤ SIZE.bytes) {n : Nat} (hn : n < 2 ^ 63) :
    sb.sizeCheck n = decide (sb.used + n < SIZE.bytes) := by
  have := used_lt h
  rw [sizeCheck, addW_eq (by omega)]

/-! ## What the methods compute -/

theorem addPrimitve_eq (h : sb.used ≤ SIZE.bytes) {value : List UInt8} (hv : value.length < 2 ^ 63) :
    sb.addPrimitve value = some (if sb.used + value.length < SIZE.bytes then
      (true, ⟨write sb.buffer sb.used value, sb.used + value.length, sb.consumed⟩) else (false, sb)) := by
  have := used_lt h
  rw [addPrimitve, sizeCheck_eq h hv]
  by_cases hc : sb.used + value.length < SIZE.bytes
  · simp only [hc, decide_true, Bool.not_true, Bool.false_eq_true, if_false, if_true, getEnd]
    rw [store_eq (Nat.le_of_lt hc), Option.bind_eq_bind, Option.bind_some,
      addW_eq (show sb.used + value.length < 2 ^ 64 by omega)]
    rfl
  · simp only [hc, decide_false, Bool.not_false, if_true, if_false]
    rfl

theorem addPrimitve_true (value : List UInt8) (hc : sb.used + value.length < SIZE.bytes) :
    sb.addPrimitve value =
      some (true, ⟨write sb.buffer sb.used value, sb.used + value.length, sb.consumed⟩) := by
  have := SIZE.fits
  rw [addPrimitve_eq (by omega) (by omega), if_pos hc]

/-- `GetPdu` in one piece: it takes the received bytes in and looks at the
header at `GetStart`. Both bounds tests are against `used`. -/
theorem Inv.getPdu_eq (h : sb.Inv) (n : Nat) (out : PduHeader) :
    sb.getPdu n out =
      if SIZE.bytes - sb.used < n then (false, sb, out)
      else if sb.used + n < 6 then (false, { sb with used := sb.used + n }, out)
      else if sb.used + n < 6 + sb.header.pduLen.toNat then (false, { sb with used := sb.used + n }, sb.header)
      else (true, { sb with used := sb.used + n, consumed := sb.consumed + 6 }, sb.header) := by
  have hu := h.used_le
  have hS := SIZE.fits
  have hc := h.consumed_le
  rw [getPdu, subW_eq hu (by omega)]
  by_cases hn : SIZE.bytes - sb.used < n
  · rw [if_pos hn, if_pos hn]
  have e : addW 64 sb.used n = sb.used + n := addW_eq (by omega)
  simp only [if_neg hn, gt_iff_lt, e]
  by_cases h6 : sb.used + n < 6
  · rw [if_pos h6, if_pos h6]
  have hlen : ntohl (loadU32 (read sb.buffer sb.consumed 4)) = sb.header.pduLen := by
    rw [ntohl_loadU32 (length_read _ _ _), header, lenField, take_read _ _ (by omega)]
  have htype : ntohs (loadU16 (read sb.buffer (sb.consumed + 4) 2)) = sb.header.pduType := by
    rw [ntohs_loadU16 (length_read _ _ _), header, typeField, drop_read _ _ (by omega)]
    rfl
  have hL : sb.header.pduLen.toNat < 2 ^ 32 := sb.header.pduLen.toNat_lt
  have g4 : getPrimitve (⟨sb.buffer, sb.used + n, sb.consumed⟩ : SocketBuffer SIZE) 4 0 = some (read sb.buffer sb.consumed 4) := by
    rw [getPrimitve, addW_eq (by omega), if_neg (by simp only; omega), getStart, addW_eq (by simp only; omega)]
    rfl
  have g2 : getPrimitve (⟨sb.buffer, sb.used + n, sb.consumed⟩ : SocketBuffer SIZE) 2 4 = some (read sb.buffer (sb.consumed + 4) 2) := by
    rw [getPrimitve, addW_eq (by omega), if_neg (by simp only; omega), getStart, addW_eq (by simp only; omega)]
  rw [if_neg h6, if_neg h6]
  simp only [g4, g2, hlen, htype]
  rw [addW_eq (show 2 + 4 + sb.header.pduLen.toNat < 2 ^ 64 by omega), addW_eq (by omega)]

theorem Inv.consume_eq (h : sb.Inv) {n : Nat} (hn : n + sb.consumed < 2 ^ 64) :
    sb.consume n = if sb.used - sb.consumed < n then (false, sb)
      else (true, { sb with consumed := sb.consumed + n }) := by
  have hc := h.consumed_le
  rw [consume, addW_eq hn, Nat.add_comm n, addW_eq (by omega)]
  by_cases hu : sb.used - sb.consumed < n
  · rw [if_pos hu, if_pos (by omega)]
  · rw [if_neg hu, if_neg (by omega)]

/-- Consuming pending bytes drops them from the front. -/
theorem Inv.consume_pending (h : sb.Inv) {n : Nat} (hn : n ≤ sb.used - sb.consumed) :
    ∃ sb', sb.consume n = (true, sb') ∧ sb'.Inv ∧ sb'.pending = sb.pending.drop n := by
  have hc := h.consumed_le
  have hu := h.used_lt
  refine ⟨{ sb with consumed := sb.consumed + n }, by rw [h.consume_eq (by omega), if_neg (by omega)],
    ⟨by simp only; omega, h.used_le⟩, ?_⟩
  rw [pending, pending, drop_read _ _ hn]
  simp only [Nat.sub_sub]

/-- Whatever it is given, `Consume` keeps the counters in order: a sum that
wraps moves `consumed` back, not past `used`. -/
theorem Inv.consume_inv (h : sb.Inv) (n : Nat) : (sb.consume n).2.Inv := by
  unfold consume
  split
  · exact h
  · rename_i hc
    exact ⟨by rw [addW, Nat.add_comm]; exact Nat.le_of_not_lt hc, h.used_le⟩

/-- `Sweep` moves the pending bytes to the front. -/
theorem Inv.sweep_eq (h : sb.Inv) :
    ∃ sb', sb.sweep = some sb' ∧ sb'.consumed = 0 ∧ sb'.used = sb.used - sb.consumed ∧ sb'.pending = sb.pending := by
  have hc := h.consumed_le
  have hu := h.used_lt
  have hl := h.used_le
  unfold sweep
  by_cases h0 : sb.consumed = 0
  · exact ⟨sb, by rw [if_pos h0], h0, by omega, rfl⟩
  rw [if_neg h0, subW_eq hc (by omega)]
  by_cases he : sb.used ≠ sb.consumed
  · refine ⟨⟨move sb.buffer 0 sb.consumed (sb.used - sb.consumed), sb.used - sb.consumed, 0⟩, ?_, rfl, rfl, ?_⟩
    · simp only [if_pos he]
      rw [if_pos (by omega)]
    · simp [pending]
  · refine ⟨⟨sb.buffer, sb.used - sb.consumed, 0⟩, by simp only [if_neg he], rfl, rfl, ?_⟩
    simp [pending, show sb.used - sb.consumed = 0 by omega]

theorem Inv.sweep_inv (h : sb.Inv) {sb' : SocketBuffer SIZE} (hs : sb.sweep = some sb') : sb'.Inv := by
  obtain ⟨_, hs', hc, hu, -⟩ := h.sweep_eq
  obtain rfl : _ = sb' := Option.some.inj (hs'.symm.trans hs)
  exact ⟨by omega, by have := h.used_le; omega⟩

/-! ## `AddPdu` -/

/-- `AddPdu` in one piece. The capacity test uses the low 32 bits of the
announced size; what `Serialize` writes is then bounded by the array only. -/
theorem addPdu_eq (hu : sb.used ≤ SIZE.bytes) (bs : BaseSerializer) :
    sb.addPdu bs =
      if SIZE.bytes ≤ sb.used + 6 + bs.getSerializedSize.toUInt32.toNat then some (false, sb)
      else if SIZE.bytes < sb.used + 6 + bs.serialized.length then none
      else
        let buffer := write (write sb.buffer sb.used (headerBytes bs.getPduType bs.getSerializedSize.toUInt32.toNat))
          (sb.used + 6) bs.serialized
        if bs.serialize.toNat ≠ bs.getSerializedSize.toUInt32.toNat then
          some (false, ⟨buffer, sb.used + 6, sb.consumed⟩)
        else some (true, ⟨buffer, sb.used + 6 + bs.getSerializedSize.toUInt32.toNat, sb.consumed⟩) := by
  have hS := SIZE.fits
  generalize hL : bs.getSerializedSize.toUInt32 = L
  have hLt : L.toNat < 2 ^ 32 := L.toNat_lt
  rw [addPdu, hL, addW_eq (show 2 + 4 + L.toNat < 2 ^ 64 by omega), sizeCheck_eq hu (by omega)]
  by_cases hfit : SIZE.bytes ≤ sb.used + 6 + L.toNat
  · rw [if_pos hfit, decide_eq_false (by omega)]
    rfl
  rw [if_neg hfit, decide_eq_true (by omega)]
  have a4 := @addPrimitve_true SIZE sb (storeU32 (htonl L)) (by rw [length_storeU32]; omega)
  rw [length_storeU32] at a4
  have a2 := @addPrimitve_true SIZE ⟨write sb.buffer sb.used (storeU32 (htonl L)), sb.used + 4, sb.consumed⟩
    (storeU16 (htons bs.getPduType)) (by rw [length_storeU16]; simp only; omega)
  rw [length_storeU16] at a2
  have hw : write (write sb.buffer sb.used (storeU32 (htonl L))) (sb.used + 4) (storeU16 (htons bs.getPduType)) =
      write sb.buffer sb.used (headerBytes bs.getPduType L.toNat) := by
    rw [storeU32_htonl, storeU16_htons, headerBytes]
    have := write_write_append sb.buffer sb.used (toBE 4 L.toNat) (toBE 2 bs.getPduType.toNat)
    rwa [length_toBE] at this
  simp only [a4, a2, hw, Bool.not_true, Bool.false_eq_true, if_false, Option.pure_def, Option.bind_eq_bind,
    Option.bind_some, getEnd]
  by_cases hs : SIZE.bytes < sb.used + 6 + bs.serialized.length
  · rw [if_pos hs, store_none (by omega), Option.bind_none]
  rw [if_neg hs, store_eq (by omega), Option.bind_some]
  have hne : bs.serialize ≠ L.toUInt64 ↔ bs.serialize.toNat ≠ L.toNat := by
    rw [ne_eq, ← UInt64.toNat_inj, UInt32.toNat_toUInt64]
  simp only [hne]
  by_cases hr : bs.serialize.toNat ≠ L.toNat
  · rw [if_pos hr, if_pos hr]
  · rw [if_neg hr, if_neg hr, addW_eq (by omega)]

end SocketBuffer

end KSock
