import KSock.Protobuf.Message
import KSock.Lib.Memory
/-!
# `protobuf_c_message_get_packed_size` and `protobuf_c_message_pack`

A caller asks for the packed size, allocates that many bytes and has the message
packed into them. `pack` goes from member to member and writes at `out`; where
it does not know a length in advance it packs behind the place it expects, and
moves the bytes afterwards.

Both follow the members by the types of their fields. They have no result where
a cell is not of its field's type, a pointer that is followed is NULL or a
block is too short.
-/
open KSockLib KSockLib.Memory

namespace KSock.Protobuf

/-! ## Sizes -/

/-- The cases of `required_field_get_packed_size` without the tag, all but the
last; the loops of `repeated_field_get_packed_size` add the same. -/
def scalarSize (type : ProtobufCType) (member : Value) : Option Nat :=
  match type, member with
  | .sint32, .word32 v => some (sint32Size v.toInt32)
  | .enum, .word32 v => some (int32Size v.toInt32)
  | .int32, .word32 v => some (int32Size v.toInt32)
  | .uint32, .word32 v => some (uint32Size v)
  | .sint64, .word64 v => some (sint64Size v.toInt64)
  | .int64, .word64 v => some (uint64Size v)
  | .uint64, .word64 v => some (uint64Size v)
  | .sfixed32, .word32 _ => some 4
  | .fixed32, .word32 _ => some 4
  | .sfixed64, .word64 _ => some 8
  | .fixed64, .word64 _ => some 8
  | .bool, .boolean _ => some 1
  | .float, .word32 _ => some 4
  | .double, .word64 _ => some 8
  | .string, .string str =>
    let len := (str.map fun str => (cstring str).length).getD 0
    some (uint32Size (UInt32.ofNat len) + len)
  | .bytes, .binary len _ => some (uint32Size (UInt32.ofNat len) + len)
  | _, _ => none

def unknownFieldGetPackedSize (field : ProtobufCMessageUnknownField) : Nat :=
  getTagSize field.tag + field.data.length

mutual
def messageGetPackedSize (D : Descriptors) : ProtobufCMessage → Option Nat
  | .mk descriptor members unknownFields => do
    let rv ← fieldsGetPackedSize D (D descriptor).fields members
    return rv + (unknownFields.map unknownFieldGetPackedSize).sum

/-- The loop over the fields. -/
def fieldsGetPackedSize (D : Descriptors) : List ProtobufCFieldDescriptor → List Member → Option Nat
  | [], [] => some 0
  | field :: fields, member :: members => do
    return (← fieldGetPackedSize D field member) + (← fieldsGetPackedSize D fields members)
  | _, _ => none

/-- The choice by the field's label. -/
def fieldGetPackedSize (D : Descriptors) (field : ProtobufCFieldDescriptor) : Member → Option Nat
  | .single has member => do
    if field.label = .repeated then none
    if omitted field has member then return 0
    return getTagSize field.id + (← requiredFieldGetPackedSize D field member)
  | .repeated count array => do
    if field.label ≠ .repeated then none
    if count = 0 then return 0
    let rv ← arrayGetPackedSize D field count array
    if field.packed then return getTagSize field.id + uint32Size (UInt32.ofNat rv) + rv
    return getTagSize field.id * count + rv

/-- The loops of `repeated_field_get_packed_size`, which follow every pointer. -/
def arrayGetPackedSize (D : Descriptors) (field : ProtobufCFieldDescriptor) : Nat → List Value → Option Nat
  | 0, _ => some 0
  | _ + 1, [] => none
  | count + 1, v :: array => do
    if v.isNull then none
    return (← requiredFieldGetPackedSize D field v) + (← arrayGetPackedSize D field count array)

/-- Without the tag. -/
def requiredFieldGetPackedSize (D : Descriptors) (field : ProtobufCFieldDescriptor) : Value → Option Nat
  | .message none => if field.type = .message then some (uint32Size 0 + 0) else none
  | .message (some msg) => do
    if field.type ≠ .message then none
    let subrv ← messageGetPackedSize D msg
    return uint32Size (UInt32.ofNat subrv) + subrv
  | member => scalarSize field.type member
end

/-! ## Packing -/

/-- The memory that `out` points into. -/
abbrev Mem := Nat → UInt8

/-- `memcpy(out, str, strlen(str))` behind the length; NULL is the empty string. -/
def stringPack (str : Option (List UInt8)) : List UInt8 :=
  match str with
  | none => [0]
  | some str => uint32Pack (UInt32.ofNat (cstring str).length) ++ cstring str

def binaryDataPack (len : Nat) (data : List UInt8) : Option (List UInt8) := do
  return uint32Pack (UInt32.ofNat len) ++ (← copy len data)

/-- The cases of `required_field_pack` but the last: the wire type that goes
into the tag, and the bytes behind it. -/
def scalarPack (type : ProtobufCType) (member : Value) : Option (UInt8 × List UInt8) :=
  match type, member with
  | .sint32, .word32 v => some (0, sint32Pack v.toInt32)
  | .enum, .word32 v => some (0, int32Pack v)
  | .int32, .word32 v => some (0, int32Pack v)
  | .uint32, .word32 v => some (0, uint32Pack v)
  | .sint64, .word64 v => some (0, sint64Pack v.toInt64)
  | .int64, .word64 v => some (0, uint64Pack v)
  | .uint64, .word64 v => some (0, uint64Pack v)
  | .sfixed32, .word32 v => some (5, fixed32Pack v)
  | .fixed32, .word32 v => some (5, fixed32Pack v)
  | .float, .word32 v => some (5, fixed32Pack v)
  | .sfixed64, .word64 v => some (1, fixed64Pack v)
  | .fixed64, .word64 v => some (1, fixed64Pack v)
  | .double, .word64 v => some (1, fixed64Pack v)
  | .bool, .boolean b => some (0, booleanPack b)
  | .string, .string str => some (2, stringPack str)
  | .bytes, .binary len data => (binaryDataPack len data).map fun bytes => (2, bytes)
  | _, _ => none

/-- `out[0] |= wire_type`, and what is written behind the tag. -/
def packTagged (id : UInt32) (wireType : UInt8) (bytes : List UInt8) (out : Nat) (mem : Mem) : Nat × Mem :=
  let tag := tagPack id
  let mem := write mem out tag
  let mem := write mem out [mem out ||| wireType]
  (tag.length + bytes.length, write mem (out + tag.length) bytes)

def getTypeMinSize (type : ProtobufCType) : Nat :=
  if type = .sfixed32 ∨ type = .fixed32 ∨ type = .float then 4
  else if type = .sfixed64 ∨ type = .fixed64 ∨ type = .double then 8
  else 1

/-- The elements one after another, as the loops of the packed case write them;
the `default` case writes none. -/
def packedPayload (type : ProtobufCType) : Nat → List Value → Option (List UInt8)
  | 0, _ => some []
  | count + 1, array => do
    if type = .string ∨ type = .bytes ∨ type = .message then return []
    let v ← array.head?
    return (← scalarPack type v).2 ++ (← packedPayload type count array.tail)

/-- The packed case of `repeated_field_pack`. The lengths are `unsigned`. -/
def packedFieldPack (field : ProtobufCFieldDescriptor) (count : Nat) (array : List Value) (out : Nat) (mem : Mem) :
    Option (Nat × Mem) := do
  if count = 0 then return (0, mem)
  let tag := tagPack field.id
  let mem := write mem out tag
  let mem := write mem out [mem out ||| 2]
  let lenStart := tag.length
  let lengthSizeMin := uint32Size (UInt32.ofNat (getTypeMinSize field.type * count))
  let headerLen := tag.length + lengthSizeMin
  let payload ← packedPayload field.type count array
  let mem := write mem (out + headerLen) payload
  let payloadLen := UInt32.ofNat payload.length
  let (headerLen, mem) := if lengthSizeMin ≠ uint32Size payloadLen then
      (headerLen + 1, move mem (out + headerLen + 1) (out + headerLen) payloadLen.toNat)
    else (headerLen, mem)
  return (headerLen + payloadLen.toNat, write mem (out + lenStart) (uint32Pack payloadLen))

/-- The loop over the unknown fields. -/
def unknownFieldsPack : List ProtobufCMessageUnknownField → Nat → Mem → Nat × Mem
  | [], _, mem => (0, mem)
  | field :: fields, out, mem =>
    let (n, mem) := packTagged field.tag field.wireType field.data out mem
    let (rv, mem) := unknownFieldsPack fields (out + n) mem
    (n + rv, mem)

mutual
def messagePack (D : Descriptors) : ProtobufCMessage → Nat → Mem → Option (Nat × Mem)
  | .mk descriptor members unknownFields, out, mem => do
    let (rv, mem) ← fieldsPack D (D descriptor).fields members out mem
    let (n, mem) := unknownFieldsPack unknownFields (out + rv) mem
    return (rv + n, mem)

def fieldsPack (D : Descriptors) :
    List ProtobufCFieldDescriptor → List Member → Nat → Mem → Option (Nat × Mem)
  | [], [], _, mem => some (0, mem)
  | field :: fields, member :: members, out, mem => do
    let (n, mem) ← fieldPack D field member out mem
    let (rv, mem) ← fieldsPack D fields members (out + n) mem
    return (n + rv, mem)
  | _, _, _, _ => none

def fieldPack (D : Descriptors) (field : ProtobufCFieldDescriptor) : Member → Nat → Mem → Option (Nat × Mem)
  | .single has member, out, mem => do
    if field.label = .repeated then none
    if omitted field has member then return (0, mem)
    requiredFieldPack D field member out mem
  | .repeated count array, out, mem => do
    if field.label ≠ .repeated then none
    if field.packed then packedFieldPack field count array out mem
    else arrayPack D field count array out mem

/-- The loop of `repeated_field_pack` where the field is not packed. -/
def arrayPack (D : Descriptors) (field : ProtobufCFieldDescriptor) :
    Nat → List Value → Nat → Mem → Option (Nat × Mem)
  | 0, _, _, mem => some (0, mem)
  | _ + 1, [], _, _ => none
  | count + 1, v :: array, out, mem => do
    let (n, mem) ← requiredFieldPack D field v out mem
    let (rv, mem) ← arrayPack D field count array (out + n) mem
    return (n + rv, mem)

/-- The last case has `prefixed_message_pack` in it. -/
def requiredFieldPack (D : Descriptors) (field : ProtobufCFieldDescriptor) :
    Value → Nat → Mem → Option (Nat × Mem)
  | .message none, out, mem => if field.type = .message then some (packTagged field.id 2 [0] out mem) else none
  | .message (some msg), out, mem => do
    if field.type ≠ .message then none
    let tag := tagPack field.id
    let mem := write mem out tag
    let mem := write mem out [mem out ||| 2]
    let at' := out + tag.length
    let (rv, mem) ← messagePack D msg (at' + 1) mem
    let rvPackedSize := uint32Size (UInt32.ofNat rv)
    let mem := if rvPackedSize ≠ 1 then move mem (at' + rvPackedSize) (at' + 1) rv else mem
    let bytes := uint32Pack (UInt32.ofNat rv)
    return (tag.length + (bytes.length + rv), write mem at' bytes)
  | member, out, mem => do
    let (wireType, bytes) ← scalarPack field.type member
    return packTagged field.id wireType bytes out mem
end

end KSock.Protobuf
