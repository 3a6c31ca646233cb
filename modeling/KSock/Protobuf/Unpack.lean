import KSock.Protobuf.Lookup
/-!
# `protobuf_c_message_unpack`

Unpacking goes over the bytes twice. The first pass finds the members, says what
field each is of, and counts: the unknown members and, in the message itself, the
elements of each repeated field. Then it has arrays allocated of just these sizes,
and the second pass parses the members into them.

A pointer into the bytes is what they are from there on, together with whatever
memory follows them. A read past all that is a `fault`, and so is a write past
the end of an array or of a slab. The allocator is one that never fails: what the
functions do when it does is left out.
-/
open KSockLib KSockLib.Varint

namespace KSock.Protobuf

/-- `fail` is 0, FALSE or NULL. -/
inductive Outcome (α : Type) where
  | fault
  | fail
  | ok (a : α)
  deriving DecidableEq, Repr

namespace Outcome
variable {α β : Type}

def bind : Outcome α → (α → Outcome β) → Outcome β
  | fault, _ => fault
  | fail, _ => fail
  | ok a, f => f a

instance : Monad Outcome where
  pure := ok
  bind := bind

/-- A read. -/
instance : MonadLift Option Outcome where
  monadLift
    | none => fault
    | some a => ok a

end Outcome

/-- `data` points behind the tag; `field` is an index. -/
structure ScannedMember where
  tag : UInt32
  wireType : UInt8
  lengthPrefixLen : Nat
  field : Option Nat
  len : Nat
  data : List UInt8
  deriving DecidableEq, Repr

/-! ## Scanning -/

/-- The loop from byte `rv` on, with `n` rounds left. -/
def parseTagLoop : Nat → List UInt8 → Nat → UInt32 → UInt32 → Option (Nat × UInt32)
  | 0, _, _, _, _ => some (0, 0)
  | n + 1, data, rv, tag, shift => do
    let b ← data[rv]?
    if b &&& 0x80 ≠ 0 then parseTagLoop n data (rv + 1) (tag ||| (b &&& 0x7f).toUInt32 <<< shift) (shift + 7)
    else return (rv + 1, tag ||| b.toUInt32 <<< shift)

/-- The bytes used, the tag and the wire type. -/
def parseTagAndWiretype (len : Nat) (data : List UInt8) : Option (Nat × UInt32 × UInt8) := do
  let maxRv := if len > 5 then 5 else len
  let b ← data[0]?
  let tag := ((b &&& 0x7f) >>> 3).toUInt32
  if b &&& 0xf8 = 0 then return (0, 0, 0)
  let wireType := b &&& 7
  if b &&& 0x80 = 0 then return (1, tag, wireType)
  let (rv, tag) ← parseTagLoop (maxRv - 1) data 1 tag 4
  return (rv, tag, wireType)

def scanLengthLoop : Nat → List UInt8 → Nat → Nat → Nat → Option (Nat × Nat)
  | 0, _, i, val, _ => some (i, val)
  | n + 1, data, i, val, shift => do
    let b ← data[i]?
    let val := val ||| (b &&& 0x7f).toNat <<< shift
    if b &&& 0x80 = 0 then return (i, val)
    scanLengthLoop n data (i + 1) val (shift + 7)

/-- The length with its prefix, and that of the prefix. -/
def scanLengthPrefixedData (len : Nat) (data : List UInt8) : Option (Nat × Nat) := do
  let hdrMax := if len < 5 then len else 5
  let (i, val) ← scanLengthLoop hdrMax data 0 0 0
  if i = hdrMax then return (0, 0)
  let hdrLen := i + 1
  if val > 0x7fffffff then return (0, hdrLen)
  if hdrLen + val > len then return (0, hdrLen)
  return (hdrLen + val, hdrLen)

def maxB128Numbers : Nat → List UInt8 → Option Nat
  | 0, _ => some 0
  | len + 1, data => do
    let b ← data.head?
    let rv ← maxB128Numbers len data.tail
    return if b &&& 0x80 = 0 then rv + 1 else rv

def countPackedElements (type : ProtobufCType) (len : Nat) (data : List UInt8) : Outcome Nat := do
  match type with
  | .sfixed32 | .fixed32 | .float => if len % 4 ≠ 0 then .fail else return len / 4
  | .sfixed64 | .fixed64 | .double => if len % 8 ≠ 0 then .fail else return len / 8
  | .enum | .int32 | .sint32 | .uint32 | .int64 | .sint64 | .uint64 => maxB128Numbers len data
  | .bool => return len
  | .string | .bytes | .message => .fail

/-- The choice of the field of a tag. `last_field` is NULL where there are no fields. -/
def lookupField (desc : ProtobufCMessageDescriptor) (lastFieldIndex : Nat) (tag : UInt32) : Option (Option Nat) := do
  let lookup := do
    let fieldIndex ← intRangeLookup desc.nFieldRanges desc.fieldRanges tag.toInt32.toInt
    return if fieldIndex < 0 then none else some fieldIndex.toNat
  match desc.fields with
  | [] => lookup
  | _ :: _ => if (← desc.fields[lastFieldIndex]?).id ≠ tag then lookup else return some lastFieldIndex

/-- The switch on the wire type: the length of what is behind the tag, and of
its length prefix. -/
def scanBody (wireType : UInt8) (rem : Nat) (ptr : List UInt8) : Outcome (Nat × Nat) := do
  match wireType with
  | 0 =>
    let maxLen := if rem < 10 then rem else 10
    let i ← stopIndex maxLen ptr
    if i = maxLen then .fail else return (i + 1, 0)
  | 1 => if rem < 8 then .fail else return (8, 0)
  | 2 =>
    let (len, prefLen) ← scanLengthPrefixedData rem ptr
    if len = 0 then .fail else return (len, prefLen)
  | 5 => if rem < 4 then .fail else return (4, 0)
  | _ => .fail

/-- The slabs that are full, and the one that is filled; `which_slab` is the
number of the first, `in_slab_index` the length of the second. -/
structure Slabs where
  full : List (List ScannedMember)
  slab : List ScannedMember

def maxScannedMemberSlab : Nat := 22

def Slabs.push (s : Slabs) (tmp : ScannedMember) : Outcome Slabs :=
  if s.slab.length = 1 <<< (s.full.length + 4) then
    if s.full.length = maxScannedMemberSlab then .fail else .ok ⟨s.full ++ [s.slab], [tmp]⟩
  else if s.slab.length < 1 <<< (s.full.length + 4) then .ok ⟨s.full, s.slab ++ [tmp]⟩
  else .fault

/-- The members in the order of the loops over the slabs. -/
def Slabs.members (s : Slabs) : List ScannedMember := s.full.flatten ++ s.slab

/-- Whether a member is an array in itself. -/
def isPackedMember (field : ProtobufCFieldDescriptor) (wireType : UInt8) : Bool :=
  wireType = 2 && (field.packed || isPackableType field.type)

/-- `*n += count`, in the message. -/
def addCount (members : List Member) (i count : Nat) : Option (List Member) := do
  match ← members[i]? with
  | .repeated n array => return members.set i (.repeated (n + count) array)
  | .single _ _ => none

def requiredFieldBitmapSet (bitmap : List Bool) (i : Nat) : Option (List Bool) :=
  if i < bitmap.length then some (bitmap.set i true) else none

/-- `members` are those of `rv`. -/
structure Scan where
  rem : Nat
  ptr : List UInt8
  lastFieldIndex : Nat
  slabs : Slabs
  nUnknown : Nat
  bitmap : List Bool
  members : List Member

/-- What is kept of the field before the body is looked at. -/
def noteField (desc : ProtobufCMessageDescriptor) (st : Scan) : Option Nat → Option Scan
  | none => some { st with nUnknown := st.nUnknown + 1 }
  | some i => do
    let field ← desc.fields[i]?
    let bitmap ← if field.label = .required then requiredFieldBitmapSet st.bitmap i else some st.bitmap
    return { st with lastFieldIndex := i, bitmap }

/-- What a member of a repeated field adds to the field's count. -/
def countMember (field : ProtobufCFieldDescriptor) (tmp : ScannedMember) : Outcome Nat :=
  if isPackedMember field tmp.wireType then
    countPackedElements field.type (tmp.len - tmp.lengthPrefixLen) (tmp.data.drop tmp.lengthPrefixLen)
  else .ok 1

def countScanned (desc : ProtobufCMessageDescriptor) (members : List Member) (tmp : ScannedMember) :
    Outcome (List Member) := do
  match tmp.field with
  | none => return members
  | some i =>
    let field ← desc.fields[i]?
    if field.label = .repeated then addCount members i (← countMember field tmp) else return members

/-- A round of `while (rem > 0)`. -/
def scanStep (desc : ProtobufCMessageDescriptor) (st : Scan) : Outcome Scan := do
  let (used, tag, wireType) ← parseTagAndWiretype st.rem st.ptr
  if used = 0 then .fail else
  let field ← lookupField desc st.lastFieldIndex tag
  let st ← noteField desc st field
  let ptr := st.ptr.drop used
  let rem := st.rem - used
  let (len, lengthPrefixLen) ← scanBody wireType rem ptr
  let tmp : ScannedMember := ⟨tag, wireType, lengthPrefixLen, field, len, ptr⟩
  let slabs ← st.slabs.push tmp
  let members ← countScanned desc st.members tmp
  return { st with rem := rem - len, ptr := ptr.drop len, slabs, members }

def scanLoop (desc : ProtobufCMessageDescriptor) : Nat → Scan → Outcome Scan
  | 0, st => if st.rem > 0 then .fault else .ok st
  | fuel + 1, st => do if st.rem > 0 then scanLoop desc fuel (← scanStep desc st) else return st

/-! ## Between the passes -/

/-- The loop over the fields: the sizes of the arrays, and the message with its
counts at 0 again. The sizes are `unsigned`. -/
def allocFields (bitmap : List Bool) : Nat → List ProtobufCFieldDescriptor → List Member →
    Outcome (List Nat × List Member)
  | _, [], [] => .ok ([], [])
  | f, field :: fields, .repeated n array :: members => do
    if field.label ≠ .repeated then .fault else
    let (sizes, members) ← allocFields bitmap (f + 1) fields members
    if n ≠ 0 then return ((UInt32.ofNat n).toNat :: sizes, .repeated 0 [] :: members)
    else return (0 :: sizes, .repeated n array :: members)
  | f, field :: fields, .single has v :: members => do
    if field.label = .repeated then .fault
    else if field.label = .required && !(← bitmap[f]?) then .fail
    else
      let (sizes, members) ← allocFields bitmap (f + 1) fields members
      return (0 :: sizes, .single has v :: members)
  | _, _, _ => .fault

/-! ## Merging -/

mutual
/-- What `latter_msg` is afterwards. A member keeps its place in both. -/
def mergeMessages (D : Descriptors) : ProtobufCMessage → ProtobufCMessage → ProtobufCMessage
  | .mk _ earlier _, .mk descriptor latter unknownFields =>
    .mk descriptor (mergeFields D (D descriptor).fields earlier latter) unknownFields

def mergeFields (D : Descriptors) : List ProtobufCFieldDescriptor → List Member → List Member → List Member
  | field :: fields, earlier :: earliers, latter :: latters =>
    mergeMember D field earlier latter :: mergeFields D fields earliers latters
  | _, _, latters => latters

/-- Only scalars have a flag to look at. An array that is not empty keeps its
elements, a block that is not NULL its bytes. -/
def mergeMember (D : Descriptors) (field : ProtobufCFieldDescriptor) : Member → Member → Member
  | .repeated nEarlier earlier, .repeated nLatter latter =>
    if nEarlier > 0 then
      if nLatter > 0 then .repeated (nEarlier + nLatter) (earlier.take nEarlier ++ latter.take nLatter)
      else .repeated nEarlier earlier
    else .repeated nLatter latter
  | .single earlierHas earlier, .single latterHas latter =>
    if field.label = .required then .single latterHas latter else
    match earlier, latter with
    | .message (some em), .message (some lm) => .single latterHas (.message (some (mergeMessages D em lm)))
    | .message (some em), .message none =>
      .single (if field.quantifier then earlierHas else latterHas) (.message (some em))
    | .message none, latter => .single latterHas latter
    | .binary len (b :: data), .binary _ [] =>
      .single (if field.quantifier then earlierHas else latterHas) (.binary len (b :: data))
    | .binary _ _, latter => .single latterHas latter
    | .string (some str), .string none =>
      .single (if field.quantifier then earlierHas else latterHas) (.string (some str))
    | .string _, latter => .single latterHas latter
    | earlier, latter =>
      if earlierHas && !latterHas then .single (if field.quantifier then earlierHas else latterHas) earlier
      else .single latterHas latter
  | _, latter => latter
end

/-! ## Parsing -/

/-- `protobuf_c_message_unpack` of a sub-message. -/
abbrev Unpack := Nat → Nat → List UInt8 → Outcome ProtobufCMessage

/-- `old` is what the member is, where it may have to be cleared. -/
def parseRequiredMember (D : Descriptors) (unpack : Unpack) (field : ProtobufCFieldDescriptor)
    (scannedMember : ScannedMember) (old : Option Value) : Outcome Value := do
  let len := (UInt32.ofNat scannedMember.len).toNat
  let data := scannedMember.data
  let wireType := scannedMember.wireType
  let prefLen := scannedMember.lengthPrefixLen
  match field.type with
  | .enum | .int32 => if wireType ≠ 0 then .fail else return .word32 (← parseInt32 len data)
  | .uint32 => if wireType ≠ 0 then .fail else return .word32 (← parseUint32 len data)
  | .sint32 => if wireType ≠ 0 then .fail else return .word32 (unzigzag32 (← parseUint32 len data)).toUInt32
  | .sfixed32 | .fixed32 | .float => if wireType ≠ 5 then .fail else return .word32 (← parseFixedUint32 data)
  | .int64 | .uint64 => if wireType ≠ 0 then .fail else return .word64 (← parseUint64 len data)
  | .sint64 => if wireType ≠ 0 then .fail else return .word64 (unzigzag64 (← parseUint64 len data)).toUInt64
  | .sfixed64 | .fixed64 | .double => if wireType ≠ 1 then .fail else return .word64 (← parseFixedUint64 data)
  | .bool => return .boolean (← parseBoolean len data)
  | .string => if wireType ≠ 2 then .fail else return .string (some (← copy (len - prefLen) (data.drop prefLen)))
  | .bytes =>
    if wireType ≠ 2 then .fail
    else if len > prefLen then return .binary (len - prefLen) (← copy (len - prefLen) (data.drop prefLen))
    else return .binary (len - prefLen) []
  | .message =>
    if wireType ≠ 2 then .fail
    else if len < prefLen then .fail
    else
      let subm ← unpack field.descriptor (len - prefLen) (data.drop prefLen)
      match old with
      | some (.message (some earlier)) => return .message (some (mergeMessages D earlier subm))
      | _ => return .message (some subm)

def scanVarint (len : Nat) (data : List UInt8) : Option Nat := do
  let len := if len > 10 then 10 else len
  let i ← stopIndex len data
  if i = len then return 0
  return i + 1

/-- What the loops of `parse_packed_repeated_member` store for a number. -/
def parsePackedElement (type : ProtobufCType) (s : Nat) (data : List UInt8) : Option Value :=
  match type with
  | .enum | .int32 => (parseInt32 s data).map .word32
  | .sint32 => (parseUint32 s data).map fun v => .word32 (unzigzag32 v).toUInt32
  | .uint32 => (parseUint32 s data).map .word32
  | .sint64 => (parseUint64 s data).map fun v => .word64 (unzigzag64 v).toUInt64
  | .int64 | .uint64 => (parseUint64 s data).map .word64
  | .bool => (parseBoolean s data).map .boolean
  | _ => none

/-- `while (rem > 0)`, in an array of `size` cells. -/
def parsePackedLoop (type : ProtobufCType) (size : Nat) : Nat → Nat → List UInt8 → List Value → Outcome (List Value)
  | 0, rem, _, array => if rem > 0 then .fault else .ok array
  | fuel + 1, rem, ptr, array => do
    if rem > 0 then
      let s ← scanVarint (UInt32.ofNat rem).toNat ptr
      if s = 0 then .fail else
      let v ← parsePackedElement type s ptr
      if array.length < size then parsePackedLoop type size fuel (rem - s) (ptr.drop s) (array ++ [v]) else .fault
    else return array

/-- `memcpy` of `count` elements; the machine is little-endian. -/
def copyElements (type : ProtobufCType) : Nat → List UInt8 → Option (List Value)
  | 0, _ => some []
  | count + 1, data => do
    if type.ctype = .word32 then return .word32 (← parseFixedUint32 data) :: (← copyElements type count (data.drop 4))
    else return .word64 (← parseFixedUint64 data) :: (← copyElements type count (data.drop 8))

/-- `array` are the cells that have been stored, so its length is `*p_n`. -/
def parsePackedRepeatedMember (field : ProtobufCFieldDescriptor) (size : Nat) (scannedMember : ScannedMember)
    (array : List Value) : Outcome (List Value) := do
  let ptr := scannedMember.data.drop scannedMember.lengthPrefixLen
  let rem := scannedMember.len - scannedMember.lengthPrefixLen
  let copied := fun count => do
    if array.length + count ≤ size then return array ++ (← copyElements field.type count ptr) else Outcome.fault
  match field.type with
  | .sfixed32 | .fixed32 | .float => copied (rem / 4)
  | .sfixed64 | .fixed64 | .double => copied (rem / 8)
  | .string | .bytes | .message => return array
  | type => parsePackedLoop type size rem rem ptr array

structure Parsing where
  members : List Member
  unknownFields : List ProtobufCMessageUnknownField

/-- `sizes` and `nUnknown` are the sizes of the arrays. -/
def parseMember (D : Descriptors) (unpack : Unpack) (desc : ProtobufCMessageDescriptor) (sizes : List Nat)
    (nUnknown : Nat) (st : Parsing) (scannedMember : ScannedMember) : Outcome Parsing := do
  match scannedMember.field with
  | none =>
    if st.unknownFields.length < nUnknown then
      let data ← copy scannedMember.len scannedMember.data
      return { st with unknownFields := st.unknownFields ++ [⟨scannedMember.tag, scannedMember.wireType, data⟩] }
    else .fault
  | some i =>
    let field ← desc.fields[i]?
    match field.label, ← st.members[i]? with
    | .required, .single has v =>
      let v ← parseRequiredMember D unpack field scannedMember (some v)
      return { st with members := st.members.set i (.single has v) }
    | .repeated, .repeated n array =>
      let size ← sizes[i]?
      if isPackedMember field scannedMember.wireType then
        let array ← parsePackedRepeatedMember field size scannedMember array
        return { st with members := st.members.set i (.repeated array.length array) }
      else if n < size then
        let v ← parseRequiredMember D unpack field scannedMember none
        return { st with members := st.members.set i (.repeated (n + 1) (array ++ [v])) }
      else .fault
    | .repeated, .single _ _ => .fault
    | _, .single has v =>
      let v ← parseRequiredMember D unpack field scannedMember (some v)
      return { st with members := st.members.set i (.single (has || field.quantifier) v) }
    | _, .repeated _ _ => .fault

def parseMembers (D : Descriptors) (unpack : Unpack) (desc : ProtobufCMessageDescriptor) (sizes : List Nat)
    (nUnknown : Nat) : List ScannedMember → Parsing → Outcome Parsing
  | [], st => .ok st
  | scannedMember :: slab, st => do
    parseMembers D unpack desc sizes nUnknown slab (← parseMember D unpack desc sizes nUnknown st scannedMember)

/-- `fuel` bounds how deep sub-messages are nested. -/
def messageUnpack (D : Descriptors) : Nat → Unpack
  | 0, _, _, _ => .fault
  | fuel + 1, descriptor, len, data => do
    let desc := D descriptor
    let bitmap := List.replicate ((desc.fields.length + 7) / 8 * 8) false
    let st ← scanLoop desc len ⟨len, data, 0, ⟨[], []⟩, 0, bitmap, desc.init⟩
    let (sizes, members) ← allocFields st.bitmap 0 desc.fields st.members
    let parsed ← parseMembers D (messageUnpack D fuel) desc sizes st.nUnknown st.slabs.members ⟨members, []⟩
    return .mk descriptor parsed.members parsed.unknownFields

end KSock.Protobuf
