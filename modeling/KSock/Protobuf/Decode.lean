import KSock.Protobuf.Scanning
/-!
# Unpacking in one pass

A decoder as one would write it down: read the records, and apply them one after
another to the initial message. It keeps no counts and allocates nothing, and
finds a field by its number.
-/
open KSockLib KSockLib.Varint KSockLib.Wire KSockLib.Endian

namespace KSock.Protobuf

/-- What a body stands for in a field that is not a message. -/
def decodeScalar (type : ProtobufCType) (body : List UInt8) : Value :=
  match type with
  | .int32 | .enum | .uint32 => .word32 (UInt32.ofNat (value body))
  | .sint32 => .word32 (unzigzag32 (UInt32.ofNat (value body))).toUInt32
  | .sfixed32 | .fixed32 | .float => .word32 (loadU32 (body.take 4))
  | .int64 | .uint64 => .word64 (UInt64.ofNat (value body))
  | .sint64 => .word64 (unzigzag64 (UInt64.ofNat (value body))).toUInt64
  | .sfixed64 | .fixed64 | .double => .word64 (UInt64.ofNat (ofLE (body.take 8)))
  | .bool => .boolean (value body ≠ 0)
  | .string => .string (some (payload body))
  | .bytes => .binary (payload body).length (payload body)
  | .message => .message none

/-- A boolean is read from any body. -/
def acceptsWireType (type : ProtobufCType) (wireType : Nat) : Bool := type = .bool || wireType = type.wireType

def decodeValue (D : Descriptors) (sub : Nat → List UInt8 → Option ProtobufCMessage) (field : ProtobufCFieldDescriptor)
    (old : Option Value) (r : Record) : Option Value := do
  if !acceptsWireType field.type r.wireType then none
  if field.type ≠ .message then return decodeScalar field.type r.body
  let subm ← sub field.descriptor (payload r.body)
  match old with
  | some (.message (some earlier)) => return .message (some (mergeMessages D earlier subm))
  | _ => return .message (some subm)

/-- The elements in a payload. -/
def decodePacked (type : ProtobufCType) (bs : List UInt8) : Option (List Value) :=
  match type.wireType with
  | 0 => (numbers 10 bs).map fun ds => ds.map (decodeScalar type)
  | 1 => if bs.length % 8 = 0 then some ((pieces 8 (bs.length / 8) bs).map (decodeScalar type)) else none
  | 5 => if bs.length % 4 = 0 then some ((pieces 4 (bs.length / 4) bs).map (decodeScalar type)) else none
  | _ => none

def decodeMember (D : Descriptors) (sub : Nat → List UInt8 → Option ProtobufCMessage) (field : ProtobufCFieldDescriptor)
    (r : Record) : Member → Option Member
  | .single has v => do
    return .single (has || field.label ≠ .required && field.quantifier) (← decodeValue D sub field (some v) r)
  | .repeated n array => do
    if isPackedMember field (UInt8.ofNat r.wireType) then
      let elements ← decodePacked field.type (payload r.body)
      return .repeated (n + elements.length) (array ++ elements)
    else return .repeated (n + 1) (array ++ [← decodeValue D sub field none r])

/-- The field a record is of. -/
def recordIndex (fields : List ProtobufCFieldDescriptor) (r : Record) : Option Nat :=
  fieldIndex fields (UInt32.ofNat r.tag)

def applyRecord (D : Descriptors) (sub : Nat → List UInt8 → Option ProtobufCMessage)
    (fields : List ProtobufCFieldDescriptor) (st : Parsing) (r : Record) : Option Parsing :=
  match recordIndex fields r with
  | none =>
    some { st with unknownFields := st.unknownFields ++ [⟨UInt32.ofNat r.tag, UInt8.ofNat r.wireType, r.body⟩] }
  | some i => do
    let member ← decodeMember D sub (← fields[i]?) r (← st.members[i]?)
    return { st with members := st.members.set i member }

/-- What the slabs have room for. -/
def maxMembers : Nat := 16 * (2 ^ 23 - 1)

/-- No required field is missing. -/
def HasRequired (fields : List ProtobufCFieldDescriptor) (rs : List Record) : Prop :=
  ∀ i < fields.length, fields[i]?.map (·.label) = some .required → ∃ r ∈ rs, recordIndex fields r = some i

instance (fields : List ProtobufCFieldDescriptor) (rs : List Record) : Decidable (HasRequired fields rs) :=
  inferInstanceAs (Decidable (∀ i < fields.length,
    fields[i]?.map (·.label) = some .required → ∃ r ∈ rs, recordIndex fields r = some i))

def decode (D : Descriptors) : Nat → Nat → List UInt8 → Option ProtobufCMessage
  | 0, _, _ => none
  | fuel + 1, descriptor, bs => do
    let desc := D descriptor
    let rs ← parse bs
    if ¬(rs.length ≤ maxMembers ∧ HasRequired desc.fields rs) then none
    let st ← rs.foldlM (applyRecord D (decode D fuel) desc.fields) ⟨desc.init, []⟩
    return .mk descriptor st.members st.unknownFields

end KSock.Protobuf
