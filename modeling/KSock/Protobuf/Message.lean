import KSock.Protobuf.Scalars
/-!
# Descriptors and messages

A message is a C structure that its descriptor describes: one member for each
field, with a quantifier beside it for some. Descriptors are static data and
are referred to by pointer, so a type may contain itself; `Descriptors` is what
the pointers point to.

A member is given by its cells. What a cell holds depends on the field's type
only through its C type, so an `int32_t` and a `float` are both 32 bits here.

The descriptors here are those without fields of a oneof and without default
values, as all of this repository are: a field descriptor has no `default_value`,
and `PROTOBUF_C_FIELD_FLAG_ONEOF` is never set. What the functions do for either
is left out.
-/

namespace KSock.Protobuf

inductive ProtobufCType where
  | int32 | sint32 | sfixed32 | int64 | sint64 | sfixed64 | uint32 | fixed32 | uint64 | fixed64 | float | double
  | bool | enum | string | bytes | message
  deriving DecidableEq, Repr

inductive ProtobufCLabel where
  | required | optional | repeated | none
  deriving DecidableEq, Repr

/-- `quantifier` is false where `quantifier_offset` is 0, and `packed` is the
flag. `descriptor` points to the type of a sub-message. -/
structure ProtobufCFieldDescriptor where
  id : UInt32
  label : ProtobufCLabel
  type : ProtobufCType
  quantifier : Bool
  descriptor : Nat
  packed : Bool
  deriving DecidableEq, Repr

structure ProtobufCIntRange where
  startValue : Int
  origIndex : Nat
  deriving DecidableEq, Repr

/-- The tag and wire type of a field the descriptor does not know, and its bytes. -/
structure ProtobufCMessageUnknownField where
  tag : UInt32
  wireType : UInt8
  data : List UInt8
  deriving DecidableEq, Repr

mutual
/-- A cell. A string is NULL or the bytes of a block before its last; a
`ProtobufCBinaryData` is a length and a block, which is empty if NULL. -/
inductive Value where
  | word32 (v : UInt32)
  | word64 (v : UInt64)
  | boolean (b : Bool)
  | string (str : Option (List UInt8))
  | binary (len : Nat) (data : List UInt8)
  | message (msg : Option ProtobufCMessage)

/-- A cell with its `has_` flag, or an array with its count; it is empty if NULL. -/
inductive Member where
  | single (has : Bool) (v : Value)
  | repeated (n : Nat) (array : List Value)

/-- The descriptor, the members in its order, and the unknown fields. -/
inductive ProtobufCMessage where
  | mk (descriptor : Nat) (members : List Member) (unknownFields : List ProtobufCMessageUnknownField)
end

def ProtobufCMessage.descriptor : ProtobufCMessage → Nat
  | .mk descriptor _ _ => descriptor

/-- `init` is what `message_init` copies. -/
structure ProtobufCMessageDescriptor where
  fields : List ProtobufCFieldDescriptor
  nFieldRanges : Nat
  fieldRanges : List ProtobufCIntRange
  init : List Member

abbrev Descriptors := Nat → ProtobufCMessageDescriptor

/-- The C type of a cell. -/
inductive CType where
  | word32 | word64 | boolean | string | binary | message
  deriving DecidableEq, Repr

def ProtobufCType.ctype : ProtobufCType → CType
  | int32 | sint32 | sfixed32 | uint32 | fixed32 | float | enum => .word32
  | int64 | sint64 | sfixed64 | uint64 | fixed64 | double => .word64
  | bool => .boolean
  | string => .string
  | bytes => .binary
  | message => .message

def isPackableType (type : ProtobufCType) : Bool := type ≠ .string && type ≠ .bytes && type ≠ .message

/-- What the cases of a type put into the tag. -/
def ProtobufCType.wireType : ProtobufCType → Nat
  | sfixed32 | fixed32 | float => 5
  | sfixed64 | fixed64 | double => 1
  | string | bytes | message => 2
  | _ => 0

def Value.ctype : Value → CType
  | word32 _ => .word32
  | word64 _ => .word64
  | boolean _ => .boolean
  | string _ => .string
  | binary _ _ => .binary
  | message _ => .message

/-! ## What is packed of a member -/

/-- `strlen` stops at the first NUL. -/
def cstring (str : List UInt8) : List UInt8 := str.takeWhile (· ≠ 0)

/-- The test of a pointer cell. -/
def Value.isNull : Value → Bool
  | string str => str.isNone
  | message msg => msg.isNone
  | _ => false

/-- The first word of a `ProtobufCBinaryData` is its length. A negative zero equals 0. -/
def fieldIsZeroish (field : ProtobufCFieldDescriptor) : Value → Bool
  | .word32 v => v = 0 || (field.type = .float && v = 0x80000000)
  | .word64 v => v = 0 || (field.type = .double && v = 0x8000000000000000)
  | .boolean b => !b
  | .string none => true
  | .string (some str) => cstring str = []
  | .binary len _ => len = 0
  | .message msg => msg.isNone

/-- Whether the `optional_field_` and `unlabeled_field_` functions return 0
before they come to their `required_field_` counterparts. -/
def omitted (field : ProtobufCFieldDescriptor) (has : Bool) (member : Value) : Bool :=
  match field.label with
  | .required => false
  | .optional => if field.type = .message ∨ field.type = .string then member.isNull else !has
  | .none => fieldIsZeroish field member
  | .repeated => false

end KSock.Protobuf
