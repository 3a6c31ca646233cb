import KSock.Batches
import KSock.SendAll
import KSock.Protobuf.RoundTrip
/-!
# The serializers and deserializers of `common.hpp`

A serializer is a structure of `example.pb-c.h` that `AddPdu` has packed behind
the header; a deserializer is the structure that a payload was unpacked into.
A structure's `base` is left out: a serializer's is what the `INIT` macro sets it
to, and nothing here reads a deserializer's.
-/
open KSockLib KSockLib.Memory KSockLib.Varint KSockLib.Wire

namespace KSock.Protobuf

/-! ## The structures -/

/-- The defaults are those of `SOMETHING_WITH_UINTS__INIT`. -/
structure SomethingWithUINTs where
  hasId : Bool := false
  id : UInt32 := 0
  hasIpAddress : Bool := false
  ipAddress : UInt32 := 0
  hasPortNum : Bool := false
  portNum : UInt32 := 0
  deriving DecidableEq, Repr

/-- `uints` is NULL or points to a structure. -/
structure SomethingMore where
  hasErrorCode : Bool := false
  errorCode : UInt32 := 200
  uints : Option SomethingWithUINTs := none
  deriving DecidableEq, Repr

/-- `n_uints` is the length of `uints`, and so for the blocks. -/
structure EvenMore where
  enumValue : UInt32 := 254
  uints : List SomethingWithUINTs := []
  name : List UInt8 := []
  value : List UInt8 := []
  s : Option (List UInt8) := none
  deriving DecidableEq, Repr

def SomethingWithUINTs.message (swu : SomethingWithUINTs) : ProtobufCMessage :=
  .mk 0 [.single swu.hasId (.word32 swu.id), .single swu.hasIpAddress (.word32 swu.ipAddress),
    .single swu.hasPortNum (.word32 swu.portNum)] []

def SomethingMore.message (sm : SomethingMore) : ProtobufCMessage :=
  .mk 1 [.single sm.hasErrorCode (.word32 sm.errorCode), .single false (.message (sm.uints.map (·.message)))] []

def EvenMore.message (em : EvenMore) : ProtobufCMessage :=
  .mk 2 [.single false (.word32 em.enumValue),
    .repeated em.uints.length (em.uints.map fun swu => .message (some swu.message)),
    .single false (.binary em.name.length em.name), .single false (.binary em.value.length em.value),
    .single false (.string em.s)] []

/-- The cast of what was unpacked; the flags of fields that have none are not
there to be read. -/
def SomethingWithUINTs.ofMessage : ProtobufCMessage → Option SomethingWithUINTs
  | .mk _ [.single hasId (.word32 id), .single hasIpAddress (.word32 ipAddress),
      .single hasPortNum (.word32 portNum)] _ => some ⟨hasId, id, hasIpAddress, ipAddress, hasPortNum, portNum⟩
  | _ => none

def SomethingMore.ofMessage : ProtobufCMessage → Option SomethingMore
  | .mk _ [.single hasErrorCode (.word32 errorCode), .single _ (.message none)] _ =>
    some ⟨hasErrorCode, errorCode, none⟩
  | .mk _ [.single hasErrorCode (.word32 errorCode), .single _ (.message (some uints))] _ => do
    return ⟨hasErrorCode, errorCode, some (← SomethingWithUINTs.ofMessage uints)⟩
  | _ => none

def uintsOfValue : Value → Option SomethingWithUINTs
  | .message (some msg) => SomethingWithUINTs.ofMessage msg
  | _ => none

def EvenMore.ofMessage : ProtobufCMessage → Option EvenMore
  | .mk _ [.single _ (.word32 enumValue), .repeated _ uints, .single _ (.binary _ name), .single _ (.binary _ value),
      .single _ (.string s)] _ => do
    return ⟨enumValue, ← uints.mapM uintsOfValue, name, value, s⟩
  | _ => none

/-! ## Deserializers -/

/-- `Deserialize`, for the type at `descriptor`. -/
def deserialize {α : Type} (descriptor : Nat) (ofMessage : ProtobufCMessage → Option α) (pduLen : Nat)
    (buf : List UInt8) : Outcome α := do
  let msg ← messageUnpack exampleDescriptors (pduLen + 1) descriptor pduLen buf
  ofMessage msg

def SomethingWithUINTs.deserialize : Nat → List UInt8 → Outcome SomethingWithUINTs :=
  Protobuf.deserialize 0 ofMessage

def SomethingMore.deserialize : Nat → List UInt8 → Outcome SomethingMore :=
  Protobuf.deserialize 1 ofMessage

def EvenMore.deserialize : Nat → List UInt8 → Outcome EvenMore :=
  Protobuf.deserialize 2 ofMessage

/-! ## Serializers -/

/-- What `AddPdu` gets from a serializer of this type and message: `Serialize`
packs at `GetEnd()`, where `memory` starts. -/
def protobufSerializer (pduType : UInt16) (msg : ProtobufCMessage) (memory : Mem) : Option BaseSerializer := do
  let size ← messageGetPackedSize exampleDescriptors msg
  let (rv, memory) ← messagePack exampleDescriptors msg 0 memory
  return ⟨pduType, UInt64.ofNat size, read memory 0 rv, UInt64.ofNat rv⟩

structure SomethingWithUINTsSerializer where
  swu : SomethingWithUINTs := {}

namespace SomethingWithUINTsSerializer

def setId (sws : SomethingWithUINTsSerializer) (id : UInt32) : SomethingWithUINTsSerializer :=
  { swu := { sws.swu with hasId := true, id := id } }

def setIpAddress (sws : SomethingWithUINTsSerializer) (ipAddress : UInt32) : SomethingWithUINTsSerializer :=
  { swu := { sws.swu with hasIpAddress := true, ipAddress := ipAddress } }

def setPortNum (sws : SomethingWithUINTsSerializer) (portNum : UInt32) : SomethingWithUINTsSerializer :=
  { swu := { sws.swu with hasPortNum := true, portNum := portNum } }

def getPduType (_ : SomethingWithUINTsSerializer) : UInt16 := 1

def message (sws : SomethingWithUINTsSerializer) : ProtobufCMessage := sws.swu.message

end SomethingWithUINTsSerializer

/-- A serializer of the other class with a message of its own. -/
structure SomethingMoreSerializer extends SomethingWithUINTsSerializer where
  sm : SomethingMore := {}

namespace SomethingMoreSerializer

def setId (sms : SomethingMoreSerializer) (id : UInt32) : SomethingMoreSerializer :=
  { sms with toSomethingWithUINTsSerializer := sms.toSomethingWithUINTsSerializer.setId id }

def setIpAddress (sms : SomethingMoreSerializer) (ipAddress : UInt32) : SomethingMoreSerializer :=
  { sms with toSomethingWithUINTsSerializer := sms.toSomethingWithUINTsSerializer.setIpAddress ipAddress }

def setPortNum (sms : SomethingMoreSerializer) (portNum : UInt32) : SomethingMoreSerializer :=
  { sms with toSomethingWithUINTsSerializer := sms.toSomethingWithUINTsSerializer.setPortNum portNum }

def setErrorCode (sms : SomethingMoreSerializer) (errorCode : UInt32) : SomethingMoreSerializer :=
  { sms with sm := { sms.sm with hasErrorCode := true, errorCode := errorCode } }

def getPduType (_ : SomethingMoreSerializer) : UInt16 := 2

/-- The constructor has pointed `sm.uints` to `swu`. -/
def message (sms : SomethingMoreSerializer) : ProtobufCMessage :=
  SomethingMore.message { sms.sm with uints := some sms.swu }

end SomethingMoreSerializer

/-- `uints` holds pointers; what they point to is not changed after `AddUints`. -/
structure EvenMoreSerializer where
  em : EvenMore := {}
  uints : List SomethingWithUINTsSerializer := []
  s : Option (List UInt8) := none

namespace EvenMoreSerializer

/-- The constructor with arguments. It copies the pointers of `name` and `value`,
and the arguments free their blocks when it returns: what is packed later is
whatever lies there then. -/
def new (enumValue : UInt32) (name value : List UInt8) : EvenMoreSerializer :=
  { em := { enumValue := enumValue, name := name, value := value } }

def addUints (ems : EvenMoreSerializer) (uints : SomethingWithUINTsSerializer) : EvenMoreSerializer :=
  { ems with uints := ems.uints ++ [uints] }

def setS (ems : EvenMoreSerializer) (s : List UInt8) : EvenMoreSerializer := { ems with s := some s }

def getPduType (_ : EvenMoreSerializer) : UInt16 := 3

/-- What the first lines of `GetSerializedSize` and `Serialize` put into `em`. -/
def message (ems : EvenMoreSerializer) : ProtobufCMessage :=
  EvenMore.message { ems.em with s := ems.s, uints := ems.uints.map fun sws => sws.swu }

end EvenMoreSerializer

/-! ## What a structure is packed to -/

@[simp] theorem SomethingWithUINTs.descriptor_message (swu : SomethingWithUINTs) : swu.message.descriptor = 0 := rfl

theorem SomethingWithUINTs.sound (swu : SomethingWithUINTs) : MessageSound exampleDescriptors swu.message := by
  simp [message, MessageSound, FieldsSound, FieldSound, ValueSound, exampleDescriptors, somethingWithUintsDescriptor,
    Value.ctype, ProtobufCType.ctype, Value.isNull]

theorem SomethingWithUINTs.foreign (swu : SomethingWithUINTs) : MessageForeign exampleDescriptors swu.message := by
  simp [message, MessageForeign, MembersForeign, MemberForeign, ValueForeign]

theorem SomethingMore.sound (sm : SomethingMore) : MessageSound exampleDescriptors sm.message := by
  rcases sm with ⟨hasErrorCode, errorCode, _ | swu⟩ <;>
    simp [message, MessageSound, FieldsSound, FieldSound, ValueSound, exampleDescriptors, somethingMoreDescriptor,
      Value.ctype, ProtobufCType.ctype, Value.isNull]
  exact swu.sound

theorem SomethingMore.foreign (sm : SomethingMore) : MessageForeign exampleDescriptors sm.message := by
  rcases sm with ⟨hasErrorCode, errorCode, _ | swu⟩ <;>
    simp [message, MessageForeign, MembersForeign, MemberForeign, ValueForeign]
  exact swu.foreign

theorem EvenMore.sound (em : EvenMore) : MessageSound exampleDescriptors em.message := by
  have harray : ∀ field : ProtobufCFieldDescriptor, field.type = .message → field.descriptor = 0 →
      ArraySound exampleDescriptors field (em.uints.map fun swu => .message (some swu.message)) := by
    intro field htype hdescriptor
    rw [arraySound_iff_forall, List.forall_mem_map]
    exact fun swu _ => ⟨rfl, htype, hdescriptor.symm, swu.sound⟩
  simp [message, MessageSound, FieldsSound, FieldSound, ValueSound, exampleDescriptors, evenMoreDescriptor,
    Value.ctype, ProtobufCType.ctype, Value.isNull]
  exact harray _ rfl rfl

theorem EvenMore.foreign (em : EvenMore) : MessageForeign exampleDescriptors em.message := by
  have harray : ∀ uints : List SomethingWithUINTs,
      ArrayForeign exampleDescriptors (uints.map fun swu => .message (some swu.message)) := by
    intro uints
    induction uints with
    | nil => trivial
    | cons swu uints ih => exact ⟨swu.foreign, ih⟩
  simp [message, MessageForeign, MembersForeign, MemberForeign, ValueForeign, harray]

/-- The serializer of such a message writes its bytes, and announces and returns
their number. -/
theorem protobufSerializer_eq {msg : ProtobufCMessage} (h : MessageSound exampleDescriptors msg)
    (hlen : (messageBytes exampleDescriptors msg).length < 2 ^ 32) (pduType : UInt16) (memory : Mem) :
    protobufSerializer pduType msg memory = some (serializer pduType (messageBytes exampleDescriptors msg)) := by
  have hfits := (messageSound_iff.1 h).1
  simp only [protobufSerializer, messageGetPackedSize_eq hfits, messagePack_eq hfits hlen, Option.bind_eq_bind,
    Option.bind_some, read_write_same]
  rfl

theorem serializer_exact (pduType : UInt16) {payload : List UInt8} (h : payload.length < 2 ^ 32) :
    SendAll.Exact (serializer pduType payload) := by
  have hlen : (UInt64.ofNat payload.length).toNat = payload.length := by
    rw [UInt64.toNat_ofNat']
    exact Nat.mod_eq_of_lt (by omega)
  exact ⟨hlen.symm, rfl, hlen.trans_lt h⟩

/-! ## What a payload is unpacked to -/

/-- What a payload stands for. -/
def decoded {α : Type} (descriptor : Nat) (ofMessage : ProtobufCMessage → Option α) (payload : List UInt8) : Option α :=
  (decode exampleDescriptors (payload.length + 1) descriptor payload).bind ofMessage

theorem deserialize_eq {α : Type} (descriptor : Nat) {ofMessage : ProtobufCMessage → Option α}
    (hcast : ∀ msg, msg.descriptor = descriptor → MessageSound exampleDescriptors msg → (ofMessage msg).isSome)
    {payload : List UInt8} (rest : List UInt8) (hlen : payload.length < 2 ^ 32) :
    deserialize descriptor ofMessage payload.length (payload ++ rest) =
      Outcome.total (decoded descriptor ofMessage payload) := by
  rw [deserialize, messageUnpack_eq exampleDescriptors_wellFormed descriptor rest (Nat.lt_succ_self _) hlen, decoded]
  cases hdecode : decode exampleDescriptors (payload.length + 1) descriptor payload with
  | none => rfl
  | some msg =>
    obtain ⟨hdescriptor, hsound⟩ := decode_sound exampleDescriptors_wellFormed hdecode
    obtain ⟨a, ha⟩ := Option.isSome_iff_exists.1 (hcast msg hdescriptor hsound)
    simp [Outcome.total, ha]

theorem ValueSound.ctype_eq {field : ProtobufCFieldDescriptor} {v : Value}
    (h : ValueSound exampleDescriptors field v) : v.ctype = field.type.ctype := by
  cases v with
  | message msg =>
    have hmessage : field.type = .message := by
      cases msg with
      | none => exact h
      | some msg => exact h.1
    rw [hmessage]
    rfl
  | binary len data =>
    rw [h.1]
    rfl
  | _ => exact h

theorem FieldSound.single {field : ProtobufCFieldDescriptor} {member : Member}
    (h : FieldSound exampleDescriptors field member) (hlabel : field.label ≠ .repeated) :
    ∃ has v, member = .single has v ∧ v.ctype = field.type.ctype ∧ ValueSound exampleDescriptors field v := by
  cases member with
  | single has v => exact ⟨has, v, rfl, h.2.1.ctype_eq, h.2.1⟩
  | «repeated» n array => exact absurd h.1 hlabel

theorem FieldSound.word32 {field : ProtobufCFieldDescriptor} {member : Member}
    (h : FieldSound exampleDescriptors field member) (hlabel : field.label ≠ .repeated)
    (htype : field.type.ctype = .word32) : ∃ has w, member = .single has (.word32 w) := by
  obtain ⟨has, v, rfl, hctype, -⟩ := h.single hlabel
  rw [htype] at hctype
  cases v with
  | word32 w => exact ⟨has, w, rfl⟩
  | _ => cases hctype

theorem SomethingWithUINTs.isSome_ofMessage (msg : ProtobufCMessage) (hdescriptor : msg.descriptor = 0)
    (h : MessageSound exampleDescriptors msg) : (ofMessage msg).isSome := by
  rcases msg with ⟨descriptor, members, unknownFields⟩
  obtain rfl : descriptor = 0 := hdescriptor
  have hfields := fieldsSound_iff_forall.1 h.1
  simp only [exampleDescriptors, somethingWithUintsDescriptor, List.forall₂_cons_left_iff,
    List.forall₂_nil_left_iff] at hfields
  obtain ⟨_, _, hid, ⟨_, _, haddress, ⟨_, _, hport, rfl, rfl⟩, rfl⟩, rfl⟩ := hfields
  obtain ⟨hasId, id, rfl⟩ := hid.word32 (by decide) rfl
  obtain ⟨hasIpAddress, ipAddress, rfl⟩ := haddress.word32 (by decide) rfl
  obtain ⟨hasPortNum, portNum, rfl⟩ := hport.word32 (by decide) rfl
  rfl

theorem SomethingMore.isSome_ofMessage (msg : ProtobufCMessage) (hdescriptor : msg.descriptor = 1)
    (h : MessageSound exampleDescriptors msg) : (ofMessage msg).isSome := by
  rcases msg with ⟨descriptor, members, unknownFields⟩
  obtain rfl : descriptor = 1 := hdescriptor
  have hfields := fieldsSound_iff_forall.1 h.1
  simp only [exampleDescriptors, somethingMoreDescriptor, List.forall₂_cons_left_iff,
    List.forall₂_nil_left_iff] at hfields
  obtain ⟨_, _, hcode, ⟨_, _, huints, rfl, rfl⟩, rfl⟩ := hfields
  obtain ⟨hasErrorCode, errorCode, rfl⟩ := hcode.word32 (by decide) rfl
  obtain ⟨has, v, rfl, hctype, hv⟩ := huints.single (by decide)
  rcases v with _ | _ | _ | _ | _ | (_ | swu) <;> try cases hctype
  · rfl
  · obtain ⟨-, hdescriptor, hsound⟩ := hv
    obtain ⟨a, ha⟩ := Option.isSome_iff_exists.1 (SomethingWithUINTs.isSome_ofMessage swu hdescriptor hsound)
    simp [ofMessage, ha]

theorem isSome_uintsOfValue {field : ProtobufCFieldDescriptor} {array : List Value}
    (h : ArraySound exampleDescriptors field array) (htype : field.type = .message) (hdescriptor : field.descriptor = 0) :
    (array.mapM uintsOfValue).isSome := by
  induction array with
  | nil => rfl
  | cons v array ih =>
    obtain ⟨⟨hnull, hv⟩, hrest⟩ := h
    obtain ⟨uints, huints⟩ := Option.isSome_iff_exists.1 (ih hrest)
    have hctype := hv.ctype_eq
    rw [htype] at hctype
    rcases v with _ | _ | _ | _ | _ | (_ | swu) <;> try cases hctype
    · cases hnull
    · obtain ⟨a, ha⟩ := Option.isSome_iff_exists.1
        (SomethingWithUINTs.isSome_ofMessage swu (hv.2.1.trans hdescriptor) hv.2.2)
      simp [uintsOfValue, ha, huints]

theorem EvenMore.isSome_ofMessage (msg : ProtobufCMessage) (hdescriptor : msg.descriptor = 2)
    (h : MessageSound exampleDescriptors msg) : (ofMessage msg).isSome := by
  rcases msg with ⟨descriptor, members, unknownFields⟩
  obtain rfl : descriptor = 2 := hdescriptor
  have hfields := fieldsSound_iff_forall.1 h.1
  simp only [exampleDescriptors, evenMoreDescriptor, List.forall₂_cons_left_iff,
    List.forall₂_nil_left_iff] at hfields
  obtain ⟨_, _, hvalue, ⟨_, _, huints, ⟨_, _, hname, ⟨_, _, hblock, ⟨_, _, hs, rfl, rfl⟩, rfl⟩, rfl⟩, rfl⟩, rfl⟩ := hfields
  obtain ⟨hasValue, enumValue, rfl⟩ := hvalue.word32 (by decide) rfl
  obtain ⟨hasName, name, rfl, hnamed, -⟩ := hname.single (by decide)
  obtain ⟨hasBlock, block, rfl, hblocked, -⟩ := hblock.single (by decide)
  obtain ⟨hasS, s, rfl, hstring, -⟩ := hs.single (by decide)
  cases name <;> try cases hnamed
  cases block <;> try cases hblocked
  cases s <;> try cases hstring
  rename_i members _ _ _ _ _
  cases members with
  | single has v => exact absurd rfl huints.1
  | «repeated» n array =>
    obtain ⟨uints, hmap⟩ := Option.isSome_iff_exists.1 (isSome_uintsOfValue huints.2.2.1 rfl rfl)
    simp [ofMessage, hmap]

/-! ## There and back -/

/-- A field that is not set comes back as its default, and a string ends at its
first NUL. -/
def SomethingWithUINTs.read (swu : SomethingWithUINTs) : SomethingWithUINTs :=
  ⟨swu.hasId, if swu.hasId then swu.id else 0, swu.hasIpAddress, if swu.hasIpAddress then swu.ipAddress else 0,
    swu.hasPortNum, if swu.hasPortNum then swu.portNum else 0⟩

def SomethingMore.read (sm : SomethingMore) : SomethingMore :=
  ⟨sm.hasErrorCode, if sm.hasErrorCode then sm.errorCode else 200, sm.uints.map (·.read)⟩

def EvenMore.read (em : EvenMore) : EvenMore :=
  { em with uints := em.uints.map (·.read), s := em.s.map cstring }

theorem SomethingWithUINTs.readMessage_message (swu : SomethingWithUINTs) :
    readMessage exampleDescriptors swu.message = swu.read.message := by
  rcases swu with ⟨hasId, id, hasIpAddress, ipAddress, hasPortNum, portNum⟩
  cases hasId <;> cases hasIpAddress <;> cases hasPortNum <;> rfl

@[simp] theorem SomethingWithUINTs.ofMessage_message (swu : SomethingWithUINTs) : ofMessage swu.message = some swu := rfl

theorem SomethingMore.readMessage_message (sm : SomethingMore) :
    readMessage exampleDescriptors sm.message = sm.read.message := by
  rcases sm with ⟨hasErrorCode, errorCode, _ | swu⟩
  · cases hasErrorCode <;> rfl
  · have hmessage : readMessage exampleDescriptors (message ⟨hasErrorCode, errorCode, some swu⟩) =
        .mk 1 [.single hasErrorCode (.word32 (if hasErrorCode then errorCode else 200)),
          .single false (.message (some (readMessage exampleDescriptors swu.message)))] [] := by
      cases hasErrorCode <;> rfl
    rw [hmessage, swu.readMessage_message]
    rfl

theorem readArray_uints (uints : List SomethingWithUINTs) :
    readArray exampleDescriptors (uints.map fun swu => .message (some swu.message)) =
      (uints.map (·.read)).map fun swu => .message (some swu.message) := by
  induction uints with
  | nil => rfl
  | cons swu uints ih =>
    simp only [List.map_cons, readArray, readValue, SomethingWithUINTs.readMessage_message, ih]

theorem EvenMore.readMessage_message (em : EvenMore) :
    readMessage exampleDescriptors em.message = em.read.message := by
  rcases em with ⟨enumValue, uints, name, value, s⟩
  have hmessage : readMessage exampleDescriptors (message ⟨enumValue, uints, name, value, s⟩) =
      .mk 2 [.single false (.word32 enumValue),
        .repeated uints.length (readArray exampleDescriptors (uints.map fun swu => .message (some swu.message))),
        .single false (.binary name.length name), .single false (.binary value.length value),
        .single false (.string (s.map cstring))] [] := by
    cases s <;> rfl
  rw [hmessage, readArray_uints]
  simp [message, read]

@[simp] theorem SomethingMore.ofMessage_message (sm : SomethingMore) : ofMessage sm.message = some sm := by
  rcases sm with ⟨hasErrorCode, errorCode, _ | swu⟩ <;> simp [message, ofMessage]

theorem mapM_uintsOfValue (uints : List SomethingWithUINTs) :
    (uints.map fun swu => Value.message (some swu.message)).mapM uintsOfValue = some uints := by
  induction uints with
  | nil => rfl
  | cons swu uints ih => simp [uintsOfValue, ih]

@[simp] theorem EvenMore.ofMessage_message (em : EvenMore) : ofMessage em.message = some em := by
  rw [message, ofMessage, mapM_uintsOfValue]
  rfl

/-- What one serializer has packed, the deserializer of its type reads back. -/
theorem decoded_message {α : Type} {ofMessage : ProtobufCMessage → Option α} {msg read : ProtobufCMessage} {a : α}
    (hsound : MessageSound exampleDescriptors msg) (hforeign : MessageForeign exampleDescriptors msg)
    (hread : readMessage exampleDescriptors msg = read) (hcast : ofMessage read = some a)
    (hroom : (messageBytes exampleDescriptors msg).length ≤ 2 * maxMembers) :
    decoded msg.descriptor ofMessage (messageBytes exampleDescriptors msg) = some a := by
  rw [decoded, decode_messageBytes exampleDescriptors_wellFormed hsound hforeign (Nat.lt_succ_self _) hroom, hread]
  exact hcast

/-! ## Sizes -/

theorem uint32Size_le (v : UInt32) : uint32Size v ≤ 5 := by
  unfold uint32Size
  split_ifs <;> omega

theorem prefixed_le (bytes : List UInt8) : (prefixed bytes).length ≤ 5 + bytes.length := by
  rw [length_prefixed]
  exact Nat.add_le_add_right (uint32Size_le _) _

/-- A field takes its tag and its value at most. -/
theorem single_le (field : ProtobufCFieldDescriptor) (hid : getTagSize field.id = 1) (has : Bool) {v : Value} {n : Nat}
    (hbody : (valueBody exampleDescriptors field v).length ≤ n) :
    (stream (fieldRecords exampleDescriptors field (.single has v))).length ≤ 1 + n := by
  rw [fieldRecords]
  split
  · exact Nat.zero_le _
  · rw [stream_cons, stream_nil, List.append_nil, length_record field.id (wireType_lt _), hid]
    exact Nat.add_le_add_left hbody 1

theorem word32_le {field : ProtobufCFieldDescriptor} (htype : field.type = .uint32 ∨ field.type = .enum) (w : UInt32) :
    (valueBody exampleDescriptors field (.word32 w)).length ≤ 10 := by
  rcases htype with htype | htype <;>
    exact (scalarBody_bounds (by rw [htype]; rfl) (by rw [htype]; rfl)).2.trans (by rw [htype]; decide)

theorem binary_le {field : ProtobufCFieldDescriptor} (htype : field.type = .bytes) (data : List UInt8) :
    (valueBody exampleDescriptors field (.binary data.length data)).length ≤ 5 + data.length := by
  change (scalarBody field.type (.binary data.length data)).length ≤ _
  have hbody : scalarBody .bytes (.binary data.length data) = prefixed data := by
    simp [scalarBody, scalarPack, binaryDataPack, copy, prefixed]
  rw [htype, hbody]
  exact prefixed_le data

theorem string_le {field : ProtobufCFieldDescriptor} (htype : field.type = .string) (s : Option (List UInt8)) :
    (valueBody exampleDescriptors field (.string s)).length ≤ 5 + (s.getD []).length := by
  change (scalarBody field.type (.string s)).length ≤ _
  rw [htype]
  cases s with
  | none => exact (by decide : 1 ≤ 5)
  | some s =>
    have hcut : (cstring s).length ≤ s.length := (List.takeWhile_prefix _).length_le
    exact (prefixed_le (cstring s)).trans (Nat.add_le_add_left hcut 5)

theorem SomethingWithUINTs.length_le (swu : SomethingWithUINTs) :
    (messageBytes exampleDescriptors swu.message).length ≤ 33 := by
  have hid := single_le ⟨1, .optional, .uint32, true, 0, false⟩ rfl swu.hasId (word32_le (.inl rfl) swu.id)
  have haddress := single_le ⟨2, .optional, .uint32, true, 0, false⟩ rfl swu.hasIpAddress
    (word32_le (.inl rfl) swu.ipAddress)
  have hport := single_le ⟨3, .optional, .uint32, true, 0, false⟩ rfl swu.hasPortNum (word32_le (.inl rfl) swu.portNum)
  simp only [messageBytes, message, messageRecords, fieldsRecords, exampleDescriptors, somethingWithUintsDescriptor,
    stream_append, List.map_nil, List.append_nil, List.length_append]
  omega

theorem uints_le (swu : Option SomethingWithUINTs) (field : ProtobufCFieldDescriptor) :
    (valueBody exampleDescriptors field (.message (swu.map (·.message)))).length ≤ 38 := by
  cases swu with
  | none => exact (by decide : 1 ≤ 38)
  | some swu => exact (prefixed_le _).trans (Nat.add_le_add_left swu.length_le 5)

theorem SomethingMore.length_le (sm : SomethingMore) : (messageBytes exampleDescriptors sm.message).length ≤ 50 := by
  have hcode := single_le ⟨1, .optional, .enum, true, 0, false⟩ rfl sm.hasErrorCode (word32_le (.inr rfl) sm.errorCode)
  have huints := single_le ⟨2, .optional, .message, false, 0, false⟩ rfl false (uints_le sm.uints _)
  simp only [messageBytes, message, messageRecords, fieldsRecords, exampleDescriptors, somethingMoreDescriptor,
    stream_append, List.map_nil, List.append_nil, List.length_append]
  omega

theorem length_uintsBodies (uints : List SomethingWithUINTs) (field : ProtobufCFieldDescriptor) :
    (arrayBodies exampleDescriptors field uints.length
      (uints.map fun swu => .message (some swu.message))).flatten.length ≤ 38 * uints.length := by
  induction uints with
  | nil => exact Nat.le_refl 0
  | cons swu uints ih =>
    have hswu := uints_le (some swu) field
    rw [List.length_cons, List.map_cons, arrayBodies, List.flatten_cons, List.length_append]
    exact (Nat.add_le_add hswu ih).trans (by omega)

theorem EvenMore.length_le (em : EvenMore) : (messageBytes exampleDescriptors em.message).length ≤
    29 + 39 * em.uints.length + em.name.length + em.value.length + (em.s.getD []).length := by
  have hvalue := single_le ⟨1, .required, .enum, false, 0, false⟩ rfl false (word32_le (.inr rfl) em.enumValue)
  have hname := single_le ⟨3, .required, .bytes, false, 0, false⟩ rfl false (binary_le rfl em.name)
  have hblock := single_le ⟨4, .required, .bytes, false, 0, false⟩ rfl false (binary_le rfl em.value)
  have hs := single_le ⟨5, .optional, .string, false, 0, false⟩ rfl false (string_le rfl em.s)
  have huints : (stream (fieldRecords exampleDescriptors ⟨2, .repeated, .message, true, 0, false⟩
      (.repeated em.uints.length (em.uints.map fun swu => .message (some swu.message))))).length ≤
      39 * em.uints.length := by
    have hbodies := length_uintsBodies em.uints ⟨2, .repeated, .message, true, 0, false⟩
    have hcount := length_arrayBodies (D := exampleDescriptors) ⟨2, .repeated, .message, true, 0, false⟩
      (em.uints.map fun swu => .message (some swu.message))
    rw [List.length_map] at hcount
    change (stream ((arrayBodies _ _ _ _).map fun body => Record.mk (UInt32.toNat 2) 2 body)).length ≤ _
    rw [length_stream_map 2 (by decide), hcount, (by decide : getTagSize 2 = 1)]
    omega
  simp only [messageBytes, message, messageRecords, fieldsRecords, exampleDescriptors, evenMoreDescriptor,
    stream_append, List.map_nil, List.append_nil, List.length_append]
  omega

/-! ## Decoded -/

theorem SomethingWithUINTs.decoded_message (swu : SomethingWithUINTs) :
    decoded 0 ofMessage (messageBytes exampleDescriptors swu.message) = some swu.read :=
  Protobuf.decoded_message swu.sound swu.foreign swu.readMessage_message (ofMessage_message _)
    (swu.length_le.trans (by decide))

theorem SomethingMore.decoded_message (sm : SomethingMore) :
    decoded 1 ofMessage (messageBytes exampleDescriptors sm.message) = some sm.read :=
  Protobuf.decoded_message sm.sound sm.foreign sm.readMessage_message (ofMessage_message _)
    (sm.length_le.trans (by decide))

theorem EvenMore.decoded_message (em : EvenMore)
    (hroom : (messageBytes exampleDescriptors em.message).length ≤ 2 * maxMembers) :
    decoded 2 ofMessage (messageBytes exampleDescriptors em.message) = some em.read :=
  Protobuf.decoded_message em.sound em.foreign em.readMessage_message (ofMessage_message _) hroom

theorem SomethingMore.deserialize_message (sm : SomethingMore) :
    deserialize (messageBytes exampleDescriptors sm.message).length (messageBytes exampleDescriptors sm.message) =
      .ok sm.read := by
  have hread := deserialize_eq 1 isSome_ofMessage [] (Nat.lt_of_le_of_lt sm.length_le (by decide))
  rw [List.append_nil, sm.decoded_message] at hread
  exact hread

theorem EvenMore.deserialize_message (em : EvenMore)
    (hroom : (messageBytes exampleDescriptors em.message).length ≤ 2 * maxMembers) :
    deserialize (messageBytes exampleDescriptors em.message).length (messageBytes exampleDescriptors em.message) =
      .ok em.read := by
  have hread := deserialize_eq 2 isSome_ofMessage [] (Nat.lt_of_le_of_lt hroom (by decide))
  rw [List.append_nil, em.decoded_message hroom] at hread
  exact hread

end KSock.Protobuf
