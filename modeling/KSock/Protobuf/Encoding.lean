import KSock.Protobuf.Pack
import KSock.Protobuf.Example
import KSock.Lib.Wire
/-!
# What a message is on the wire

A field is no record, one record, or one for each of its elements, and a message
is the records of its fields and then its unknown fields. `messageBytes` says so
and nothing about lengths or places; it is what `protobuf_c_message_pack` writes,
and `protobuf_c_message_get_packed_size` is its length.
-/
open KSockLib KSockLib.Memory KSockLib.Varint KSockLib.Wire

namespace KSock.Protobuf

/-- The low 32 bits of its length, and a byte string. -/
def prefixed (bytes : List UInt8) : List UInt8 := uint32Pack (UInt32.ofNat bytes.length) ++ bytes

/-- The body of a field that is not a message. -/
def scalarBody (type : ProtobufCType) (member : Value) : List UInt8 :=
  match scalarPack type member with
  | some (_, bytes) => bytes
  | none => []

def unknownRecord (field : ProtobufCMessageUnknownField) : Record :=
  ⟨field.tag.toNat, field.wireType.toNat, field.data⟩

mutual
/-- The records of a message: a field has none, one, or one for each element. -/
def messageRecords (D : Descriptors) : ProtobufCMessage → List Record
  | .mk descriptor members unknownFields =>
    fieldsRecords D (D descriptor).fields members ++ unknownFields.map unknownRecord

def fieldsRecords (D : Descriptors) : List ProtobufCFieldDescriptor → List Member → List Record
  | field :: fields, member :: members => fieldRecords D field member ++ fieldsRecords D fields members
  | _, _ => []

def fieldRecords (D : Descriptors) (field : ProtobufCFieldDescriptor) : Member → List Record
  | .single has member =>
    if omitted field has member then [] else [⟨field.id.toNat, field.type.wireType, valueBody D field member⟩]
  | .repeated count array =>
    if !field.packed then (arrayBodies D field count array).map fun body => ⟨field.id.toNat, field.type.wireType, body⟩
    else if count = 0 then []
    else [⟨field.id.toNat, 2, prefixed (arrayBodies D field count array).flatten⟩]

def arrayBodies (D : Descriptors) (field : ProtobufCFieldDescriptor) : Nat → List Value → List (List UInt8)
  | count + 1, v :: array => valueBody D field v :: arrayBodies D field count array
  | _, _ => []

def valueBody (D : Descriptors) (field : ProtobufCFieldDescriptor) : Value → List UInt8
  | .message none => [0]
  | .message (some msg) => prefixed (stream (messageRecords D msg))
  | member => scalarBody field.type member
end

/-- The bytes of a message. -/
def messageBytes (D : Descriptors) (msg : ProtobufCMessage) : List UInt8 := stream (messageRecords D msg)

/-! ## Messages in memory -/

mutual
/-- The members are what the fields say: cells of their types, blocks and arrays
that are as long as their lengths say, and no NULL in an array. -/
def MessageFits (D : Descriptors) : ProtobufCMessage → Prop
  | .mk descriptor members unknownFields =>
    FieldsFit D (D descriptor).fields members ∧ ∀ field ∈ unknownFields, field.wireType.toNat < 8

def FieldsFit (D : Descriptors) : List ProtobufCFieldDescriptor → List Member → Prop
  | [], [] => True
  | field :: fields, member :: members => FieldFits D field member ∧ FieldsFit D fields members
  | _, _ => False

def FieldFits (D : Descriptors) (field : ProtobufCFieldDescriptor) : Member → Prop
  | .single _ member => field.label ≠ .repeated ∧ ValueFits D field member
  | .repeated count array =>
    field.label = .repeated ∧ count = array.length ∧ ArrayFits D field array ∧
      (field.packed = true → isPackableType field.type = true)

def ArrayFits (D : Descriptors) (field : ProtobufCFieldDescriptor) : List Value → Prop
  | [] => True
  | v :: array => (v.isNull = false ∧ ValueFits D field v) ∧ ArrayFits D field array

def ValueFits (D : Descriptors) (field : ProtobufCFieldDescriptor) : Value → Prop
  | .message none => field.type = .message
  | .message (some msg) => field.type = .message ∧ msg.descriptor = field.descriptor ∧ MessageFits D msg
  | .binary len data => field.type = .bytes ∧ len = data.length
  | member => member.ctype = field.type.ctype
end

variable {D : Descriptors}

/-! ## Sizes are lengths -/

/-- The two switches have the same cases: a cell of the field's type has a body,
and its size is what the other one says. -/
theorem scalarPack_spec {type : ProtobufCType} {v : Value} (hv : v.ctype = type.ctype) (hmsg : v.ctype ≠ .message)
    (hblock : ∀ {len data}, v = .binary len data → len = data.length) :
    ∃ wireType, scalarPack type v = some (wireType, scalarBody type v) ∧ wireType.toNat = type.wireType ∧
      scalarSize type v = some (scalarBody type v).length := by
  cases v with
  | word32 v =>
    cases type <;> cases hv <;> refine ⟨_, rfl, rfl, congrArg some ?_⟩
    case word32.int32.refl =>
      rw [int32Size_eq, UInt32.toUInt32_toInt32]
      rfl
    case word32.enum.refl =>
      rw [int32Size_eq, UInt32.toUInt32_toInt32]
      rfl
    case word32.sint32.refl => exact sint32Size_eq _
    case word32.uint32.refl => exact uint32Size_eq _
    all_goals exact (length_storeU32 v).symm
  | word64 v =>
    cases type <;> cases hv <;> refine ⟨_, rfl, rfl, congrArg some ?_⟩
    case word64.sint64.refl => exact sint64Size_eq _
    case word64.int64.refl => exact uint64Size_eq _
    case word64.uint64.refl => exact uint64Size_eq _
    all_goals exact (Endian.length_toLE 8 v.toNat).symm
  | boolean b =>
    cases type <;> cases hv
    exact ⟨_, rfl, rfl, rfl⟩
  | string str =>
    cases type <;> cases hv
    refine ⟨_, rfl, rfl, congrArg some ?_⟩
    cases str with
    | none => rfl
    | some str =>
      change _ = (uint32Pack (UInt32.ofNat (cstring str).length) ++ cstring str).length
      rw [List.length_append, ← uint32Size_eq]
      rfl
  | binary len data =>
    cases type <;> cases hv
    obtain rfl := hblock rfl
    have hcopy : copy data.length data = some data := by rw [copy, if_pos (Nat.le_refl _), List.take_length]
    have hpack : scalarPack .bytes (.binary data.length data) =
        some (2, uint32Pack (UInt32.ofNat data.length) ++ data) := by
      change Option.map _ (do return uint32Pack (UInt32.ofNat data.length) ++ (← copy data.length data)) = _
      rw [hcopy]
      rfl
    refine ⟨2, ?_, rfl, ?_⟩
    · rw [scalarBody, hpack]
    · rw [scalarBody, hpack]
      change some (uint32Size (UInt32.ofNat data.length) + data.length) = _
      rw [List.length_append, ← uint32Size_eq]
  | message msg => exact absurd rfl hmsg

/-- `out[0] |= wire_type` behind `tag_pack`. -/
theorem writeTag_eq (id : UInt32) {wireType : UInt8} (hw : wireType.toNat < 8) (out : Nat) (mem : Mem) :
    write (write mem out (tagPack id)) out [write mem out (tagPack id) out ||| wireType] =
        write mem out (encode (8 * id.toNat + wireType.toNat)) ∧
      (tagPack id).length = (encode (8 * id.toNat + wireType.toNat)).length := by
  obtain ⟨tag, tags, htag⟩ := List.exists_cons_of_length_pos (length_encode_pos (8 * id.toNat))
  have hlow := encode_or_low hw htag
  have hhead : write mem out (tag :: tags) out = tag := by
    rw [write_inside _ (Nat.le_refl _) (by simp)]
    simp
  rw [UInt8.ofNat_toNat] at hlow
  rw [tagPack_eq, htag, hlow, hhead, write_write_head]
  exact ⟨rfl, rfl⟩

/-- A tag with its wire type and the bytes behind it are a record. -/
theorem packTagged_eq {id : UInt32} {wireType : UInt8} {bytes : List UInt8} (hw : wireType.toNat < 8) (out : Nat)
    (mem : Mem) : packTagged id wireType bytes out mem =
      ((Record.mk id.toNat wireType.toNat bytes).bytes.length,
        write mem out (Record.mk id.toNat wireType.toNat bytes).bytes) := by
  obtain ⟨hwrite, htag⟩ := writeTag_eq id hw out mem
  simp only [packTagged, hwrite, htag, Record.bytes, write_write_append, List.length_append]

theorem length_record (id : UInt32) {wireType : Nat} (hw : wireType < 8) (body : List UInt8) :
    (Record.mk id.toNat wireType body).bytes.length = getTagSize id + body.length := by
  obtain ⟨tag, tags, htag⟩ := List.exists_cons_of_length_pos (length_encode_pos (8 * id.toNat))
  have hlow := encode_or_low hw htag
  rw [Record.bytes, List.length_append, hlow, getTagSize_eq, tagPack_eq, htag]
  rfl

theorem wireType_lt (type : ProtobufCType) : type.wireType < 8 := by
  cases type <;> decide

theorem length_prefixed (bytes : List UInt8) :
    (prefixed bytes).length = uint32Size (UInt32.ofNat bytes.length) + bytes.length := by
  rw [prefixed, List.length_append, uint32Size_eq]

theorem length_stream_map (id : UInt32) {wireType : Nat} (hw : wireType < 8) (bodies : List (List UInt8)) :
    (stream (bodies.map fun body => ⟨id.toNat, wireType, body⟩)).length =
      getTagSize id * bodies.length + bodies.flatten.length := by
  induction bodies with
  | nil => rfl
  | cons body bodies ih =>
    rw [List.map_cons, stream_cons, List.length_append, length_record id hw, ih, List.length_cons,
      List.flatten_cons, List.length_append]
    ring

theorem length_unknownRecords {unknownFields : List ProtobufCMessageUnknownField}
    (h : ∀ field ∈ unknownFields, field.wireType.toNat < 8) :
    (stream (unknownFields.map unknownRecord)).length = (unknownFields.map unknownFieldGetPackedSize).sum := by
  induction unknownFields with
  | nil => rfl
  | cons field fields ih =>
    rw [List.forall_mem_cons] at h
    rw [List.map_cons, stream_cons, List.length_append, ih h.2, List.map_cons, List.sum_cons, unknownRecord,
      length_record field.tag h.1, unknownFieldGetPackedSize]

/-- A cell that is no message is left to the switches. -/
theorem ValueFits.scalar {field : ProtobufCFieldDescriptor} {v : Value} (h : ValueFits D field v)
    (hmsg : v.ctype ≠ .message) :
    v.ctype = field.type.ctype ∧ (∀ {len data}, v = .binary len data → len = data.length) ∧
      valueBody D field v = scalarBody field.type v ∧
      requiredFieldGetPackedSize D field v = scalarSize field.type v := by
  cases v with
  | message msg => exact absurd rfl hmsg
  | binary len data =>
    obtain ⟨htype, rfl⟩ : field.type = .bytes ∧ len = data.length := h
    refine ⟨by rw [htype]; rfl, ?_, rfl, rfl⟩
    intro len data heq
    cases heq
    rfl
  | _ => exact ⟨h, fun heq => Value.noConfusion heq, rfl, rfl⟩

theorem requiredFieldGetPackedSize_scalar {field : ProtobufCFieldDescriptor} {v : Value} (h : ValueFits D field v)
    (hmsg : v.ctype ≠ .message) : requiredFieldGetPackedSize D field v = some (valueBody D field v).length := by
  obtain ⟨hctype, hblock, hbody, hsize⟩ := h.scalar hmsg
  obtain ⟨-, -, -, hscalar⟩ := scalarPack_spec hctype hmsg hblock
  rw [hsize, hscalar, hbody]

theorem length_arrayBodies (field : ProtobufCFieldDescriptor) (array : List Value) :
    (arrayBodies D field array.length array).length = array.length := by
  induction array with
  | nil => rfl
  | cons v array ih => rw [List.length_cons, arrayBodies, List.length_cons, ih]

mutual
theorem messageGetPackedSize_eq : ∀ {msg : ProtobufCMessage}, MessageFits D msg →
    messageGetPackedSize D msg = some (messageBytes D msg).length
  | .mk descriptor members unknownFields, h => by
    rw [MessageFits] at h
    rw [messageGetPackedSize, fieldsGetPackedSize_eq h.1, messageBytes, messageRecords, stream_append,
      List.length_append, length_unknownRecords h.2]
    rfl

theorem fieldsGetPackedSize_eq : ∀ {fields : List ProtobufCFieldDescriptor} {members : List Member},
    FieldsFit D fields members → fieldsGetPackedSize D fields members = some (stream (fieldsRecords D fields members)).length
  | [], [], _ => rfl
  | field :: fields, member :: members, h => by
    rw [FieldsFit] at h
    rw [fieldsGetPackedSize, fieldGetPackedSize_eq h.1, fieldsGetPackedSize_eq h.2, fieldsRecords, stream_append,
      List.length_append]
    rfl
  | [], _ :: _, h => False.elim h
  | _ :: _, [], h => False.elim h

theorem fieldGetPackedSize_eq {field : ProtobufCFieldDescriptor} : ∀ {member : Member}, FieldFits D field member →
    fieldGetPackedSize D field member = some (stream (fieldRecords D field member)).length
  | .single has v, h => by
    rw [FieldFits] at h
    rw [fieldGetPackedSize, fieldRecords, if_neg h.1]
    split
    · rfl
    · rw [requiredFieldGetPackedSize_eq h.2, stream_cons, stream_nil, List.append_nil,
        length_record _ (wireType_lt _)]
      rfl
  | .repeated count array, h => by
    obtain ⟨hlabel, rfl, harray, -⟩ := h
    rw [fieldGetPackedSize, fieldRecords, if_neg (not_not.2 hlabel), arrayGetPackedSize_eq harray]
    by_cases hcount : array.length = 0
    · obtain rfl := List.eq_nil_of_length_eq_zero hcount
      cases field.packed <;> rfl
    · cases hpacked : field.packed with
      | true =>
        rw [Bool.not_true, if_neg Bool.false_ne_true, if_neg hcount, if_neg hcount, stream_cons, stream_nil,
          List.append_nil, length_record _ (by decide), length_prefixed, ← Nat.add_assoc]
        rfl
      | false =>
        rw [Bool.not_false, if_pos rfl, if_neg hcount, length_stream_map _ (wireType_lt _), length_arrayBodies]
        rfl

theorem arrayGetPackedSize_eq {field : ProtobufCFieldDescriptor} : ∀ {array : List Value}, ArrayFits D field array →
    arrayGetPackedSize D field array.length array = some (arrayBodies D field array.length array).flatten.length
  | [], _ => rfl
  | v :: array, h => by
    rw [ArrayFits] at h
    rw [List.length_cons, arrayGetPackedSize, h.1.1, requiredFieldGetPackedSize_eq h.1.2, arrayGetPackedSize_eq h.2,
      arrayBodies, List.flatten_cons, List.length_append]
    rfl

theorem requiredFieldGetPackedSize_eq {field : ProtobufCFieldDescriptor} : ∀ {v : Value}, ValueFits D field v →
    requiredFieldGetPackedSize D field v = some (valueBody D field v).length
  | .message none, h => by
    rw [ValueFits] at h
    rw [requiredFieldGetPackedSize, if_pos h, valueBody]
    rfl
  | .message (some msg), h => by
    rw [ValueFits] at h
    rw [requiredFieldGetPackedSize, h.1, messageGetPackedSize_eq h.2.2, valueBody, length_prefixed]
    rfl
  | .word32 _, h => requiredFieldGetPackedSize_scalar h CType.noConfusion
  | .word64 _, h => requiredFieldGetPackedSize_scalar h CType.noConfusion
  | .boolean _, h => requiredFieldGetPackedSize_scalar h CType.noConfusion
  | .string _, h => requiredFieldGetPackedSize_scalar h CType.noConfusion
  | .binary _ _, h => requiredFieldGetPackedSize_scalar h CType.noConfusion
end

/-! ## Packing writes the bytes -/

theorem ValueFits.not_message {field : ProtobufCFieldDescriptor} {v : Value} (hp : isPackableType field.type = true)
    (h : ValueFits D field v) : v.ctype ≠ .message := by
  cases v with
  | message msg =>
    have htype : field.type = .message := by
      cases msg with
      | none => exact h
      | some msg => exact h.1
    rw [htype] at hp
    cases hp
  | _ => exact CType.noConfusion

theorem packedPayload_eq {field : ProtobufCFieldDescriptor} (hp : isPackableType field.type = true) :
    ∀ {array : List Value}, ArrayFits D field array →
      packedPayload field.type array.length array = some (arrayBodies D field array.length array).flatten
  | [], _ => rfl
  | v :: array, h => by
    obtain ⟨⟨-, hv⟩, hrest⟩ := h
    have hmsg := hv.not_message hp
    obtain ⟨hctype, hblock, hbody, -⟩ := hv.scalar hmsg
    obtain ⟨wireType, hpack, -⟩ := scalarPack_spec hctype hmsg hblock
    have hprefixed : ¬(field.type = .string ∨ field.type = .bytes ∨ field.type = .message) := by
      simpa [isPackableType, and_assoc] using hp
    rw [List.length_cons, packedPayload, if_neg hprefixed, List.head?_cons, List.tail_cons, arrayBodies,
      List.flatten_cons, packedPayload_eq hp hrest, hbody]
    simp only [Option.bind_eq_bind, Option.bind_some, Option.pure_def, hpack]

/-- An element takes at least what is expected of it, and at most ten times as much. -/
theorem scalarBody_bounds {type : ProtobufCType} (hp : isPackableType type = true) {v : Value}
    (hv : v.ctype = type.ctype) :
    getTypeMinSize type ≤ (scalarBody type v).length ∧ (scalarBody type v).length ≤ 10 * getTypeMinSize type := by
  have hvarint : ∀ n : Nat, n < 2 ^ 64 → 1 ≤ (encode n).length ∧ (encode n).length ≤ 10 := fun n hn =>
    ⟨length_encode_pos n, length_encode_le (by omega)⟩
  have h32 : ∀ v : UInt32, 1 ≤ (uint32Pack v).length ∧ (uint32Pack v).length ≤ 10 := fun v => by
    rw [uint32Pack_eq]
    exact hvarint _ (by have := v.toNat_lt; omega)
  have h64 : ∀ v : UInt64, 1 ≤ (uint64Pack v).length ∧ (uint64Pack v).length ≤ 10 := fun v => by
    rw [uint64Pack_eq]
    exact hvarint _ v.toNat_lt
  have hint : ∀ v : UInt32, 1 ≤ (int32Pack v).length ∧ (int32Pack v).length ≤ 10 := fun v => by
    rw [int32Pack]
    split
    · exact ⟨Nat.le_add_left 1 9, Nat.le_refl 10⟩
    · exact h32 v
  have hfix32 : ∀ v : UInt32, 4 ≤ (fixed32Pack v).length ∧ (fixed32Pack v).length ≤ 40 := fun v => by
    rw [fixed32Pack, length_storeU32]
    decide
  have hfix64 : ∀ v : UInt64, 8 ≤ (fixed64Pack v).length ∧ (fixed64Pack v).length ≤ 80 := fun v => by
    rw [show (fixed64Pack v).length = 8 from Endian.length_toLE 8 v.toNat]
    decide
  cases v with
  | word32 v =>
    cases type <;> cases hv
    case word32.int32.refl => exact hint v
    case word32.enum.refl => exact hint v
    case word32.sint32.refl => exact h32 _
    case word32.uint32.refl => exact h32 v
    all_goals exact hfix32 v
  | word64 v =>
    cases type <;> cases hv
    case word64.sint64.refl => exact h64 _
    case word64.int64.refl => exact h64 v
    case word64.uint64.refl => exact h64 v
    all_goals exact hfix64 v
  | boolean b =>
    cases type <;> cases hv
    exact ⟨Nat.le_refl 1, (by decide : 1 ≤ 10)⟩
  | _ =>
    cases type <;> cases hv
    all_goals cases hp

theorem payload_bounds {field : ProtobufCFieldDescriptor} (hp : isPackableType field.type = true) :
    ∀ {array : List Value}, ArrayFits D field array →
      getTypeMinSize field.type * array.length ≤ (arrayBodies D field array.length array).flatten.length ∧
        (arrayBodies D field array.length array).flatten.length ≤ 10 * (getTypeMinSize field.type * array.length)
  | [], _ => ⟨Nat.le_refl _, Nat.zero_le _⟩
  | v :: array, h => by
    obtain ⟨⟨-, hv⟩, hrest⟩ := h
    have ih := payload_bounds hp hrest
    obtain ⟨hctype, -, hbody, -⟩ := hv.scalar (hv.not_message hp)
    have hfirst := scalarBody_bounds hp hctype
    rw [List.length_cons, arrayBodies, List.flatten_cons, List.length_append, hbody, Nat.mul_succ]
    omega

/-- The length takes as many bytes as expected, or one more. -/
theorem uint32Size_tenfold {n m : Nat} (hle : n ≤ m) (hten : m ≤ 10 * n) (hm : m < 2 ^ 32) :
    uint32Size (UInt32.ofNat m) = uint32Size (UInt32.ofNat n) ∨
      uint32Size (UInt32.ofNat m) = uint32Size (UInt32.ofNat n) + 1 := by
  have hto : ∀ {k : Nat}, k < 2 ^ 32 → (UInt32.ofNat k).toNat = k := fun hk => by
    rw [UInt32.toNat_ofNat']
    exact Nat.mod_eq_of_lt hk
  simp only [uint32Size, UInt32.lt_iff_toNat_lt, hto hm, hto (Nat.lt_of_le_of_lt hle hm), UInt32.reduceToNat]
  split_ifs <;> omega

/-- Where the length takes a byte more than expected, the payload is moved up by one. -/
theorem packedFieldPack_eq {field : ProtobufCFieldDescriptor} (hp : field.packed = true)
    (hpackable : isPackableType field.type = true) {array : List Value} (h : ArrayFits D field array)
    (hlen : (arrayBodies D field array.length array).flatten.length < 2 ^ 32) (out : Nat) (mem : Mem) :
    packedFieldPack field array.length array out mem =
      some ((stream (fieldRecords D field (.repeated array.length array))).length,
        write mem out (stream (fieldRecords D field (.repeated array.length array)))) := by
  rw [fieldRecords, hp, Bool.not_true, if_neg Bool.false_ne_true, packedFieldPack]
  by_cases hcount : array.length = 0
  · rw [if_pos hcount, if_pos hcount, stream_nil, write_nil]
    rfl
  rw [if_neg hcount, if_neg hcount, packedPayload_eq hpackable h]
  obtain ⟨hmin, hten⟩ := payload_bounds hpackable h
  have hsize := uint32Size_tenfold hmin hten hlen
  have hto : (UInt32.ofNat (arrayBodies D field array.length array).flatten.length).toNat =
      (arrayBodies D field array.length array).flatten.length := by
    rw [UInt32.toNat_ofNat']
    exact Nat.mod_eq_of_lt hlen
  generalize (arrayBodies D field array.length array).flatten = payload at *
  generalize UInt32.ofNat (getTypeMinSize field.type * array.length) = expected at *
  obtain ⟨hwrite, htag⟩ := writeTag_eq field.id (show (2 : UInt8).toNat < 8 by decide) out mem
  rw [show (2 : UInt8).toNat = 2 from rfl] at hwrite htag
  have hpack := uint32Size_eq (UInt32.ofNat payload.length)
  simp only [Option.bind_eq_bind, Option.bind_some, Option.pure_def, hwrite, htag, hto, stream_cons, stream_nil,
    List.append_nil, Record.bytes, prefixed, List.length_append]
  change _ = some _
  rcases hsize with hsize | hsize
  · rw [if_neg (not_not.2 hsize.symm), ← hsize, hpack]
    simp only [← Nat.add_assoc, write_write_prepend, write_write_append]
  · -- the moved payload covers the old one but for its first byte, which the length covers
    have hread : ∀ m i, move (write m i payload) (i + 1) i payload.length = write (write m i payload) (i + 1) payload :=
      fun m i => by rw [move, read_write_same]
    rw [if_pos (by omega), hread]
    generalize encode (8 * field.id.toNat + 2) = tag at *
    generalize uint32Pack (UInt32.ofNat payload.length) = len at *
    have hat : out + (tag.length + uint32Size expected) + 1 = out + tag.length + len.length := by omega
    simp only [hat, write_write_prepend]
    rw [write_write_cover _ (by omega) (by rw [List.length_append]; omega), write_write_append,
      show tag.length + uint32Size expected + 1 + payload.length = tag.length + (len.length + payload.length) by omega]

theorem unknownFieldsPack_eq {unknownFields : List ProtobufCMessageUnknownField}
    (h : ∀ field ∈ unknownFields, field.wireType.toNat < 8) (out : Nat) (mem : Mem) :
    unknownFieldsPack unknownFields out mem =
      ((stream (unknownFields.map unknownRecord)).length, write mem out (stream (unknownFields.map unknownRecord))) := by
  induction unknownFields generalizing out mem with
  | nil => rw [List.map_nil, stream_nil, write_nil]; rfl
  | cons field fields ih =>
    rw [List.forall_mem_cons] at h
    simp only [unknownFieldsPack, packTagged_eq h.1, ih h.2, List.map_cons, stream_cons, unknownRecord,
      write_write_append, List.length_append]

theorem requiredFieldPack_scalar {field : ProtobufCFieldDescriptor} {v : Value} (h : ValueFits D field v)
    (hmsg : v.ctype ≠ .message) (out : Nat) (mem : Mem) : requiredFieldPack D field v out mem =
      some ((Record.mk field.id.toNat field.type.wireType (valueBody D field v)).bytes.length,
        write mem out (Record.mk field.id.toNat field.type.wireType (valueBody D field v)).bytes) := by
  obtain ⟨hctype, hblock, hbody, -⟩ := h.scalar hmsg
  obtain ⟨wireType, hpack, hwire, -⟩ := scalarPack_spec hctype hmsg hblock
  have hlt : wireType.toNat < 8 := by rw [hwire]; exact wireType_lt _
  have hscalar : requiredFieldPack D field v out mem =
      (scalarPack field.type v).bind fun packed => some (packTagged field.id packed.1 packed.2 out mem) := by
    cases v with
    | message msg => exact absurd rfl hmsg
    | _ => rfl
  rw [hscalar, hpack, hbody, ← hwire]
  exact congrArg some (packTagged_eq hlt out mem)

/-- The end of `prefixed_message_pack`: the message was packed behind one byte,
and is moved where its length takes more. -/
theorem prefixedMessage_eq (bytes : List UInt8) (i : Nat) (mem : Mem) :
    write (if uint32Size (UInt32.ofNat bytes.length) ≠ 1 then
        move (write mem (i + 1) bytes) (i + uint32Size (UInt32.ofNat bytes.length)) (i + 1) bytes.length
      else write mem (i + 1) bytes) i (uint32Pack (UInt32.ofNat bytes.length)) = write mem i (prefixed bytes) := by
  have hpos := length_encode_pos (UInt32.ofNat bytes.length).toNat
  rw [uint32Size_eq, prefixed]
  rw [← uint32Pack_eq] at hpos
  generalize uint32Pack (UInt32.ofNat bytes.length) = len at *
  split
  · rw [move, read_write_same, write_write_prepend, write_write_cover _ (by omega)]
    rw [List.length_append]
    omega
  · rw [show i + 1 = i + len.length by omega, write_write_prepend]

mutual
theorem messagePack_eq : ∀ {msg : ProtobufCMessage}, MessageFits D msg → (messageBytes D msg).length < 2 ^ 32 →
    ∀ out mem, messagePack D msg out mem = some ((messageBytes D msg).length, write mem out (messageBytes D msg))
  | .mk descriptor members unknownFields, h, hlen, out, mem => by
    rw [MessageFits] at h
    rw [messageBytes, messageRecords, stream_append, List.length_append] at hlen ⊢
    rw [messagePack, fieldsPack_eq h.1 (by omega)]
    simp only [Option.bind_eq_bind, Option.bind_some, unknownFieldsPack_eq h.2, write_write_append]
    rfl

theorem fieldsPack_eq : ∀ {fields : List ProtobufCFieldDescriptor} {members : List Member},
    FieldsFit D fields members → (stream (fieldsRecords D fields members)).length < 2 ^ 32 →
    ∀ out mem, fieldsPack D fields members out mem =
      some ((stream (fieldsRecords D fields members)).length, write mem out (stream (fieldsRecords D fields members)))
  | [], [], _, _, out, mem => congrArg (fun mem => some (0, mem)) (write_nil mem out).symm
  | field :: fields, member :: members, h, hlen, out, mem => by
    rw [FieldsFit] at h
    rw [fieldsRecords, stream_append, List.length_append] at hlen ⊢
    rw [fieldsPack, fieldPack_eq h.1 (by omega)]
    simp only [Option.bind_eq_bind, Option.bind_some, fieldsPack_eq h.2 (by omega), write_write_append]
    rfl
  | [], _ :: _, h, _, _, _ => False.elim h
  | _ :: _, [], h, _, _, _ => False.elim h

theorem fieldPack_eq {field : ProtobufCFieldDescriptor} : ∀ {member : Member}, FieldFits D field member →
    (stream (fieldRecords D field member)).length < 2 ^ 32 →
    ∀ out mem, fieldPack D field member out mem =
      some ((stream (fieldRecords D field member)).length, write mem out (stream (fieldRecords D field member)))
  | .single has v, h, hlen, out, mem => by
    rw [FieldFits] at h
    rw [fieldRecords] at hlen ⊢
    rw [fieldPack, if_neg h.1]
    split at hlen
    · rw [if_pos ‹_›, if_pos ‹_›, stream_nil, write_nil]
      rfl
    · rw [stream_cons, stream_nil, List.append_nil] at hlen
      rw [if_neg ‹_›, if_neg ‹_›, stream_cons, stream_nil, List.append_nil]
      exact requiredFieldPack_eq h.2 hlen out mem
  | .repeated count array, h, hlen, out, mem => by
    obtain ⟨hlabel, rfl, harray, hpackable⟩ := h
    rw [fieldPack, if_neg (not_not.2 hlabel)]
    cases hpacked : field.packed with
    | true =>
      refine packedFieldPack_eq hpacked (hpackable hpacked) harray ?_ out mem
      rw [fieldRecords, hpacked, Bool.not_true, if_neg Bool.false_ne_true] at hlen
      by_cases hcount : array.length = 0
      · obtain rfl := List.eq_nil_of_length_eq_zero hcount
        exact Nat.two_pow_pos 32
      · rw [if_neg hcount, stream_cons, List.length_append, length_record _ (by decide), length_prefixed] at hlen
        omega
    | false =>
      rw [fieldRecords, hpacked, Bool.not_false, if_pos rfl] at hlen ⊢
      exact arrayPack_eq harray hlen out mem

theorem arrayPack_eq {field : ProtobufCFieldDescriptor} : ∀ {array : List Value}, ArrayFits D field array →
    (stream ((arrayBodies D field array.length array).map fun body => ⟨field.id.toNat, field.type.wireType, body⟩)).length
      < 2 ^ 32 →
    ∀ out mem, arrayPack D field array.length array out mem =
      some ((stream ((arrayBodies D field array.length array).map
          fun body => ⟨field.id.toNat, field.type.wireType, body⟩)).length,
        write mem out (stream ((arrayBodies D field array.length array).map
          fun body => ⟨field.id.toNat, field.type.wireType, body⟩)))
  | [], _, _, out, mem => congrArg (fun mem => some (0, mem)) (write_nil mem out).symm
  | v :: array, h, hlen, out, mem => by
    rw [ArrayFits] at h
    rw [List.length_cons, arrayBodies, List.map_cons, stream_cons, List.length_append] at hlen ⊢
    rw [arrayPack, requiredFieldPack_eq h.1.2 (by omega)]
    simp only [Option.bind_eq_bind, Option.bind_some, arrayPack_eq h.2 (by omega), write_write_append]
    rfl

theorem requiredFieldPack_eq {field : ProtobufCFieldDescriptor} : ∀ {v : Value}, ValueFits D field v →
    (Record.mk field.id.toNat field.type.wireType (valueBody D field v)).bytes.length < 2 ^ 32 →
    ∀ out mem, requiredFieldPack D field v out mem =
      some ((Record.mk field.id.toNat field.type.wireType (valueBody D field v)).bytes.length,
        write mem out (Record.mk field.id.toNat field.type.wireType (valueBody D field v)).bytes)
  | .message none, h, _, out, mem => by
    rw [ValueFits] at h
    rw [requiredFieldPack, if_pos h, valueBody, h]
    exact congrArg some (packTagged_eq (by decide) out mem)
  | .message (some msg), h, hlen, out, mem => by
    rw [ValueFits] at h
    have hlt : (messageBytes D msg).length < 2 ^ 32 := by
      rw [length_record _ (wireType_lt _), valueBody, length_prefixed] at hlen
      rw [messageBytes]
      omega
    obtain ⟨hwrite, htag⟩ := writeTag_eq field.id (show (2 : UInt8).toNat < 8 by decide) out mem
    rw [show (2 : UInt8).toNat = 2 from rfl] at hwrite htag
    rw [requiredFieldPack, if_neg (not_not.2 h.1)]
    simp only [hwrite, htag, Option.bind_eq_bind, Option.bind_some, messagePack_eq h.2.2 hlt]
    rw [prefixedMessage_eq, write_write_append, valueBody, h.1]
    simp only [Record.bytes, prefixed, List.length_append]
    rfl
  | .word32 _, h, _, out, mem => requiredFieldPack_scalar h CType.noConfusion out mem
  | .word64 _, h, _, out, mem => requiredFieldPack_scalar h CType.noConfusion out mem
  | .boolean _, h, _, out, mem => requiredFieldPack_scalar h CType.noConfusion out mem
  | .string _, h, _, out, mem => requiredFieldPack_scalar h CType.noConfusion out mem
  | .binary _ _, h, _, out, mem => requiredFieldPack_scalar h CType.noConfusion out mem
end

/-- `protobuf_c_message_pack` writes as many bytes as `protobuf_c_message_get_packed_size`
says, those of the message, and nothing else. -/
theorem messagePack_writes {msg : ProtobufCMessage} (h : MessageFits D msg) {n : Nat}
    (hsize : messageGetPackedSize D msg = some n) (hn : n < 2 ^ 32) (out : Nat) (mem : Mem) :
    ∃ mem', messagePack D msg out mem = some (n, mem') ∧ read mem' out n = messageBytes D msg ∧
      ∀ k, k < out ∨ out + n ≤ k → mem' k = mem k := by
  obtain rfl : (messageBytes D msg).length = n := Option.some.inj ((messageGetPackedSize_eq h).symm.trans hsize)
  exact ⟨_, messagePack_eq h hn out mem, read_write_same mem out _, fun k hk => write_outside mem hk⟩

theorem uintsExample_fits : MessageFits exampleDescriptors uintsExample := by
  simp [uintsExample, MessageFits, FieldsFit, FieldFits, ValueFits, exampleDescriptors, somethingWithUintsDescriptor,
    Value.ctype, ProtobufCType.ctype]

theorem evenMoreExample_fits : MessageFits exampleDescriptors evenMoreExample := by
  have huints : ValueFits exampleDescriptors ⟨2, .repeated, .message, true, 0, false⟩ (.message (some uintsExample)) :=
    ⟨rfl, rfl, uintsExample_fits⟩
  simp [evenMoreExample, MessageFits, FieldsFit, FieldFits, ArrayFits, exampleDescriptors, evenMoreDescriptor, huints]
  simp [ValueFits, Value.ctype, ProtobufCType.ctype, Value.isNull]

theorem messagePack_writes_example : ∃ mem', messagePack exampleDescriptors evenMoreExample 100 (fun _ => 0) =
    some (38, mem') ∧ read mem' 100 38 = messageBytes exampleDescriptors evenMoreExample ∧
      ∀ k, k < 100 ∨ 100 + 38 ≤ k → mem' k = 0 :=
  messagePack_writes evenMoreExample_fits (by decide) (by decide) 100 (fun _ => 0)

end KSock.Protobuf
