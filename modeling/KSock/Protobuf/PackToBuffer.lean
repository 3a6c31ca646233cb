import KSock.Protobuf.Encoding
/-!
# `protobuf_c_message_pack_to_buffer`

The same message, appended to a `ProtobufCBuffer` piece by piece. Nothing can be
moved afterwards, so every length is computed before what it is the length of:
that of a sub-message by `protobuf_c_message_get_packed_size`, that of a packed
field by `get_packed_payload_length`. A buffer is given by the bytes appended.
-/
open KSockLib KSockLib.Memory KSockLib.Varint KSockLib.Wire

namespace KSock.Protobuf

/-- `scratch[0] |= wire_type` behind `tag_pack`. -/
def scratchTag (id : UInt32) (wireType : UInt8) : List UInt8 :=
  match tagPack id with
  | [] => []
  | tag :: tags => (tag ||| wireType) :: tags

/-- `count` and the result are `unsigned`. -/
def getPackedPayloadLength (type : ProtobufCType) (count : UInt32) (array : List Value) : Option UInt32 :=
  if type = .sfixed32 ∨ type = .fixed32 ∨ type = .float then some (count * 4)
  else if type = .sfixed64 ∨ type = .fixed64 ∨ type = .double then some (count * 8)
  else if type = .bool then some count
  else if type = .string ∨ type = .bytes ∨ type = .message then some 0
  else do
    if array.length < count.toNat then none
    return UInt32.ofNat (← (array.take count.toNat).mapM (scalarSize type)).sum

/-- Fixed elements are appended as they are in memory, `count * size` bytes. -/
def packBufferPackedPayload (type : ProtobufCType) (count : UInt32) (array : List Value) : Option (List UInt8) := do
  let bytes ← packedPayload type count.toNat array
  if type = .sfixed32 ∨ type = .fixed32 ∨ type = .float then return bytes.take (count * 4).toNat
  if type = .sfixed64 ∨ type = .fixed64 ∨ type = .double then return bytes.take (count * 8).toNat
  return bytes

/-- The packed case of `repeated_field_pack_to_buffer`. -/
def packedFieldPackToBuffer (field : ProtobufCFieldDescriptor) (count : UInt32) (array : List Value)
    (buffer : List UInt8) : Option (Nat × List UInt8) := do
  let payloadLen ← getPackedPayloadLength field.type count array
  let header := scratchTag field.id 2 ++ uint32Pack payloadLen
  let buffer := buffer ++ header
  let buffer := buffer ++ (← packBufferPackedPayload field.type count array)
  return (header.length + payloadLen.toNat, buffer)

def unknownFieldPackToBuffer (field : ProtobufCMessageUnknownField) (buffer : List UInt8) : Nat × List UInt8 :=
  let header := scratchTag field.tag field.wireType
  (header.length + field.data.length, buffer ++ header ++ field.data)

def unknownFieldsPackToBuffer : List ProtobufCMessageUnknownField → List UInt8 → Nat × List UInt8
  | [], buffer => (0, buffer)
  | field :: fields, buffer =>
    let (n, buffer) := unknownFieldPackToBuffer field buffer
    let (rv, buffer) := unknownFieldsPackToBuffer fields buffer
    (n + rv, buffer)

mutual
def messagePackToBuffer (D : Descriptors) : ProtobufCMessage → List UInt8 → Option (Nat × List UInt8)
  | .mk descriptor members unknownFields, buffer => do
    let (rv, buffer) ← fieldsPackToBuffer D (D descriptor).fields members buffer
    let (n, buffer) := unknownFieldsPackToBuffer unknownFields buffer
    return (rv + n, buffer)

def fieldsPackToBuffer (D : Descriptors) :
    List ProtobufCFieldDescriptor → List Member → List UInt8 → Option (Nat × List UInt8)
  | [], [], buffer => some (0, buffer)
  | field :: fields, member :: members, buffer => do
    let (n, buffer) ← fieldPackToBuffer D field member buffer
    let (rv, buffer) ← fieldsPackToBuffer D fields members buffer
    return (n + rv, buffer)
  | _, _, _ => none

/-- `repeated_field_pack_to_buffer` takes the `size_t` count as an `unsigned`. -/
def fieldPackToBuffer (D : Descriptors) (field : ProtobufCFieldDescriptor) :
    Member → List UInt8 → Option (Nat × List UInt8)
  | .single has member, buffer => do
    if field.label = .repeated then none
    if omitted field has member then return (0, buffer)
    requiredFieldPackToBuffer D field member buffer
  | .repeated count array, buffer => do
    if field.label ≠ .repeated then none
    if UInt32.ofNat count = 0 then return (0, buffer)
    if field.packed then packedFieldPackToBuffer field (UInt32.ofNat count) array buffer
    else
      let (rv, buffer) ← arrayPackToBuffer D field (UInt32.ofNat count).toNat array buffer
      return ((UInt32.ofNat rv).toNat, buffer)

def arrayPackToBuffer (D : Descriptors) (field : ProtobufCFieldDescriptor) :
    Nat → List Value → List UInt8 → Option (Nat × List UInt8)
  | 0, _, buffer => some (0, buffer)
  | _ + 1, [], _ => none
  | count + 1, v :: array, buffer => do
    let (n, buffer) ← requiredFieldPackToBuffer D field v buffer
    let (rv, buffer) ← arrayPackToBuffer D field count array buffer
    return (n + rv, buffer)

/-- The cases but the last append the tag, and the bytes that `required_field_pack`
writes behind it. The last returns `sublen`, not what it has appended. -/
def requiredFieldPackToBuffer (D : Descriptors) (field : ProtobufCFieldDescriptor) :
    Value → List UInt8 → Option (Nat × List UInt8)
  | .message none, buffer => do
    if field.type ≠ .message then none
    let scratch := scratchTag field.id 2 ++ uint32Pack 0
    return (scratch.length, buffer ++ scratch)
  | .message (some msg), buffer => do
    if field.type ≠ .message then none
    let sublen ← messageGetPackedSize D msg
    let scratch := scratchTag field.id 2 ++ uint32Pack (UInt32.ofNat sublen)
    let (_, buffer) ← messagePackToBuffer D msg (buffer ++ scratch)
    return (scratch.length + sublen, buffer)
  | member, buffer => do
    let (wireType, bytes) ← scalarPack field.type member
    let scratch := scratchTag field.id wireType ++ bytes
    return (scratch.length, buffer ++ scratch)
end

variable {D : Descriptors}

theorem scratchTag_eq (id : UInt32) {wireType : UInt8} (hw : wireType.toNat < 8) :
    scratchTag id wireType = encode (8 * id.toNat + wireType.toNat) := by
  obtain ⟨tag, tags, htag⟩ := List.exists_cons_of_length_pos (length_encode_pos (8 * id.toNat))
  have hlow := encode_or_low hw htag
  rw [UInt8.ofNat_toNat] at hlow
  rw [scratchTag, tagPack_eq, htag, hlow]

theorem unknownFieldsPackToBuffer_eq {unknownFields : List ProtobufCMessageUnknownField}
    (h : ∀ field ∈ unknownFields, field.wireType.toNat < 8) (buffer : List UInt8) :
    unknownFieldsPackToBuffer unknownFields buffer =
      ((stream (unknownFields.map unknownRecord)).length, buffer ++ stream (unknownFields.map unknownRecord)) := by
  induction unknownFields generalizing buffer with
  | nil => rw [List.map_nil, stream_nil, List.append_nil]; rfl
  | cons field fields ih =>
    rw [List.forall_mem_cons] at h
    simp only [unknownFieldsPackToBuffer, unknownFieldPackToBuffer, ih h.2, scratchTag_eq field.tag h.1, List.map_cons,
      stream_cons, unknownRecord, Record.bytes, List.length_append, List.append_assoc, Nat.add_assoc]

theorem requiredFieldPackToBuffer_scalar {field : ProtobufCFieldDescriptor} {v : Value} (h : ValueFits D field v)
    (hmsg : v.ctype ≠ .message) (buffer : List UInt8) : requiredFieldPackToBuffer D field v buffer =
      some ((Record.mk field.id.toNat field.type.wireType (valueBody D field v)).bytes.length,
        buffer ++ (Record.mk field.id.toNat field.type.wireType (valueBody D field v)).bytes) := by
  obtain ⟨hctype, hblock, hbody, -⟩ := h.scalar hmsg
  obtain ⟨wireType, hpack, hwire, -⟩ := scalarPack_spec hctype hmsg hblock
  have hlt : wireType.toNat < 8 := by rw [hwire]; exact wireType_lt _
  have hscalar : requiredFieldPackToBuffer D field v buffer = (do
      let (wireType, bytes) ← scalarPack field.type v
      return ((scratchTag field.id wireType ++ bytes).length, buffer ++ (scratchTag field.id wireType ++ bytes))) := by
    cases v with
    | message msg => exact absurd rfl hmsg
    | _ => rfl
  rw [hscalar, hpack, hbody, ← hwire, Record.bytes, ← scratchTag_eq field.id hlt]
  rfl

/-- Where all elements have one size. -/
theorem length_payload_fixed {field : ProtobufCFieldDescriptor} {size : Nat} (hp : isPackableType field.type = true)
    (hsize : ∀ v : Value, v.ctype = field.type.ctype → (scalarBody field.type v).length = size) :
    ∀ {array : List Value}, ArrayFits D field array →
      (arrayBodies D field array.length array).flatten.length = array.length * size := by
  intro array h
  induction array with
  | nil => exact (Nat.zero_mul size).symm
  | cons v array ih =>
    obtain ⟨⟨-, hv⟩, hrest⟩ := h
    obtain ⟨hctype, -, hbody, -⟩ := hv.scalar (hv.not_message hp)
    rw [List.length_cons, arrayBodies, List.flatten_cons, List.length_append, hbody, hsize v hctype,
      ih hrest, Nat.succ_mul, Nat.add_comm]

theorem length_scalarBody_fixed {type : ProtobufCType} {v : Value} (hv : v.ctype = type.ctype) :
    (type = .sfixed32 ∨ type = .fixed32 ∨ type = .float → (scalarBody type v).length = 4) ∧
      (type = .sfixed64 ∨ type = .fixed64 ∨ type = .double → (scalarBody type v).length = 8) ∧
      (type = .bool → (scalarBody type v).length = 1) := by
  refine ⟨fun h => ?_, fun h => ?_, fun h => ?_⟩
  · rcases h with rfl | rfl | rfl <;> cases v <;> cases hv <;> exact length_storeU32 _
  · rcases h with rfl | rfl | rfl <;> cases v <;> cases hv <;> exact Endian.length_toLE 8 _
  · subst h
    cases v <;> cases hv
    rfl

theorem sizes_payload {field : ProtobufCFieldDescriptor} (hp : isPackableType field.type = true) :
    ∀ {array : List Value}, ArrayFits D field array →
      array.mapM (scalarSize field.type) = some ((arrayBodies D field array.length array).map List.length) := by
  intro array h
  induction array with
  | nil => rfl
  | cons v array ih =>
    obtain ⟨⟨-, hv⟩, hrest⟩ := h
    have hmsg := hv.not_message hp
    obtain ⟨hctype, hblock, hbody, -⟩ := hv.scalar hmsg
    obtain ⟨-, -, -, hsize⟩ := scalarPack_spec hctype hmsg hblock
    rw [List.mapM_cons, hsize, ih hrest, List.length_cons, arrayBodies, hbody]
    rfl

theorem toNat_ofNat_lt {n : Nat} (h : n < 2 ^ 32) : (UInt32.ofNat n).toNat = n := by
  rw [UInt32.toNat_ofNat']
  exact Nat.mod_eq_of_lt h

theorem getPackedPayloadLength_eq {field : ProtobufCFieldDescriptor} (hp : isPackableType field.type = true)
    {array : List Value} (h : ArrayFits D field array) (hcount : array.length < 2 ^ 32) :
    getPackedPayloadLength field.type (UInt32.ofNat array.length) array =
      some (UInt32.ofNat (arrayBodies D field array.length array).flatten.length) := by
  have hfixed := fun {size} => @length_payload_fixed D field size hp
  rw [getPackedPayloadLength]
  split_ifs with h4 h8 h1 hprefixed hshort
  · rw [hfixed (fun v hv => (length_scalarBody_fixed hv).1 h4) h, UInt32.ofNat_mul]
    rfl
  · rw [hfixed (fun v hv => (length_scalarBody_fixed hv).2.1 h8) h, UInt32.ofNat_mul]
    rfl
  · rw [hfixed (fun v hv => (length_scalarBody_fixed hv).2.2 h1) h, Nat.mul_one]
  · rcases hprefixed with htype | htype | htype <;> rw [htype] at hp <;> cases hp
  · rw [toNat_ofNat_lt hcount] at hshort
    exact absurd hshort (Nat.lt_irrefl _)
  · rw [toNat_ofNat_lt hcount, List.take_length, sizes_payload hp h, List.length_flatten]
    rfl

theorem packBufferPackedPayload_eq {field : ProtobufCFieldDescriptor} (hp : isPackableType field.type = true)
    {array : List Value} (h : ArrayFits D field array) (hcount : array.length < 2 ^ 32)
    (hlen : (arrayBodies D field array.length array).flatten.length < 2 ^ 32) :
    packBufferPackedPayload field.type (UInt32.ofNat array.length) array =
      some (arrayBodies D field array.length array).flatten := by
  have hfixed := fun {size} => @length_payload_fixed D field size hp
  have htake : ∀ size : Nat, (arrayBodies D field array.length array).flatten.length = array.length * size →
      (arrayBodies D field array.length array).flatten.take (UInt32.ofNat array.length * UInt32.ofNat size).toNat =
        (arrayBodies D field array.length array).flatten := fun size hsize => by
    rw [← UInt32.ofNat_mul, ← hsize, toNat_ofNat_lt hlen, List.take_length]
  rw [packBufferPackedPayload, toNat_ofNat_lt hcount, packedPayload_eq hp h, Option.bind_eq_bind, Option.bind_some]
  split_ifs with h4 h8
  · exact congrArg some (htake 4 (hfixed (fun v hv => (length_scalarBody_fixed hv).1 h4) h))
  · exact congrArg some (htake 8 (hfixed (fun v hv => (length_scalarBody_fixed hv).2.1 h8) h))
  · rfl

/-- The length that is appended first is that of the payload behind it. -/
theorem packedFieldPackToBuffer_eq {field : ProtobufCFieldDescriptor} (hp : isPackableType field.type = true)
    {array : List Value} (h : ArrayFits D field array) (hcount : array.length < 2 ^ 32)
    (hlen : (arrayBodies D field array.length array).flatten.length < 2 ^ 32) (buffer : List UInt8) :
    packedFieldPackToBuffer field (UInt32.ofNat array.length) array buffer =
      some ((Record.mk field.id.toNat 2 (prefixed (arrayBodies D field array.length array).flatten)).bytes.length,
        buffer ++ (Record.mk field.id.toNat 2 (prefixed (arrayBodies D field array.length array).flatten)).bytes) := by
  rw [packedFieldPackToBuffer, getPackedPayloadLength_eq hp h hcount, packBufferPackedPayload_eq hp h hcount hlen]
  simp only [Option.bind_eq_bind, Option.bind_some, Option.pure_def, toNat_ofNat_lt hlen, scratchTag_eq field.id
    (show (2 : UInt8).toNat < 8 by decide), Record.bytes, prefixed, List.length_append, List.append_assoc, Nat.add_assoc]
  rfl

theorem length_le_payload {field : ProtobufCFieldDescriptor} (hp : isPackableType field.type = true)
    {array : List Value} (h : ArrayFits D field array) :
    array.length ≤ (arrayBodies D field array.length array).flatten.length := by
  have hmin : 0 < getTypeMinSize field.type := by
    rw [getTypeMinSize]
    split_ifs <;> decide
  exact Nat.le_trans (Nat.le_mul_of_pos_left _ hmin) (payload_bounds hp h).1

theorem getTagSize_pos (number : UInt32) : 0 < getTagSize number := by
  rw [getTagSize_eq, tagPack_eq]
  exact length_encode_pos _

mutual
theorem messagePackToBuffer_eq : ∀ {msg : ProtobufCMessage}, MessageFits D msg → (messageBytes D msg).length < 2 ^ 32 →
    ∀ buffer, messagePackToBuffer D msg buffer = some ((messageBytes D msg).length, buffer ++ messageBytes D msg)
  | .mk descriptor members unknownFields, h, hlen, buffer => by
    rw [MessageFits] at h
    rw [messageBytes, messageRecords, stream_append, List.length_append] at hlen ⊢
    rw [messagePackToBuffer, fieldsPackToBuffer_eq h.1 (by omega)]
    simp only [Option.bind_eq_bind, Option.bind_some, unknownFieldsPackToBuffer_eq h.2, List.append_assoc]
    rfl

theorem fieldsPackToBuffer_eq : ∀ {fields : List ProtobufCFieldDescriptor} {members : List Member},
    FieldsFit D fields members → (stream (fieldsRecords D fields members)).length < 2 ^ 32 →
    ∀ buffer, fieldsPackToBuffer D fields members buffer =
      some ((stream (fieldsRecords D fields members)).length, buffer ++ stream (fieldsRecords D fields members))
  | [], [], _, _, buffer => congrArg (fun buffer => some (0, buffer)) (List.append_nil buffer).symm
  | field :: fields, member :: members, h, hlen, buffer => by
    rw [FieldsFit] at h
    rw [fieldsRecords, stream_append, List.length_append] at hlen ⊢
    rw [fieldsPackToBuffer, fieldPackToBuffer_eq h.1 (by omega)]
    simp only [Option.bind_eq_bind, Option.bind_some, fieldsPackToBuffer_eq h.2 (by omega), List.append_assoc]
    rfl
  | [], _ :: _, h, _, _ => False.elim h
  | _ :: _, [], h, _, _ => False.elim h

theorem fieldPackToBuffer_eq {field : ProtobufCFieldDescriptor} : ∀ {member : Member}, FieldFits D field member →
    (stream (fieldRecords D field member)).length < 2 ^ 32 →
    ∀ buffer, fieldPackToBuffer D field member buffer =
      some ((stream (fieldRecords D field member)).length, buffer ++ stream (fieldRecords D field member))
  | .single has v, h, hlen, buffer => by
    rw [FieldFits] at h
    rw [fieldRecords] at hlen ⊢
    rw [fieldPackToBuffer, if_neg h.1]
    split at hlen
    · rw [if_pos ‹_›, if_pos ‹_›, stream_nil, List.append_nil]
      rfl
    · rw [stream_cons, stream_nil, List.append_nil] at hlen
      rw [if_neg ‹_›, if_neg ‹_›, stream_cons, stream_nil, List.append_nil]
      exact requiredFieldPackToBuffer_eq h.2 hlen buffer
  | .repeated count array, h, hlen, buffer => by
    obtain ⟨hlabel, rfl, harray, hpackable⟩ := h
    rw [fieldPackToBuffer, if_neg (not_not.2 hlabel)]
    beta_reduce
    rw [fieldRecords] at hlen ⊢
    by_cases hcount : array.length = 0
    · obtain rfl := List.eq_nil_of_length_eq_zero hcount
      cases field.packed <;> exact congrArg (fun buffer => some (0, buffer)) (List.append_nil buffer).symm
    have hnonzero : array.length < 2 ^ 32 → ¬UInt32.ofNat array.length = 0 := fun hlt heq => by
      have := congrArg UInt32.toNat heq
      rw [toNat_ofNat_lt hlt] at this
      exact hcount this
    cases hpacked : field.packed with
    | true =>
      rw [hpacked, Bool.not_true, if_neg Bool.false_ne_true, if_neg hcount, stream_cons, stream_nil,
        List.append_nil] at hlen
      have hpayload : (arrayBodies D field array.length array).flatten.length < 2 ^ 32 := by
        rw [length_record _ (by decide), length_prefixed] at hlen
        omega
      have hshort : array.length < 2 ^ 32 :=
        Nat.lt_of_le_of_lt (length_le_payload (hpackable hpacked) harray) hpayload
      rw [if_neg (hnonzero hshort), if_pos rfl, Bool.not_true, if_neg Bool.false_ne_true, if_neg hcount, stream_cons,
        stream_nil, List.append_nil]
      exact packedFieldPackToBuffer_eq (hpackable hpacked) harray hshort hpayload buffer
    | false =>
      rw [hpacked, Bool.not_false, if_pos rfl] at hlen
      have hshort : array.length < 2 ^ 32 := by
        rw [length_stream_map _ (wireType_lt _), length_arrayBodies] at hlen
        have hmul := Nat.le_mul_of_pos_left array.length (getTagSize_pos field.id)
        omega
      rw [if_neg (hnonzero hshort), if_neg Bool.false_ne_true, Bool.not_false, if_pos rfl, toNat_ofNat_lt hshort,
        arrayPackToBuffer_eq harray hlen, Option.bind_eq_bind, Option.bind_some]
      simp only [toNat_ofNat_lt hlen]
      rfl

theorem arrayPackToBuffer_eq {field : ProtobufCFieldDescriptor} : ∀ {array : List Value}, ArrayFits D field array →
    (stream ((arrayBodies D field array.length array).map fun body => ⟨field.id.toNat, field.type.wireType, body⟩)).length
      < 2 ^ 32 →
    ∀ buffer, arrayPackToBuffer D field array.length array buffer =
      some ((stream ((arrayBodies D field array.length array).map
          fun body => ⟨field.id.toNat, field.type.wireType, body⟩)).length,
        buffer ++ stream ((arrayBodies D field array.length array).map
          fun body => ⟨field.id.toNat, field.type.wireType, body⟩))
  | [], _, _, buffer => congrArg (fun buffer => some (0, buffer)) (List.append_nil buffer).symm
  | v :: array, h, hlen, buffer => by
    rw [ArrayFits] at h
    rw [List.length_cons, arrayBodies, List.map_cons, stream_cons, List.length_append] at hlen ⊢
    rw [arrayPackToBuffer, requiredFieldPackToBuffer_eq h.1.2 (by omega)]
    simp only [Option.bind_eq_bind, Option.bind_some, arrayPackToBuffer_eq h.2 (by omega), List.append_assoc]
    rfl

theorem requiredFieldPackToBuffer_eq {field : ProtobufCFieldDescriptor} : ∀ {v : Value}, ValueFits D field v →
    (Record.mk field.id.toNat field.type.wireType (valueBody D field v)).bytes.length < 2 ^ 32 →
    ∀ buffer, requiredFieldPackToBuffer D field v buffer =
      some ((Record.mk field.id.toNat field.type.wireType (valueBody D field v)).bytes.length,
        buffer ++ (Record.mk field.id.toNat field.type.wireType (valueBody D field v)).bytes)
  | .message none, h, _, buffer => by
    rw [ValueFits] at h
    rw [requiredFieldPackToBuffer, if_neg (not_not.2 h), valueBody, h, scratchTag_eq field.id (by decide), Record.bytes]
    rfl
  | .message (some msg), h, hlen, buffer => by
    rw [ValueFits] at h
    have hlt : (messageBytes D msg).length < 2 ^ 32 := by
      rw [length_record _ (wireType_lt _), valueBody, length_prefixed] at hlen
      rw [messageBytes]
      omega
    rw [requiredFieldPackToBuffer, if_neg (not_not.2 h.1), messageGetPackedSize_eq h.2.2, valueBody, h.1]
    simp only [Option.bind_eq_bind, Option.bind_some, messagePackToBuffer_eq h.2.2 hlt, Record.bytes, prefixed,
      scratchTag_eq field.id (show (2 : UInt8).toNat < 8 by decide), List.length_append, List.append_assoc, Nat.add_assoc]
    rfl
  | .word32 _, h, _, buffer => requiredFieldPackToBuffer_scalar h CType.noConfusion buffer
  | .word64 _, h, _, buffer => requiredFieldPackToBuffer_scalar h CType.noConfusion buffer
  | .boolean _, h, _, buffer => requiredFieldPackToBuffer_scalar h CType.noConfusion buffer
  | .string _, h, _, buffer => requiredFieldPackToBuffer_scalar h CType.noConfusion buffer
  | .binary _ _, h, _, buffer => requiredFieldPackToBuffer_scalar h CType.noConfusion buffer
end

/-- `protobuf_c_message_pack_to_buffer` appends the bytes that `protobuf_c_message_pack` writes. -/
theorem messagePackToBuffer_agrees {msg : ProtobufCMessage} (h : MessageFits D msg) {n : Nat}
    (hsize : messageGetPackedSize D msg = some n) (hn : n < 2 ^ 32) (out : Nat) (mem : Mem) (buffer : List UInt8) :
    ∃ mem', messagePack D msg out mem = some (n, mem') ∧
      messagePackToBuffer D msg buffer = some (n, buffer ++ read mem' out n) := by
  obtain rfl : (messageBytes D msg).length = n := Option.some.inj ((messageGetPackedSize_eq h).symm.trans hsize)
  refine ⟨_, messagePack_eq h hn out mem, ?_⟩
  rw [read_write_same, messagePackToBuffer_eq h hn]

theorem messagePackToBuffer_agrees_example : ∃ mem',
    messagePack exampleDescriptors evenMoreExample 100 (fun _ => 0) = some (38, mem') ∧
      messagePackToBuffer exampleDescriptors evenMoreExample [0] = some (38, [0] ++ read mem' 100 38) :=
  messagePackToBuffer_agrees evenMoreExample_fits (by decide) (by decide) 100 (fun _ => 0) [0]

end KSock.Protobuf
