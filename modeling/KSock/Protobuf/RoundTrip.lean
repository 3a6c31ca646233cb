import KSock.Protobuf.Check
import Mathlib.Data.List.TakeWhile
/-!
# What comes back

A message is packed and unpacked again. A member that was omitted is what the
descriptor initializes it to; a string ends at its first NUL; a flag says what
`parse_optional_member` makes of it. All other values, and the unknown fields
that can be read back at all, are the same.
-/
open KSockLib KSockLib.Memory KSockLib.Varint KSockLib.Wire KSockLib.Endian

namespace KSock.Protobuf

def Member.has : Member → Bool
  | .single has _ => has
  | .repeated _ _ => false

mutual
/-- What comes back of a message. -/
def readMessage (D : Descriptors) : ProtobufCMessage → ProtobufCMessage
  | .mk descriptor members unknownFields =>
    .mk descriptor (readMembers D (D descriptor).fields (D descriptor).init members) unknownFields

def readMembers (D : Descriptors) : List ProtobufCFieldDescriptor → List Member → List Member → List Member
  | field :: fields, init :: inits, member :: members =>
    readMember D field init member :: readMembers D fields inits members
  | _, _, _ => []

def readMember (D : Descriptors) (field : ProtobufCFieldDescriptor) (init : Member) : Member → Member
  | .single has v =>
    if omitted field has v then init
    else .single (init.has || field.label ≠ .required && field.quantifier) (readValue D v)
  | .repeated n array => .repeated n (readArray D array)

def readArray (D : Descriptors) : List Value → List Value
  | [] => []
  | v :: array => readValue D v :: readArray D array

def readValue (D : Descriptors) : Value → Value
  | .string str => .string (str.map cstring)
  | .message (some msg) => .message (some (readMessage D msg))
  | v => v
end

mutual
/-- The unknown fields have numbers that no field has, and bodies of their wire types. -/
def MessageForeign (D : Descriptors) : ProtobufCMessage → Prop
  | .mk descriptor members unknownFields => MembersForeign D members ∧
    ∀ field ∈ unknownFields, (unknownRecord field).Valid ∧ fieldIndex (D descriptor).fields field.tag = none

def MembersForeign (D : Descriptors) : List Member → Prop
  | [] => True
  | member :: members => MemberForeign D member ∧ MembersForeign D members

def MemberForeign (D : Descriptors) : Member → Prop
  | .single _ v => ValueForeign D v
  | .repeated _ array => ArrayForeign D array

def ArrayForeign (D : Descriptors) : List Value → Prop
  | [] => True
  | v :: array => ValueForeign D v ∧ ArrayForeign D array

def ValueForeign (D : Descriptors) : Value → Prop
  | .message (some msg) => MessageForeign D msg
  | _ => True
end

/-! ## Bodies -/

theorem prefixed_eq {bytes : List UInt8} (h : bytes.length < 2 ^ 31) :
    delimited (prefixed bytes) = some (prefixed bytes) ∧ payload (prefixed bytes) = bytes := by
  have hlen : (UInt32.ofNat bytes.length).toNat = bytes.length := by
    rw [UInt32.toNat_ofNat']
    exact Nat.mod_eq_of_lt (by omega)
  have hmax : (encode bytes.length).length ≤ 5 := length_encode_le (by omega)
  have hfront : front 5 (encode bytes.length ++ bytes) = some (encode bytes.length) :=
    front_append (ends_encode _) hmax _
  rw [prefixed, uint32Pack_eq, hlen]
  constructor
  · simp only [delimited, hfront, Option.bind_eq_bind, Option.bind_some, value_encode]
    rw [if_pos ⟨h, by rw [List.length_append]⟩, ← List.length_append, List.take_length]
    rfl
  · rw [payload, prefixLength, hfront, Option.getD_some, List.drop_left]

theorem bodyOf_varint {n : Nat} (h : n < 2 ^ 64) : bodyOf 0 (encode n) = some (encode n) := by
  have := front_append (ends_encode n) (length_encode_le (k := 9) (by omega)) []
  rwa [List.append_nil] at this

theorem bodyOf_whole {wireType n : Nat} {bs : List UInt8} (hlen : bs.length = n)
    (hw : wireType = 1 ∧ n = 8 ∨ wireType = 5 ∧ n = 4) : bodyOf wireType bs = some bs := by
  rcases hw with ⟨rfl, rfl⟩ | ⟨rfl, rfl⟩
  · exact (if_pos (Nat.le_of_eq hlen.symm)).trans (congrArg some (List.take_of_length_le (Nat.le_of_eq hlen)))
  · exact (if_pos (Nat.le_of_eq hlen.symm)).trans (congrArg some (List.take_of_length_le (Nat.le_of_eq hlen)))

theorem ofNat_signExtend (v : UInt32) : UInt32.ofNat (signExtend v) = v := by
  have hlt := v.toNat_lt
  apply UInt32.toNat_inj.1
  rw [UInt32.toNat_ofNat', signExtend]
  split <;> omega

/-- The value of a cell that is no message is in its body. -/
theorem scalarBody_read {type : ProtobufCType} {v : Value} (hv : v.ctype = type.ctype) (hmsg : v.ctype ≠ .message)
    (hblock : ∀ {len data}, v = .binary len data → len = data.length) (hnull : v.isNull = false)
    (hshort : (scalarBody type v).length < 2 ^ 31) (D : Descriptors) :
    bodyOf type.wireType (scalarBody type v) = some (scalarBody type v) ∧
      decodeScalar type (scalarBody type v) = readValue D v := by
  have h32 : ∀ v : UInt32, bodyOf 0 (uint32Pack v) = some (uint32Pack v) ∧ UInt32.ofNat (value (uint32Pack v)) = v :=
    fun v => by
      rw [uint32Pack_eq, value_encode, UInt32.ofNat_toNat]
      exact ⟨bodyOf_varint (Nat.lt_trans v.toNat_lt (by decide)), rfl⟩
  have h64 : ∀ v : UInt64, bodyOf 0 (uint64Pack v) = some (uint64Pack v) ∧ UInt64.ofNat (value (uint64Pack v)) = v :=
    fun v => by
      rw [uint64Pack_eq, value_encode, UInt64.ofNat_toNat]
      exact ⟨bodyOf_varint v.toNat_lt, rfl⟩
  have hint : ∀ v : UInt32, bodyOf 0 (int32Pack v) = some (int32Pack v) ∧ UInt32.ofNat (value (int32Pack v)) = v :=
    fun v => by
      have hlt := v.toNat_lt
      rw [int32Pack_eq, value_encode, ofNat_signExtend]
      exact ⟨bodyOf_varint (by unfold signExtend; split <;> omega), rfl⟩
  have hfixed32 : ∀ v : UInt32, bodyOf 5 (storeU32 v) = some (storeU32 v) ∧ loadU32 ((storeU32 v).take 4) = v :=
    fun v => by
      rw [List.take_of_length_le (Nat.le_of_eq (length_storeU32 v))]
      refine ⟨bodyOf_whole (length_storeU32 v) (.inr ⟨rfl, rfl⟩), ?_⟩
      rw [loadU32, storeU32, ofLE_toLE_of_lt v.toNat_lt, UInt32.ofNat_toNat]
  have hfixed64 : ∀ v : UInt64, bodyOf 1 (fixed64Pack v) = some (fixed64Pack v) ∧
      UInt64.ofNat (ofLE ((fixed64Pack v).take 8)) = v := fun v => by
    have hlen : (fixed64Pack v).length = 8 := length_toLE 8 v.toNat
    rw [List.take_of_length_le (Nat.le_of_eq hlen)]
    refine ⟨bodyOf_whole hlen (.inl ⟨rfl, rfl⟩), ?_⟩
    rw [fixed64Pack, storeU64, ofLE_toLE_of_lt v.toNat_lt, UInt64.ofNat_toNat]
  cases v with
  | word32 v =>
    cases type <;> cases hv
    case word32.int32.refl => exact ⟨(hint v).1, congrArg Value.word32 (hint v).2⟩
    case word32.enum.refl => exact ⟨(hint v).1, congrArg Value.word32 (hint v).2⟩
    case word32.uint32.refl => exact ⟨(h32 v).1, congrArg Value.word32 (h32 v).2⟩
    case word32.sint32.refl =>
      refine ⟨(h32 _).1, congrArg Value.word32 ?_⟩
      change (unzigzag32 (UInt32.ofNat (value (uint32Pack (zigzag32 v.toInt32))))).toUInt32 = v
      rw [(h32 _).2, unzigzag32_zigzag32, UInt32.toUInt32_toInt32]
    all_goals exact ⟨(hfixed32 v).1, congrArg Value.word32 (hfixed32 v).2⟩
  | word64 v =>
    cases type <;> cases hv
    case word64.int64.refl => exact ⟨(h64 v).1, congrArg Value.word64 (h64 v).2⟩
    case word64.uint64.refl => exact ⟨(h64 v).1, congrArg Value.word64 (h64 v).2⟩
    case word64.sint64.refl =>
      refine ⟨(h64 _).1, congrArg Value.word64 ?_⟩
      change (unzigzag64 (UInt64.ofNat (value (uint64Pack (zigzag64 v.toInt64))))).toUInt64 = v
      rw [(h64 _).2, unzigzag64_zigzag64, UInt64.toUInt64_toInt64]
    all_goals exact ⟨(hfixed64 v).1, congrArg Value.word64 (hfixed64 v).2⟩
  | boolean b =>
    cases type <;> cases hv
    cases b <;> exact ⟨rfl, rfl⟩
  | string str =>
    cases type <;> cases hv
    cases str with
    | none => cases hnull
    | some str =>
      have hbody : scalarBody .string (.string (some str)) = prefixed (cstring str) := rfl
      rw [hbody] at hshort ⊢
      obtain ⟨hwhole, hpayload⟩ := prefixed_eq
        (show (cstring str).length < 2 ^ 31 by rw [prefixed, List.length_append] at hshort; omega)
      refine ⟨hwhole, ?_⟩
      rw [decodeScalar, hpayload]
      rfl
  | binary len data =>
    cases type <;> cases hv
    obtain rfl := hblock rfl
    have hbody : scalarBody .bytes (.binary data.length data) = prefixed data := by
      have hcopy : copy data.length data = some data := by rw [copy, if_pos (Nat.le_refl _), List.take_length]
      simp only [scalarBody, scalarPack, binaryDataPack, hcopy]
      rfl
    rw [hbody] at hshort ⊢
    obtain ⟨hwhole, hpayload⟩ := prefixed_eq
      (show data.length < 2 ^ 31 by rw [prefixed, List.length_append] at hshort; omega)
    refine ⟨hwhole, ?_⟩
    rw [decodeScalar, hpayload]
    rfl
  | message msg => exact absurd rfl hmsg

theorem arrayBodies_eq_map {D : Descriptors} (field : ProtobufCFieldDescriptor) (array : List Value) :
    arrayBodies D field array.length array = array.map (valueBody D field) := by
  induction array with
  | nil => rfl
  | cons v array ih => rw [List.length_cons, arrayBodies, ih, List.map_cons]

theorem readArray_eq_map (D : Descriptors) (array : List Value) : readArray D array = array.map (readValue D) := by
  induction array with
  | nil => rfl
  | cons v array ih => rw [readArray, ih, List.map_cons]

/-- The elements of a packed array are in its payload. -/
theorem decodePacked_read {D : Descriptors} {field : ProtobufCFieldDescriptor} (hp : isPackableType field.type = true)
    {array : List Value} (h : ∀ v ∈ array, bodyOf field.type.wireType (valueBody D field v) = some (valueBody D field v) ∧
      decodeScalar field.type (valueBody D field v) = readValue D v) :
    decodePacked field.type (array.map (valueBody D field)).flatten = some (readArray D array) := by
  have hread : (array.map (valueBody D field)).map (decodeScalar field.type) = readArray D array := by
    rw [readArray_eq_map, List.map_map]
    exact List.map_congr_left fun v hv => (h v hv).2
  have hbodies : ∀ d ∈ array.map (valueBody D field), bodyOf field.type.wireType d = some d :=
    List.forall_mem_map.2 fun v hv => (h v hv).1
  have hpieces : ∀ n, 0 < n → (∀ d ∈ array.map (valueBody D field), d.length = n) →
      (if (array.map (valueBody D field)).flatten.length % n = 0 then
        some ((pieces n ((array.map (valueBody D field)).flatten.length / n) (array.map (valueBody D field)).flatten).map
          (decodeScalar field.type)) else none) = some (readArray D array) := by
    intro n hn hlen
    rw [length_flatten_pieces hlen, Nat.mul_mod_left, if_pos rfl, Nat.mul_div_cancel _ hn, pieces_flatten hlen, hread]
  have hwire : field.type.wireType = 0 ∨ field.type.wireType = 1 ∨ field.type.wireType = 5 := by
    cases htype : field.type <;> rw [htype] at hp <;> first | decide | cases hp
  rcases hwire with hw | hw | hw <;> rw [hw] at hbodies
  · have hnumbers : numbers 10 (array.map (valueBody D field)).flatten = _ := numbers_flatten fun d hd =>
      have hfront := front_eq_some (show front 10 d = some d from hbodies d hd)
      ⟨hfront.1, hfront.2.1⟩
    simp only [decodePacked, hw, hnumbers, Option.map_some, hread]
  · simp only [decodePacked, hw]
    exact hpieces 8 (by decide) fun d hd => length_of_bodyOf.1 (hbodies d hd)
  · simp only [decodePacked, hw]
    exact hpieces 4 (by decide) fun d hd => length_of_bodyOf.2 (hbodies d hd)

theorem length_lt_prefixed (bytes : List UInt8) : bytes.length < (prefixed bytes).length := by
  have hpos := length_encode_pos (UInt32.ofNat bytes.length).toNat
  rw [prefixed, uint32Pack_eq, List.length_append]
  omega

/-! ## Values -/

/-- Bytes that `decode` has fuel and room for. -/
def Short (fuel : Nat) (bs : List UInt8) : Prop := bs.length < fuel ∧ bs.length < 2 * maxMembers

/-- The body of a cell is one, and gives the cell back. -/
structure ValueRead (D : Descriptors) (sub : Nat → List UInt8 → Option ProtobufCMessage)
    (field : ProtobufCFieldDescriptor) (v : Value) : Prop where
  body : bodyOf field.type.wireType (valueBody D field v) = some (valueBody D field v)
  value : ∀ old tag, (∀ msg, old ≠ some (.message (some msg))) →
    decodeValue D sub field old ⟨tag, field.type.wireType, valueBody D field v⟩ = some (readValue D v)

def MemberRead (D : Descriptors) (sub : Nat → List UInt8 → Option ProtobufCMessage)
    (field : ProtobufCFieldDescriptor) : Member → Prop
  | .single has v => omitted field has v = false → ValueRead D sub field v
  | .repeated _ array => ∀ v ∈ array, ValueRead D sub field v

section
variable {D : Descriptors} {sub : Nat → List UInt8 → Option ProtobufCMessage} {field : ProtobufCFieldDescriptor}
  {v : Value}

theorem not_rejected (type : ProtobufCType) : ¬(type ≠ .bool ∧ ¬type.wireType = type.wireType) := fun h => h.2 rfl

theorem ValueSound.fits (h : ValueSound D field v) (hnull : v.isNull = false) : ValueFits D field v :=
  (arraySound_iff.1 (show ArraySound D field [v] from ⟨⟨hnull, h⟩, trivial⟩)).1.1.2

theorem valueRead_scalar (h : ValueSound D field v) (hmsg : v.ctype ≠ .message) (hnull : v.isNull = false)
    (hshort : (valueBody D field v).length < 2 * maxMembers) : (∀ sub, ValueRead D sub field v) ∧
      decodeScalar field.type (valueBody D field v) = readValue D v := by
  obtain ⟨hctype, hblock, hbody, -⟩ := (h.fits hnull).scalar hmsg
  rw [hbody] at hshort ⊢
  obtain ⟨hwhole, hread⟩ := scalarBody_read hctype hmsg hblock hnull (Nat.lt_trans hshort (by decide)) D
  have hmessage : ¬field.type = .message := fun htype => hmsg (by rw [hctype, htype]; rfl)
  refine ⟨fun sub => ⟨?_, fun old tag _ => ?_⟩, hread⟩
  · rw [hbody]
    exact hwhole
  · rw [decodeValue_scalar hmessage (not_rejected field.type), hbody, hread]

theorem valueRead_message {fuel : Nat} {msg : ProtobufCMessage} (htype : field.type = .message)
    (hdescriptor : msg.descriptor = field.descriptor) (hshort : (messageBytes D msg).length < 2 * maxMembers)
    (hread : decode D fuel msg.descriptor (messageBytes D msg) = some (readMessage D msg)) :
    ValueRead D (decode D fuel) field (.message (some msg)) := by
  have hbody : valueBody D field (.message (some msg)) = prefixed (messageBytes D msg) := rfl
  obtain ⟨hwhole, hpayload⟩ := prefixed_eq (Nat.lt_trans hshort (by decide))
  constructor
  · rw [hbody, htype]
    exact hwhole
  · intro old tag hold
    rw [decodeValue_message htype (by rw [htype]; rfl), hbody, hpayload, ← hdescriptor, hread]
    cases old with
    | none => rfl
    | some old =>
      cases old with
      | message earlier =>
        cases earlier with
        | none => rfl
        | some earlier => exact absurd rfl (hold earlier)
      | _ => rfl

end

/-! ## Records -/

theorem set_getElem?_self {α : Type} {l : List α} {i : Nat} {a : α} (h : l[i]? = some a) : l.set i a = l := by
  obtain ⟨hi, rfl⟩ := List.getElem?_eq_some_iff.1 h
  exact List.set_getElem_self hi

section
variable {D : Descriptors} {sub : Nat → List UInt8 → Option ProtobufCMessage} {desc : ProtobufCMessageDescriptor}
  {field : ProtobufCFieldDescriptor} {i : Nat} {st : Parsing}

theorem recordIndex_field (hd : desc.WellFormed) (hi : desc.fields[i]? = some field) (wireType : Nat)
    (body : List UInt8) : recordIndex desc.fields ⟨field.id.toNat, wireType, body⟩ = some i := by
  rw [recordIndex, UInt32.ofNat_toNat]
  exact fieldIndex_of_id hd.ranges.nodup hi

theorem valid_record (hd : desc.WellFormed) (hi : desc.fields[i]? = some field) {wireType : Nat} {body : List UInt8}
    (hbody : bodyOf wireType body = some body) : (Record.mk field.id.toNat wireType body).Valid :=
  ⟨hd.positive field (List.mem_of_getElem? hi), field.id.toNat_lt, hbody⟩

/-- The elements of an array that is not packed come one after another. -/
theorem foldlM_array (hd : desc.WellFormed) (hi : desc.fields[i]? = some field)
    (hunpacked : isPackedMember field (UInt8.ofNat field.type.wireType) = false) {values array : List Value} {n : Nat}
    (hread : ∀ v ∈ values, ValueRead D sub field v) (hst : st.members[i]? = some (.repeated n array)) :
    ((values.map (valueBody D field)).map fun body => Record.mk field.id.toNat field.type.wireType body).foldlM
        (applyRecord D sub desc.fields) st =
      some { st with members := st.members.set i (.repeated (n + values.length) (array ++ readArray D values)) } := by
  induction values generalizing st n array with
  | nil =>
    rw [readArray, List.append_nil, List.length_nil, Nat.add_zero, set_getElem?_self hst]
    rfl
  | cons v values ih =>
    rw [List.forall_mem_cons] at hread
    have hlt := (List.getElem?_eq_some_iff.1 hst).1
    rw [List.map_cons, List.map_cons, List.foldlM_cons,
      applyRecord_of_index (recordIndex_field hd hi _ _) hi hst]
    have hvalue := hread.1.value none field.id.toNat (fun _ h => nomatch h)
    simp only [decodeMember, hunpacked, Bool.false_eq_true, if_false, hvalue, Option.bind_eq_bind, Option.bind_some,
      Option.pure_def, Option.map_some]
    refine (ih hread.2 (List.getElem?_set_self hlt)).trans ?_
    rw [List.set_set, readArray, List.append_assoc, List.length_cons, Nat.add_assoc, Nat.add_comm 1]
    rfl

theorem foldlM_unknown {unknownFields : List ProtobufCMessageUnknownField}
    (h : ∀ field ∈ unknownFields, fieldIndex desc.fields field.tag = none) :
    (unknownFields.map unknownRecord).foldlM (applyRecord D sub desc.fields) st =
      some { st with unknownFields := st.unknownFields ++ unknownFields } := by
  induction unknownFields generalizing st with
  | nil =>
    rw [List.append_nil]
    rfl
  | cons field unknownFields ih =>
    rw [List.forall_mem_cons] at h
    have hindex : recordIndex desc.fields (unknownRecord field) = none := by
      rw [recordIndex, unknownRecord, UInt32.ofNat_toNat]
      exact h.1
    have happly : applyRecord D sub desc.fields st (unknownRecord field) =
        some { st with unknownFields := st.unknownFields ++ [field] } := by
      rw [applyRecord, hindex]
      simp only [unknownRecord, UInt32.ofNat_toNat, UInt8.ofNat_toNat]
    rw [List.map_cons, List.foldlM_cons, happly, Option.bind_eq_bind, Option.bind_some, ih h.2, List.append_assoc]
    rfl

/-- A packed array is one record. -/
theorem packedRecord_read (hd : desc.WellFormed) (hi : desc.fields[i]? = some field) (hpacked : field.packed = true)
    {array : List Value} (harray : ArraySound D field array)
    (hshort : (prefixed (array.map (valueBody D field)).flatten).length < 2 * maxMembers) :
    let r : Record := ⟨field.id.toNat, 2, prefixed (array.map (valueBody D field)).flatten⟩
    r.Valid ∧ ∀ st : Parsing, st.members[i]? = some (.repeated 0 []) → applyRecord D sub desc.fields st r =
      some { st with members := st.members.set i (.repeated array.length (readArray D array)) } := by
  have hp := hd.packable field (List.mem_of_getElem? hi) hpacked
  have hlt := length_lt_prefixed (array.map (valueBody D field)).flatten
  have hroom : 2 * maxMembers < 2 ^ 31 := by decide
  obtain ⟨hwhole, hpayload⟩ := prefixed_eq (show (array.map (valueBody D field)).flatten.length < 2 ^ 31 by omega)
  refine ⟨valid_record hd hi hwhole, fun st hst => ?_⟩
  have hmember : isPackedMember field (UInt8.ofNat 2) = true := by
    rw [isPackedMember, hpacked]
    rfl
  have hdecode := decodePacked_read hp fun v hv => by
    obtain ⟨hnull, hsound⟩ := arraySound_iff_forall.1 harray v hv
    have hmsg := (hsound.fits hnull).not_message hp
    have hbody : (valueBody D field v).length ≤ (array.map (valueBody D field)).flatten.length :=
      (List.sublist_flatten_of_mem (List.mem_map_of_mem hv)).length_le
    obtain ⟨hread, hscalar⟩ := valueRead_scalar hsound hmsg hnull (by omega)
    exact ⟨(hread sub).body, hscalar⟩
  rw [applyRecord_of_index (recordIndex_field hd hi _ _) hi hst, decodeMember, if_pos hmember, hpayload, hdecode]
  simp only [Option.bind_eq_bind, Option.bind_some, Option.pure_def, Option.map_some, Nat.zero_add, List.nil_append]
  rw [readArray_eq_map, List.length_map]

/-- The records of a field are valid, and give the member back. -/
theorem fieldRecords_read (hd : desc.WellFormed) (hi : desc.fields[i]? = some field) {init member : Member}
    (hinit : InitMember field init) (hsound : FieldSound D field member) (hread : MemberRead D sub field member)
    (hshort : ∀ r ∈ fieldRecords D field member, r.body.length < 2 * maxMembers) :
    (∀ r ∈ fieldRecords D field member, r.Valid) ∧ ∀ st : Parsing, st.members[i]? = some init →
      (fieldRecords D field member).foldlM (applyRecord D sub desc.fields) st =
        some { st with members := st.members.set i (readMember D field init member) } := by
  cases member with
  | single has v =>
    rw [fieldRecords, readMember]
    cases homitted : omitted field has v with
    | true =>
      rw [if_pos rfl, if_pos rfl]
      refine ⟨fun r hr => absurd hr List.not_mem_nil, fun st hst => ?_⟩
      rw [set_getElem?_self hst]
      rfl
    | false =>
      rw [if_neg Bool.false_ne_true, if_neg Bool.false_ne_true]
      have hv := hread homitted
      refine ⟨List.forall_mem_singleton.2 (valid_record hd hi hv.body), fun st hst => ?_⟩
      cases init with
      | «repeated» n array => exact absurd hinit.1 hsound.1
      | single initHas initValue =>
        have hvalue := hv.value (some initValue) field.id.toNat fun msg h => hinit.2.2.1 msg (Option.some.inj h)
        rw [List.foldlM_cons, applyRecord_of_index (recordIndex_field hd hi _ _) hi hst]
        simp only [decodeMember, hvalue, Option.bind_eq_bind, Option.bind_some, Option.pure_def, Option.map_some]
        rfl
  | «repeated» n array =>
    obtain ⟨hlabel, rfl, harray, hpackable⟩ := hsound
    cases init with
    | single initHas initValue => exact absurd hlabel hinit.1
    | «repeated» m initArray =>
      obtain ⟨-, rfl, rfl⟩ := hinit
      rw [fieldRecords] at hshort ⊢
      rw [readMember]
      rw [arrayBodies_eq_map] at hshort ⊢
      cases hpacked : field.packed with
      | false =>
        rw [Bool.not_false, if_pos rfl]
        have hunpacked : isPackedMember field (UInt8.ofNat field.type.wireType) = false := by
          rw [isPackedMember, hpacked]
          cases field.type <;> rfl
        refine ⟨?_, fun st hst => ?_⟩
        · rw [List.forall_mem_map, List.forall_mem_map]
          exact fun v hv => valid_record hd hi (hread v hv).body
        · have hfold := foldlM_array hd hi hunpacked hread hst
          rwa [Nat.zero_add, List.nil_append] at hfold
      | true =>
        rw [hpacked, Bool.not_true, if_neg Bool.false_ne_true] at hshort
        rw [Bool.not_true, if_neg Bool.false_ne_true]
        by_cases hempty : array.length = 0
        · obtain rfl := List.eq_nil_of_length_eq_zero hempty
          rw [if_pos hempty]
          refine ⟨fun r hr => absurd hr List.not_mem_nil, fun st hst => ?_⟩
          rw [readArray, set_getElem?_self (by exact hst)]
          rfl
        rw [if_neg hempty] at hshort ⊢
        rw [List.forall_mem_singleton] at hshort ⊢
        obtain ⟨hvalid, happly⟩ := packedRecord_read hd hi hpacked harray hshort
        refine ⟨hvalid, fun st hst => ?_⟩
        rw [List.foldlM_cons, happly st hst]
        rfl

/-- So are the records of all fields; `done` are the members before these. -/
theorem fieldsRecords_read (hd : desc.WellFormed) {fields before : List ProtobufCFieldDescriptor}
    {inits members done : List Member} (hfields : desc.fields = before ++ fields) (hdone : done.length = before.length)
    (hinit : List.Forall₂ InitMember fields inits) (hsound : FieldsSound D fields members)
    (hread : List.Forall₂ (MemberRead D sub) fields members)
    (hshort : ∀ r ∈ fieldsRecords D fields members, r.body.length < 2 * maxMembers) :
    (∀ r ∈ fieldsRecords D fields members, r.Valid) ∧ ∀ unknownFields,
      (fieldsRecords D fields members).foldlM (applyRecord D sub desc.fields) ⟨done ++ inits, unknownFields⟩ =
        some ⟨done ++ readMembers D fields inits members, unknownFields⟩ := by
  induction hinit generalizing before done members with
  | nil =>
    cases hread
    exact ⟨fun r hr => absurd hr List.not_mem_nil, fun unknownFields => rfl⟩
  | @cons field init fields inits hinit _ ih =>
    cases hread with
    | @cons _ member _ members hmember hmembers =>
      rw [FieldsSound] at hsound
      rw [fieldsRecords, List.forall_mem_append] at hshort
      have hi : desc.fields[before.length]? = some field := by
        rw [hfields, List.getElem?_append_right (Nat.le_refl _), Nat.sub_self, List.getElem?_cons_zero]
      obtain ⟨hvalid, hfold⟩ := fieldRecords_read hd hi hinit hsound.1 hmember hshort.1
      have hdone' : (done ++ [readMember D field init member]).length = (before ++ [field]).length := by
        rw [List.length_append, List.length_append, hdone]
        rfl
      obtain ⟨hvalids, hfolds⟩ := ih (by rw [hfields, List.append_assoc]; rfl) hdone' hsound.2 hmembers hshort.2
      rw [fieldsRecords, List.forall_mem_append]
      refine ⟨⟨hvalid, hvalids⟩, fun unknownFields => ?_⟩
      rw [List.foldlM_append, hfold ⟨done ++ init :: inits, unknownFields⟩ (by
        rw [← hdone, List.getElem?_append_right (Nat.le_refl _), Nat.sub_self, List.getElem?_cons_zero])]
      have hnext := hfolds unknownFields
      rw [List.append_assoc, List.append_assoc, List.singleton_append, List.singleton_append] at hnext
      rw [Option.bind_eq_bind, Option.bind_some, readMembers, ← hnext, ← hdone]
      dsimp only
      rw [List.set_append_right _ _ (Nat.le_refl _), Nat.sub_self, List.set_cons_zero]

end

theorem fieldsRecords_required {D : Descriptors} {fields : List ProtobufCFieldDescriptor} {members : List Member}
    (h : FieldsSound D fields members) {i : Nat} {field : ProtobufCFieldDescriptor} (hi : fields[i]? = some field)
    (hrequired : field.label = .required) : ∃ r ∈ fieldsRecords D fields members, r.tag = field.id.toNat := by
  rw [fieldsSound_iff_forall] at h
  induction h generalizing i with
  | nil => cases hi
  | @cons field' member fields members hmember _ ih =>
    cases i with
    | succ i =>
      obtain ⟨r, hr, htag⟩ := ih hi
      exact ⟨r, List.mem_append_right _ hr, htag⟩
    | zero =>
      cases hi
      cases member with
      | «repeated» n array => exact absurd (hrequired.symm.trans hmember.1) ProtobufCLabel.noConfusion
      | single has v =>
        have homitted : omitted field has v = false := by rw [omitted, hrequired]
        have hrecords : fieldRecords D field (.single has v) =
            [⟨field.id.toNat, field.type.wireType, valueBody D field v⟩] := by
          rw [fieldRecords, homitted, if_neg Bool.false_ne_true]
        exact ⟨_, List.mem_append_left _ (hrecords ▸ List.mem_singleton_self _), rfl⟩

/-! ## Messages -/

section
variable {D : Descriptors} {fuel : Nat}

theorem ctype_eq_string {type : ProtobufCType} (h : type.ctype = .string) : type = .string := by
  cases type <;> first | rfl | cases h

/-- A pointer that is NULL is not packed. -/
theorem omitted_of_isNull {field : ProtobufCFieldDescriptor} {has : Bool} {v : Value}
    (h : FieldSound D field (.single has v)) (hnull : v.isNull = true) : omitted field has v = true := by
  obtain ⟨hlabel, hv, hrequired⟩ := h
  have htype : field.type = .message ∨ field.type = .string := by
    cases v with
    | message msg =>
      cases msg with
      | none => exact .inl hv
      | some msg => cases hnull
    | string str => exact .inr (ctype_eq_string (Eq.symm hv))
    | _ => cases hnull
  cases hl : field.label with
  | required => exact absurd (hnull.symm.trans (hrequired hl)) Bool.noConfusion
  | optional => simp only [omitted, hl, if_pos htype, hnull]
  | none =>
    simp only [omitted, hl]
    cases v with
    | message msg => exact hnull
    | string str =>
      cases str with
      | none => rfl
      | some str => cases hnull
    | _ => cases hnull
  | «repeated» => exact absurd hl hlabel

mutual
theorem decode_messageBytes (hD : ∀ descriptor, (D descriptor).WellFormed) : ∀ {msg : ProtobufCMessage} {fuel : Nat},
    MessageSound D msg → MessageForeign D msg → (messageBytes D msg).length < fuel →
    (messageBytes D msg).length ≤ 2 * maxMembers →
    decode D fuel msg.descriptor (messageBytes D msg) = some (readMessage D msg)
  | .mk descriptor members unknownFields, fuel + 1, hsound, hforeign, hfuel, hroom => by
    have hd := hD descriptor
    rw [MessageSound] at hsound
    rw [MessageForeign] at hforeign
    have hbytes : messageBytes D (.mk descriptor members unknownFields) =
        stream (fieldsRecords D (D descriptor).fields members ++ unknownFields.map unknownRecord) := rfl
    rw [hbytes] at hfuel hroom
    have hshort : ∀ r ∈ fieldsRecords D (D descriptor).fields members, Short fuel r.body := fun r hr => by
      have hlt := length_body_lt (List.mem_append_left (unknownFields.map unknownRecord) hr)
      exact ⟨by omega, by omega⟩
    have hread := membersRead hD hsound.1 hforeign.1 hshort
    obtain ⟨hvalid, hfold⟩ := fieldsRecords_read hd (List.nil_append _).symm List.length_nil hd.init hsound.1 hread
      fun r hr => (hshort r hr).2
    have hunknown : ∀ r ∈ unknownFields.map unknownRecord, r.Valid :=
      List.forall_mem_map.2 fun field hfield => (hforeign.2 field hfield).1
    have hparse := parse_stream (List.forall_mem_append.2 ⟨hvalid, hunknown⟩)
    have hcount := length_of_parse hparse
    have hrequired : HasRequired (D descriptor).fields
        (fieldsRecords D (D descriptor).fields members ++ unknownFields.map unknownRecord) := by
      intro i hi hlabel
      obtain ⟨field, hfield, hlabel⟩ := Option.map_eq_some_iff.1 hlabel
      obtain ⟨r, hr, htag⟩ := fieldsRecords_required hsound.1 hfield hlabel
      exact ⟨r, List.mem_append_left _ hr, by
        rw [recordIndex, htag, UInt32.ofNat_toNat, fieldIndex_of_id hd.ranges.nodup hfield]⟩
    rw [ProtobufCMessage.descriptor, decode_succ, hbytes, hparse, Option.bind_some, if_pos ⟨by omega, hrequired⟩,
      List.foldlM_append]
    have hfields := hfold []
    rw [List.nil_append, List.nil_append] at hfields
    rw [hfields, Option.bind_eq_bind, Option.bind_some, foldlM_unknown fun field hfield => (hforeign.2 field hfield).2]
    rfl

theorem membersRead (hD : ∀ descriptor, (D descriptor).WellFormed) {fuel : Nat} : ∀ {members : List Member}
    {fields : List ProtobufCFieldDescriptor}, FieldsSound D fields members → MembersForeign D members →
    (∀ r ∈ fieldsRecords D fields members, Short fuel r.body) → List.Forall₂ (MemberRead D (decode D fuel)) fields members
  | [], [], _, _, _ => .nil
  | [], _ :: _, hsound, _, _ => hsound.elim
  | _ :: _, [], hsound, _, _ => hsound.elim
  | member :: members, field :: fields, hsound, hforeign, hshort => by
    rw [FieldsSound] at hsound
    rw [fieldsRecords, List.forall_mem_append] at hshort
    exact .cons (memberRead hD hsound.1 hforeign.1 hshort.1) (membersRead hD hsound.2 hforeign.2 hshort.2)

theorem memberRead (hD : ∀ descriptor, (D descriptor).WellFormed) {fuel : Nat} {field : ProtobufCFieldDescriptor} :
    ∀ {member : Member}, FieldSound D field member → MemberForeign D member →
    (∀ r ∈ fieldRecords D field member, Short fuel r.body) → MemberRead D (decode D fuel) field member
  | .single has v, hsound, hforeign, hshort => fun homitted => by
    rw [fieldRecords, homitted, if_neg Bool.false_ne_true, List.forall_mem_singleton] at hshort
    refine valueRead hD ?_ hsound.2.1 hforeign hshort
    by_contra hnull
    rw [omitted_of_isNull hsound (Bool.eq_true_of_not_eq_false hnull)] at homitted
    cases homitted
  | .repeated n array, hsound, hforeign, hshort => by
    obtain ⟨-, rfl, harray, -⟩ := hsound
    refine arrayRead hD harray hforeign fun v hv => ?_
    rw [fieldRecords, arrayBodies_eq_map] at hshort
    cases hpacked : field.packed with
    | false =>
      rw [hpacked, Bool.not_false, if_pos rfl, List.forall_mem_map, List.forall_mem_map] at hshort
      exact hshort v hv
    | true =>
      have hempty : ¬array.length = 0 := Nat.pos_iff_ne_zero.1 (List.length_pos_of_mem hv)
      rw [hpacked, Bool.not_true, if_neg Bool.false_ne_true, if_neg hempty, List.forall_mem_singleton] at hshort
      have hbody : (valueBody D field v).length ≤ (array.map (valueBody D field)).flatten.length :=
        (List.sublist_flatten_of_mem (List.mem_map_of_mem hv)).length_le
      have hlt := length_lt_prefixed (array.map (valueBody D field)).flatten
      have hle := Nat.lt_of_le_of_lt hbody hlt
      exact ⟨Nat.lt_trans hle hshort.1, Nat.lt_trans hle hshort.2⟩

theorem arrayRead (hD : ∀ descriptor, (D descriptor).WellFormed) {fuel : Nat} {field : ProtobufCFieldDescriptor} :
    ∀ {array : List Value}, ArraySound D field array → ArrayForeign D array →
    (∀ v ∈ array, Short fuel (valueBody D field v)) → ∀ v ∈ array, ValueRead D (decode D fuel) field v
  | [], _, _, _ => fun v hv => absurd hv List.not_mem_nil
  | v :: array, hsound, hforeign, hshort => by
    rw [List.forall_mem_cons] at hshort ⊢
    exact ⟨valueRead hD hsound.1.1 hsound.1.2 hforeign.1 hshort.1, arrayRead hD hsound.2 hforeign.2 hshort.2⟩

theorem valueRead (hD : ∀ descriptor, (D descriptor).WellFormed) {fuel : Nat} {field : ProtobufCFieldDescriptor} :
    ∀ {v : Value}, v.isNull = false → ValueSound D field v → ValueForeign D v → Short fuel (valueBody D field v) →
    ValueRead D (decode D fuel) field v
  | .message none, hnull, _, _, _ => nomatch hnull
  | .message (some msg), _, hsound, hforeign, hshort => by
    have hlt := length_lt_prefixed (messageBytes D msg)
    have hfuel : (messageBytes D msg).length < fuel := Nat.lt_trans hlt hshort.1
    have hroom : (messageBytes D msg).length < 2 * maxMembers := Nat.lt_trans hlt hshort.2
    exact valueRead_message hsound.1 hsound.2.1 hroom
      (decode_messageBytes hD hsound.2.2 hforeign hfuel (Nat.le_of_lt hroom))
  | .word32 _, hnull, hsound, _, hshort => (valueRead_scalar hsound CType.noConfusion hnull hshort.2).1 _
  | .word64 _, hnull, hsound, _, hshort => (valueRead_scalar hsound CType.noConfusion hnull hshort.2).1 _
  | .boolean _, hnull, hsound, _, hshort => (valueRead_scalar hsound CType.noConfusion hnull hshort.2).1 _
  | .string _, hnull, hsound, _, hshort => (valueRead_scalar hsound CType.noConfusion hnull hshort.2).1 _
  | .binary _ _, hnull, hsound, _, hshort => (valueRead_scalar hsound CType.noConfusion hnull hshort.2).1 _
end

theorem messageUnpack_messageBytes (hD : ∀ descriptor, (D descriptor).WellFormed) {msg : ProtobufCMessage}
    (hfits : MessageFits D msg) (hcheck : messageCheck D msg = true) (hforeign : MessageForeign D msg)
    (hroom : (messageBytes D msg).length ≤ 2 * maxMembers) (rest : List UInt8) :
    messageUnpack D ((messageBytes D msg).length + 1) msg.descriptor (messageBytes D msg).length
      (messageBytes D msg ++ rest) = .ok (readMessage D msg) := by
  have hmax : 2 * maxMembers < 2 ^ 32 := by decide
  rw [messageUnpack_eq hD msg.descriptor rest (Nat.lt_succ_self _) (Nat.lt_of_le_of_lt hroom hmax),
    decode_messageBytes hD (messageSound_iff.2 ⟨hfits, hcheck⟩) hforeign (Nat.lt_succ_self _) hroom]
  rfl

/-- What is packed is unpacked, from wherever it has been written. -/
theorem messagePack_messageUnpack (hD : ∀ descriptor, (D descriptor).WellFormed) {msg : ProtobufCMessage}
    (hfits : MessageFits D msg) (hcheck : messageCheck D msg = true) (hforeign : MessageForeign D msg) {n : Nat}
    (hsize : messageGetPackedSize D msg = some n) (hroom : n ≤ 2 * maxMembers) (out : Nat) (mem : Mem) :
    ∃ mem', messagePack D msg out mem = some (n, mem') ∧ ∀ rest,
      messageUnpack D (n + 1) msg.descriptor n (read mem' out n ++ rest) = .ok (readMessage D msg) := by
  obtain rfl : (messageBytes D msg).length = n := Option.some.inj ((messageGetPackedSize_eq hfits).symm.trans hsize)
  have hmax : 2 * maxMembers < 2 ^ 32 := by decide
  refine ⟨_, messagePack_eq hfits (Nat.lt_of_le_of_lt hroom hmax) out mem, fun rest => ?_⟩
  rw [read_write_same]
  exact messageUnpack_messageBytes hD hfits hcheck hforeign hroom rest

end

theorem evenMoreExample_foreign : MessageForeign exampleDescriptors evenMoreExample := by
  have hvalid : (unknownRecord ⟨6, 0, [5]⟩).Valid := ⟨by decide, by decide, rfl⟩
  simp [evenMoreExample, uintsExample, MessageForeign, MembersForeign, MemberForeign, ArrayForeign, ValueForeign, hvalid]
  rfl

theorem messagePack_messageUnpack_example : ∃ mem',
    messagePack exampleDescriptors evenMoreExample 100 (fun _ => 0) = some (38, mem') ∧ ∀ rest,
      messageUnpack exampleDescriptors 39 2 38 (read mem' 100 38 ++ rest) = .ok evenMoreRead :=
  messagePack_messageUnpack exampleDescriptors_wellFormed evenMoreExample_fits rfl evenMoreExample_foreign rfl
    (by decide) 100 (fun _ => 0)

/-! ## Packing again -/

/-- An initial member that is not required is omitted, and an optional member
that has been read is not. -/
def Settled (field : ProtobufCFieldDescriptor) : Member → Prop
  | .single has v => field.label ≠ .required → omitted field has v = true ∧
      (field.label = .optional → field.type = .message ∨ field.type = .string ∨ field.quantifier = true)
  | .repeated _ _ => True

section
variable {D : Descriptors}

theorem cstring_cstring (str : List UInt8) : cstring (cstring str) = cstring str := List.takeWhile_idem

theorem isNull_readValue (v : Value) : (readValue D v).isNull = v.isNull := by
  cases v with
  | string str => cases str <;> rfl
  | message msg => cases msg <;> rfl
  | _ => rfl

theorem fieldIsZeroish_readValue (field : ProtobufCFieldDescriptor) (v : Value) :
    fieldIsZeroish field (readValue D v) = fieldIsZeroish field v := by
  cases v with
  | string str =>
    cases str with
    | none => rfl
    | some str =>
      change decide (cstring (cstring str) = []) = decide (cstring str = [])
      rw [cstring_cstring]
  | message msg => cases msg <;> rfl
  | _ => rfl

theorem omitted_readMember {field : ProtobufCFieldDescriptor} {initHas has : Bool} {init v : Value}
    (hsettled : Settled field (.single initHas init)) (h : omitted field has v = false) :
    omitted field (initHas || field.label ≠ .required && field.quantifier) (readValue D v) = false := by
  cases hlabel : field.label with
  | required => rw [omitted, hlabel]
  | «repeated» => rw [omitted, hlabel]
  | none =>
    rw [omitted, hlabel] at h ⊢
    exact (fieldIsZeroish_readValue field v).trans h
  | optional =>
    obtain ⟨-, hquantifier⟩ := hsettled (by rw [hlabel]; exact ProtobufCLabel.noConfusion)
    rw [omitted, hlabel] at h ⊢
    dsimp only at h ⊢
    split_ifs at h ⊢ with htype
    · rw [isNull_readValue, h]
    · rcases hquantifier hlabel with hmessage | hstring | hquantifier
      · exact absurd (.inl hmessage) htype
      · exact absurd (.inr hstring) htype
      · rw [hquantifier]
        simp

mutual
theorem messageRecords_readMessage (hD : ∀ descriptor, (D descriptor).WellFormed)
    (hS : ∀ descriptor, List.Forall₂ Settled (D descriptor).fields (D descriptor).init) : ∀ {msg : ProtobufCMessage},
    MessageSound D msg → messageRecords D (readMessage D msg) = messageRecords D msg
  | .mk descriptor members unknownFields, h => by
    rw [MessageSound] at h
    rw [readMessage, messageRecords, messageRecords,
      fieldsRecords_readMembers hD hS (hD descriptor).init (hS descriptor) h.1]

theorem fieldsRecords_readMembers (hD : ∀ descriptor, (D descriptor).WellFormed)
    (hS : ∀ descriptor, List.Forall₂ Settled (D descriptor).fields (D descriptor).init) :
    ∀ {members inits : List Member} {fields : List ProtobufCFieldDescriptor}, List.Forall₂ InitMember fields inits →
      List.Forall₂ Settled fields inits → FieldsSound D fields members →
      fieldsRecords D fields (readMembers D fields inits members) = fieldsRecords D fields members
  | [], [], [], _, _, _ => rfl
  | member :: members, init :: inits, field :: fields, .cons hinit hinits, .cons hsettled hsettleds, h => by
    rw [FieldsSound] at h
    rw [readMembers, fieldsRecords, fieldsRecords, fieldRecords_readMember hD hS hinit hsettled h.1,
      fieldsRecords_readMembers hD hS hinits hsettleds h.2]
  | _ :: _, [], [], _, _, h => h.elim
  | [], _ :: _, _ :: _, _, _, h => h.elim

theorem fieldRecords_readMember (hD : ∀ descriptor, (D descriptor).WellFormed)
    (hS : ∀ descriptor, List.Forall₂ Settled (D descriptor).fields (D descriptor).init)
    {field : ProtobufCFieldDescriptor} {init : Member} (hinit : InitMember field init) (hsettled : Settled field init) :
    ∀ {member : Member}, FieldSound D field member →
      fieldRecords D field (readMember D field init member) = fieldRecords D field member
  | .single has v, h => by
    cases init with
    | «repeated» n array => exact absurd hinit.1 h.1
    | single initHas initValue =>
      rw [readMember, fieldRecords]
      cases homitted : omitted field has v with
      | true =>
        have hrequired : field.label ≠ .required := by
          intro hlabel
          rw [omitted, hlabel] at homitted
          cases homitted
        rw [if_pos rfl, if_pos rfl, fieldRecords, if_pos (hsettled hrequired).1]
      | false =>
        rw [if_neg Bool.false_ne_true, if_neg Bool.false_ne_true, fieldRecords, Member.has,
          omitted_readMember hsettled homitted, if_neg Bool.false_ne_true, valueBody_readValue hD hS h.2.1]
  | .repeated n array, h => by
    obtain ⟨-, rfl, harray, -⟩ := h
    rw [readMember, fieldRecords, fieldRecords, arrayBodies_readArray hD hS harray]

theorem arrayBodies_readArray (hD : ∀ descriptor, (D descriptor).WellFormed)
    (hS : ∀ descriptor, List.Forall₂ Settled (D descriptor).fields (D descriptor).init)
    {field : ProtobufCFieldDescriptor} : ∀ {array : List Value}, ArraySound D field array →
      arrayBodies D field array.length (readArray D array) = arrayBodies D field array.length array
  | [], _ => rfl
  | v :: array, h => by
    rw [readArray, List.length_cons, arrayBodies, arrayBodies, valueBody_readValue hD hS h.1.2,
      arrayBodies_readArray hD hS h.2]

theorem valueBody_readValue (hD : ∀ descriptor, (D descriptor).WellFormed)
    (hS : ∀ descriptor, List.Forall₂ Settled (D descriptor).fields (D descriptor).init)
    {field : ProtobufCFieldDescriptor} : ∀ {v : Value}, ValueSound D field v →
      valueBody D field (readValue D v) = valueBody D field v
  | .message none, _ => rfl
  | .message (some msg), h => by
    rw [readValue, valueBody, valueBody, messageRecords_readMessage hD hS h.2.2]
  | .string none, _ => rfl
  | .string (some str), h => by
    have htype : field.type = .string := ctype_eq_string (Eq.symm h)
    change scalarBody field.type (.string (some (cstring str))) = scalarBody field.type (.string (some str))
    rw [htype]
    change uint32Pack (UInt32.ofNat (cstring (cstring str)).length) ++ cstring (cstring str) = _
    rw [cstring_cstring]
    rfl
  | .word32 _, _ => rfl
  | .word64 _, _ => rfl
  | .boolean _, _ => rfl
  | .binary _ _, _ => rfl
end

/-- A message that has been packed and unpacked has the same bytes when it is packed again. -/
theorem messagePack_unpacked (hD : ∀ descriptor, (D descriptor).WellFormed)
    (hS : ∀ descriptor, List.Forall₂ Settled (D descriptor).fields (D descriptor).init) {msg msg' : ProtobufCMessage}
    (hfits : MessageFits D msg) (hcheck : messageCheck D msg = true) (hforeign : MessageForeign D msg) {n : Nat}
    (hsize : messageGetPackedSize D msg = some n) (hroom : n ≤ 2 * maxMembers) {out : Nat} {mem mem' : Mem}
    (hpack : messagePack D msg out mem = some (n, mem'))
    (hunpack : messageUnpack D (n + 1) msg.descriptor n (read mem' out n) = .ok msg') :
    messageGetPackedSize D msg' = some n ∧ ∀ out mem, ∃ mem'', messagePack D msg' out mem = some (n, mem'') ∧
      messageUnpack D (n + 1) msg'.descriptor n (read mem'' out n) = .ok msg' := by
  obtain rfl : (messageBytes D msg).length = n := Option.some.inj ((messageGetPackedSize_eq hfits).symm.trans hsize)
  have hmax : 2 * maxMembers < 2 ^ 32 := by decide
  have hshort : (messageBytes D msg).length < 2 ^ 32 := Nat.lt_of_le_of_lt hroom hmax
  have hread := messageUnpack_messageBytes hD hfits hcheck hforeign hroom []
  rw [List.append_nil] at hread
  cases (messagePack_eq hfits hshort out mem).symm.trans hpack
  rw [read_write_same, hread] at hunpack
  cases hunpack
  have hsound := messageSound_iff.2 ⟨hfits, hcheck⟩
  have hbytes : messageBytes D (readMessage D msg) = messageBytes D msg := by
    rw [messageBytes, messageBytes, messageRecords_readMessage hD hS hsound]
  obtain ⟨hdescriptor, hsound'⟩ := decode_sound hD
    (decode_messageBytes hD hsound hforeign (Nat.lt_succ_self _) hroom)
  obtain ⟨hfits', -⟩ := messageSound_iff.1 hsound'
  rw [messageGetPackedSize_eq hfits', hbytes]
  refine ⟨rfl, fun out mem => ?_⟩
  have hpack' := messagePack_eq hfits' (by rw [hbytes]; exact hshort) out mem
  rw [hbytes] at hpack'
  refine ⟨_, hpack', ?_⟩
  rw [read_write_same, hdescriptor, hread]

end

theorem exampleDescriptors_settled (descriptor : Nat) :
    List.Forall₂ Settled (exampleDescriptors descriptor).fields (exampleDescriptors descriptor).init := by
  have hscalar : ∀ {field v}, field.quantifier = true → omitted field false v = true → Settled field (.single false v) :=
    fun hquantifier homitted _ => ⟨homitted, fun _ => .inr (.inr hquantifier)⟩
  have hrequired : ∀ {field v}, field.label = .required → Settled field (.single false v) :=
    fun hlabel hne => absurd hlabel hne
  match descriptor with
  | 0 => exact .cons (hscalar rfl rfl) (.cons (hscalar rfl rfl) (.cons (hscalar rfl rfl) .nil))
  | 1 => exact .cons (hscalar rfl rfl) (.cons (fun _ => ⟨rfl, fun _ => .inl rfl⟩) .nil)
  | _ + 2 =>
    exact .cons (hrequired rfl) (.cons trivial (.cons (hrequired rfl) (.cons (hrequired rfl)
      (.cons (fun _ => ⟨rfl, fun _ => .inr (.inl rfl)⟩) .nil))))

theorem messagePack_unpacked_example : messageGetPackedSize exampleDescriptors evenMoreRead = some 38 ∧
    ∀ out mem, ∃ mem'', messagePack exampleDescriptors evenMoreRead out mem = some (38, mem'') ∧
      messageUnpack exampleDescriptors 39 2 38 (read mem'' out 38) = .ok evenMoreRead :=
  messagePack_unpacked exampleDescriptors_wellFormed exampleDescriptors_settled evenMoreExample_fits rfl
    evenMoreExample_foreign rfl (by decide) (show messagePack _ _ 100 (fun _ => 0) = _ from rfl) rfl

end KSock.Protobuf
