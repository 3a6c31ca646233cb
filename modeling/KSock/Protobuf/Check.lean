import KSock.Protobuf.Unpacking
import KSock.Protobuf.Encoding
/-!
# `protobuf_c_message_check`, and what unpacking gives

A message that comes out of `protobuf_c_message_unpack` fits its descriptor and
passes `protobuf_c_message_check`: its required pointers are not NULL, and so are
the sub-messages in it.
-/
open KSockLib KSockLib.Wire

namespace KSock.Protobuf

mutual
def messageCheck (D : Descriptors) : ProtobufCMessage → Bool
  | .mk descriptor members _ => fieldsCheck D (D descriptor).fields members

def fieldsCheck (D : Descriptors) : List ProtobufCFieldDescriptor → List Member → Bool
  | field :: fields, member :: members => fieldCheck D field member && fieldsCheck D fields members
  | _, _ => true

/-- A block that is not empty is not NULL. -/
def fieldCheck (D : Descriptors) (field : ProtobufCFieldDescriptor) : Member → Bool
  | .repeated quantity array => !(quantity > 0 && array.isEmpty) && arrayCheck D field quantity array
  | .single _ (.message none) => !(field.type = .message && field.label = .required)
  | .single _ (.message (some msg)) => !decide (field.type = .message) || messageCheck D msg
  | .single has (.binary len data) =>
    !(field.type = .bytes && (field.label = .required || has) && (len > 0 && data.isEmpty))
  | .single _ v => !(field.type = .string && field.label = .required && v.isNull)

def arrayCheck (D : Descriptors) (field : ProtobufCFieldDescriptor) : Nat → List Value → Bool
  | quantity + 1, .message msg :: array => valueCheck D (.message msg) && arrayCheck D field quantity array
  | quantity + 1, .string str :: array => str.isSome && arrayCheck D field quantity array
  | quantity + 1, .binary len data :: array => !(len > 0 && data.isEmpty) && arrayCheck D field quantity array
  | quantity + 1, _ :: array => arrayCheck D field quantity array
  | _, _ => true

/-- `protobuf_c_message_check` of a pointer. -/
def valueCheck (D : Descriptors) : Value → Bool
  | .message (some msg) => messageCheck D msg
  | .message none => false
  | _ => true
end

mutual
/-- The members fit, and no required pointer is NULL. -/
def MessageSound (D : Descriptors) : ProtobufCMessage → Prop
  | .mk descriptor members unknownFields =>
    FieldsSound D (D descriptor).fields members ∧ ∀ field ∈ unknownFields, field.wireType.toNat < 8

def FieldsSound (D : Descriptors) : List ProtobufCFieldDescriptor → List Member → Prop
  | [], [] => True
  | field :: fields, member :: members => FieldSound D field member ∧ FieldsSound D fields members
  | _, _ => False

def FieldSound (D : Descriptors) (field : ProtobufCFieldDescriptor) : Member → Prop
  | .single _ v => field.label ≠ .repeated ∧ ValueSound D field v ∧ (field.label = .required → v.isNull = false)
  | .repeated count array =>
    field.label = .repeated ∧ count = array.length ∧ ArraySound D field array ∧
      (field.packed = true → isPackableType field.type = true)

def ArraySound (D : Descriptors) (field : ProtobufCFieldDescriptor) : List Value → Prop
  | [] => True
  | v :: array => (v.isNull = false ∧ ValueSound D field v) ∧ ArraySound D field array

def ValueSound (D : Descriptors) (field : ProtobufCFieldDescriptor) : Value → Prop
  | .message none => field.type = .message
  | .message (some msg) => field.type = .message ∧ msg.descriptor = field.descriptor ∧ MessageSound D msg
  | .binary len data => field.type = .bytes ∧ len = data.length
  | member => member.ctype = field.type.ctype
end

variable {D : Descriptors}

theorem fieldSound_scalar {field : ProtobufCFieldDescriptor} {has : Bool} {v : Value} (hmessage : v.ctype ≠ .message)
    (hbinary : v.ctype ≠ .binary) :
    FieldSound D field (.single has v) ↔ FieldFits D field (.single has v) ∧ fieldCheck D field (.single has v) = true := by
  have hcheck : v.isNull = false → fieldCheck D field (.single has v) = true := fun hnull => by
    cases v with
    | message msg => exact absurd rfl hmessage
    | binary len data => exact absurd rfl hbinary
    | string str =>
      change (!(_ && _ && (Value.string str).isNull)) = true
      rw [hnull, Bool.and_false]
      rfl
    | _ => simp [fieldCheck, Value.isNull]
  have hfit : ValueSound D field v ↔ ValueFits D field v := by
    cases v with
    | message msg => exact absurd rfl hmessage
    | _ => exact Iff.rfl
  rw [FieldSound, FieldFits, hfit]
  cases hnull : v.isNull with
  | false => exact ⟨fun h => ⟨⟨h.1, h.2.1⟩, hcheck hnull⟩, fun h => ⟨h.1.1, h.1.2, fun _ => rfl⟩⟩
  | true =>
    cases v with
    | message msg => exact absurd rfl hmessage
    | string str =>
      have hvalue : fieldCheck D field (.single has (.string str)) =
          !(decide (field.type = .string) && decide (field.label = .required) && (Value.string str).isNull) := rfl
      rw [hvalue, hnull]
      constructor
      · rintro ⟨hlabel, htype, hrequired⟩
        refine ⟨⟨hlabel, htype⟩, ?_⟩
        rw [decide_eq_false fun h => Bool.noConfusion (hrequired h), Bool.and_false]
        rfl
      · rintro ⟨⟨hlabel, htype⟩, hcheck⟩
        have hstring : field.type = .string := by
          have hctype : CType.string = field.type.ctype := htype
          cases htype' : field.type <;> rw [htype'] at hctype <;> cases hctype
        refine ⟨hlabel, htype, fun hrequired => ?_⟩
        rw [decide_eq_true hstring, decide_eq_true hrequired] at hcheck
        cases hcheck
    | _ => cases hnull

mutual
theorem messageSound_iff : ∀ {msg : ProtobufCMessage},
    MessageSound D msg ↔ MessageFits D msg ∧ messageCheck D msg = true
  | .mk descriptor members unknownFields => by
    rw [MessageSound, MessageFits, messageCheck, fieldsSound_iff]
    constructor
    · rintro ⟨⟨hfits, hcheck⟩, hunknown⟩
      exact ⟨⟨hfits, hunknown⟩, hcheck⟩
    · rintro ⟨⟨hfits, hunknown⟩, hcheck⟩
      exact ⟨⟨hfits, hcheck⟩, hunknown⟩

theorem fieldsSound_iff : ∀ {fields : List ProtobufCFieldDescriptor} {members : List Member},
    FieldsSound D fields members ↔ FieldsFit D fields members ∧ fieldsCheck D fields members = true
  | [], [] => ⟨fun h => ⟨h, rfl⟩, fun h => h.1⟩
  | [], _ :: _ => ⟨False.elim, fun h => h.1.elim⟩
  | _ :: _, [] => ⟨False.elim, fun h => h.1.elim⟩
  | field :: fields, member :: members => by
    rw [FieldsSound, FieldsFit, fieldsCheck, fieldSound_iff, fieldsSound_iff, Bool.and_eq_true]
    constructor
    · rintro ⟨⟨hfit, hcheck⟩, hfits, hchecks⟩
      exact ⟨⟨hfit, hfits⟩, hcheck, hchecks⟩
    · rintro ⟨⟨hfit, hfits⟩, hcheck, hchecks⟩
      exact ⟨⟨hfit, hcheck⟩, hfits, hchecks⟩

theorem fieldSound_iff {field : ProtobufCFieldDescriptor} : ∀ {member : Member},
    FieldSound D field member ↔ FieldFits D field member ∧ fieldCheck D field member = true
  | .repeated quantity array => by
    rw [FieldSound, FieldFits, fieldCheck, arraySound_iff]
    constructor
    · rintro ⟨hlabel, rfl, ⟨hfits, hcheck⟩, hpacked⟩
      refine ⟨⟨hlabel, rfl, hfits, hpacked⟩, ?_⟩
      rw [hcheck, Bool.and_true]
      cases array <;> rfl
    · rintro ⟨⟨hlabel, rfl, hfits, hpacked⟩, hcheck⟩
      exact ⟨hlabel, rfl, ⟨hfits, (Bool.and_eq_true_iff.1 hcheck).2⟩, hpacked⟩
  | .single has (.message none) => by
    rw [FieldSound, FieldFits, fieldCheck, ValueSound, ValueFits]
    simp only [Value.isNull, Option.isNone_none, Bool.not_eq_true', Bool.and_eq_false_iff, decide_eq_false_iff_not]
    tauto
  | .single has (.message (some msg)) => by
    rw [FieldSound, FieldFits, fieldCheck, ValueSound, ValueFits, messageSound_iff]
    simp only [Value.isNull, Option.isNone_some, Bool.or_eq_true, Bool.not_eq_true', decide_eq_false_iff_not]
    tauto
  | .single has (.binary len data) => by
    rw [FieldSound, FieldFits, fieldCheck, ValueSound, ValueFits]
    constructor
    · rintro ⟨hlabel, ⟨htype, rfl⟩, -⟩
      refine ⟨⟨hlabel, htype, rfl⟩, ?_⟩
      cases data <;> simp
    · rintro ⟨⟨hlabel, htype, rfl⟩, -⟩
      exact ⟨hlabel, ⟨htype, rfl⟩, fun _ => rfl⟩
  | .single _ (.string _) => fieldSound_scalar CType.noConfusion CType.noConfusion
  | .single _ (.word32 _) => fieldSound_scalar CType.noConfusion CType.noConfusion
  | .single _ (.word64 _) => fieldSound_scalar CType.noConfusion CType.noConfusion
  | .single _ (.boolean _) => fieldSound_scalar CType.noConfusion CType.noConfusion

theorem arraySound_iff {field : ProtobufCFieldDescriptor} : ∀ {array : List Value},
    ArraySound D field array ↔ ArrayFits D field array ∧ arrayCheck D field array.length array = true
  | [] => ⟨fun h => ⟨h, rfl⟩, fun h => h.1⟩
  | .message none :: array => by
    rw [ArraySound, ArrayFits]
    exact ⟨fun h => absurd h.1.1 Bool.noConfusion, fun h => absurd h.1.1.1 Bool.noConfusion⟩
  | .message (some msg) :: array => by
    rw [ArraySound, ArrayFits, ValueSound, ValueFits, List.length_cons, arrayCheck, valueCheck, messageSound_iff,
      arraySound_iff, Bool.and_eq_true]
    tauto
  | .string none :: array => by
    rw [ArraySound, ArrayFits]
    exact ⟨fun h => absurd h.1.1 Bool.noConfusion, fun h => absurd h.1.1.1 Bool.noConfusion⟩
  | .string (some str) :: array => by
    rw [ArraySound, ArrayFits, List.length_cons, arrayCheck, arraySound_iff, Option.isSome_some, Bool.true_and]
    exact and_assoc.symm
  | .binary len data :: array => by
    rw [ArraySound, ArrayFits, List.length_cons, arrayCheck, arraySound_iff, Bool.and_eq_true, ValueSound, ValueFits]
    constructor
    · rintro ⟨⟨hnull, htype, rfl⟩, hfits, hcheck⟩
      refine ⟨⟨⟨hnull, htype, rfl⟩, hfits⟩, ?_, hcheck⟩
      cases data <;> simp
    · rintro ⟨⟨hv, hfits⟩, -, hcheck⟩
      exact ⟨hv, hfits, hcheck⟩
  | .word32 v :: array => by
    rw [ArraySound, ArrayFits, arraySound_iff]
    exact and_assoc.symm
  | .word64 v :: array => by
    rw [ArraySound, ArrayFits, arraySound_iff]
    exact and_assoc.symm
  | .boolean v :: array => by
    rw [ArraySound, ArrayFits, arraySound_iff]
    exact and_assoc.symm
end

/-! ## Merging -/

theorem arraySound_iff_forall {field : ProtobufCFieldDescriptor} {array : List Value} :
    ArraySound D field array ↔ ∀ v ∈ array, v.isNull = false ∧ ValueSound D field v := by
  induction array with
  | nil => exact ⟨fun _ v hv => absurd hv List.not_mem_nil, fun _ => trivial⟩
  | cons v array ih => rw [ArraySound, ih, List.forall_mem_cons]

theorem ArraySound.append {field : ProtobufCFieldDescriptor} {array array' : List Value}
    (h : ArraySound D field array) (h' : ArraySound D field array') : ArraySound D field (array ++ array') := by
  rw [arraySound_iff_forall] at *
  exact List.forall_mem_append.2 ⟨h, h'⟩

theorem descriptor_mergeMessages (earlier latter : ProtobufCMessage) :
    (mergeMessages D earlier latter).descriptor = latter.descriptor := by
  cases earlier
  cases latter
  rfl

/-- But for two sub-messages a cell is taken from one of the messages. -/
theorem mergeMember_single_sound {field : ProtobufCFieldDescriptor} {earlierHas latterHas : Bool}
    {earlier latter : Value} (hearlier : FieldSound D field (.single earlierHas earlier))
    (hlatter : FieldSound D field (.single latterHas latter))
    (hmerge : ∀ em lm, earlier = .message (some em) → em.descriptor = lm.descriptor → MessageSound D em →
      MessageSound D lm → MessageSound D (mergeMessages D em lm)) :
    FieldSound D field (mergeMember D field (.single earlierHas earlier) (.single latterHas latter)) := by
  unfold mergeMember
  by_cases hrequired : field.label = .required
  · rw [if_pos hrequired]
    exact hlatter
  rw [if_neg hrequired]
  split
  case h_1 em lm =>
    obtain ⟨hlabel, ⟨htype, hem, hearlier⟩, -⟩ := hearlier
    obtain ⟨-, ⟨-, hlm, hlatter⟩, -⟩ := hlatter
    exact ⟨hlabel, ⟨htype, (descriptor_mergeMessages em lm).trans hlm,
      hmerge em lm rfl (hem.trans hlm.symm) hearlier hlatter⟩, fun _ => rfl⟩
  case h_8 =>
    split_ifs
    · exact hearlier
    · exact hearlier
    · exact hlatter
  case h_2 | h_4 | h_6 => exact hearlier
  case h_3 | h_5 | h_7 => exact hlatter

mutual
theorem mergeMessages_sound : ∀ {earlier latter : ProtobufCMessage}, earlier.descriptor = latter.descriptor →
    MessageSound D earlier → MessageSound D latter → MessageSound D (mergeMessages D earlier latter)
  | .mk _ earlier _, .mk descriptor latter unknownFields, hdescriptor, hearlier, hlatter => by
    obtain rfl : _ = descriptor := hdescriptor
    rw [MessageSound] at hearlier hlatter
    rw [mergeMessages, MessageSound]
    exact ⟨mergeFields_sound hearlier.1 hlatter.1, hlatter.2⟩

theorem mergeFields_sound : ∀ {fields : List ProtobufCFieldDescriptor} {earlier latter : List Member},
    FieldsSound D fields earlier → FieldsSound D fields latter → FieldsSound D fields (mergeFields D fields earlier latter)
  | [], [], [], _, _ => trivial
  | field :: fields, earlier :: earliers, latter :: latters, hearlier, hlatter => by
    rw [FieldsSound] at hearlier hlatter
    rw [mergeFields, FieldsSound]
    exact ⟨mergeMember_sound hearlier.1 hlatter.1, mergeFields_sound hearlier.2 hlatter.2⟩
  | [], _ :: _, _, hearlier, _ => hearlier.elim
  | [], [], _ :: _, _, hlatter => hlatter.elim
  | _ :: _, [], _, hearlier, _ => hearlier.elim
  | _ :: _, _ :: _, [], _, hlatter => hlatter.elim

theorem mergeMember_sound {field : ProtobufCFieldDescriptor} : ∀ {earlier latter : Member},
    FieldSound D field earlier → FieldSound D field latter → FieldSound D field (mergeMember D field earlier latter)
  | .repeated nEarlier earlier, .repeated nLatter latter, hearlier, hlatter => by
    rw [mergeMember]
    split_ifs
    · obtain ⟨hlabel, rfl, hearlier, hpacked⟩ := hearlier
      obtain ⟨-, rfl, hlatter, -⟩ := hlatter
      rw [List.take_length, List.take_length, FieldSound]
      exact ⟨hlabel, List.length_append.symm, hearlier.append hlatter, hpacked⟩
    · exact hearlier
    · exact hlatter
  | .single _ (.message (some em)), .single _ _, hearlier, hlatter =>
    mergeMember_single_sound hearlier hlatter fun _ _ hem hdescriptor => by
      cases hem
      exact mergeMessages_sound hdescriptor
  | .single _ (.message none), .single _ _, hearlier, hlatter =>
    mergeMember_single_sound hearlier hlatter fun _ _ hem => nomatch hem
  | .single _ (.binary _ _), .single _ _, hearlier, hlatter =>
    mergeMember_single_sound hearlier hlatter fun _ _ hem => nomatch hem
  | .single _ (.string _), .single _ _, hearlier, hlatter =>
    mergeMember_single_sound hearlier hlatter fun _ _ hem => nomatch hem
  | .single _ (.word32 _), .single _ _, hearlier, hlatter =>
    mergeMember_single_sound hearlier hlatter fun _ _ hem => nomatch hem
  | .single _ (.word64 _), .single _ _, hearlier, hlatter =>
    mergeMember_single_sound hearlier hlatter fun _ _ hem => nomatch hem
  | .single _ (.boolean _), .single _ _, hearlier, hlatter =>
    mergeMember_single_sound hearlier hlatter fun _ _ hem => nomatch hem
  | .single _ _, .repeated _ _, hearlier, hlatter => absurd hlatter.1 hearlier.1
  | .repeated _ _, .single _ _, hearlier, hlatter => absurd hearlier.1 hlatter.1
end

/-! ## What decoding gives -/

theorem fieldsSound_iff_forall {fields : List ProtobufCFieldDescriptor} {members : List Member} :
    FieldsSound D fields members ↔ List.Forall₂ (FieldSound D) fields members := by
  induction fields generalizing members with
  | nil => cases members with
    | nil => exact ⟨fun _ => .nil, fun _ => trivial⟩
    | cons member members => exact ⟨False.elim, fun h => nomatch h⟩
  | cons field fields ih => cases members with
    | nil => exact ⟨False.elim, fun h => nomatch h⟩
    | cons member members => rw [FieldsSound, ih, List.forall₂_cons]

theorem ctype_eq_message {type : ProtobufCType} (h : type.ctype = .message) : type = .message := by
  cases type <;> first | rfl | cases h

theorem ctype_eq_binary {type : ProtobufCType} (h : type.ctype = .binary) : type = .bytes := by
  cases type <;> first | rfl | cases h

/-- A member that may not have been found yet. -/
def FieldHeld (D : Descriptors) (field : ProtobufCFieldDescriptor) : Member → Prop
  | .single _ v => field.label ≠ .repeated ∧ ValueSound D field v
  | .repeated n array => FieldSound D field (.repeated n array)

/-- After the records `rs`. -/
structure Held (D : Descriptors) (fields : List ProtobufCFieldDescriptor) (rs : List Record) (st : Parsing) : Prop where
  members : List.Forall₂ (FieldHeld D) fields st.members
  found : ∀ r ∈ rs, ∀ i has v, recordIndex fields r = some i → st.members[i]? = some (.single has v) → v.isNull = false
  unknown : ∀ field ∈ st.unknownFields, field.wireType.toNat < 8

theorem decodeScalar_sound {field : ProtobufCFieldDescriptor} (hmessage : field.type ≠ .message) (body : List UInt8) :
    (decodeScalar field.type body).isNull = false ∧ ValueSound D field (decodeScalar field.type body) := by
  have hall : ∀ type, type ≠ .message → field.type = type →
      (decodeScalar type body).isNull = false ∧ ValueSound D field (decodeScalar type body) := by
    intro type hne htype
    cases type
    case message => exact absurd rfl hne
    case bytes => exact ⟨rfl, htype, rfl⟩
    all_goals exact ⟨rfl, congrArg ProtobufCType.ctype htype.symm⟩
  exact hall field.type hmessage rfl

theorem decodePacked_sound {field : ProtobufCFieldDescriptor} {bs : List UInt8} {elements : List Value}
    (h : decodePacked field.type bs = some elements) : ArraySound D field elements := by
  have hmessage : field.type ≠ .message := by
    intro htype
    rw [htype] at h
    cases h
  have hmap : ∀ bodies, ArraySound D field (List.map (decodeScalar field.type) bodies) := fun bodies => by
    rw [arraySound_iff_forall, List.forall_mem_map]
    exact fun body _ => decodeScalar_sound hmessage body
  unfold decodePacked at h
  split at h
  · obtain ⟨ds, -, rfl⟩ := Option.map_eq_some_iff.1 h
    exact hmap ds
  · split_ifs at h
    cases h
    exact hmap _
  · split_ifs at h
    cases h
    exact hmap _
  · cases h

section
variable {sub : Nat → List UInt8 → Option ProtobufCMessage}
  (hsub : ∀ descriptor bs msg, sub descriptor bs = some msg → msg.descriptor = descriptor ∧ MessageSound D msg)
include hsub

theorem decodeValue_sound {field : ProtobufCFieldDescriptor} {old : Option Value} {r : Record} {v : Value}
    (hold : ∀ v, old = some v → ValueSound D field v) (h : decodeValue D sub field old r = some v) :
    v.isNull = false ∧ ValueSound D field v := by
  by_cases haccept : field.type ≠ .bool ∧ ¬r.wireType = field.type.wireType
  · rw [decodeValue_rejected haccept.1 haccept.2] at h
    cases h
  by_cases hmessage : field.type = .message
  · have hw : r.wireType = 2 := by
      rw [hmessage] at haccept
      by_contra hne
      exact haccept ⟨ProtobufCType.noConfusion, hne⟩
    rw [decodeValue_message hmessage hw] at h
    obtain ⟨subm, hsubm, rfl⟩ := Option.map_eq_some_iff.1 h
    obtain ⟨hdescriptor, hsound⟩ := hsub _ _ _ hsubm
    refine ⟨rfl, hmessage, ?_⟩
    split
    case h_1 earlier =>
      obtain ⟨-, hearlier, hold⟩ := hold _ rfl
      exact ⟨(descriptor_mergeMessages earlier subm).trans hdescriptor,
        mergeMessages_sound (hearlier.trans hdescriptor.symm) hold hsound⟩
    case h_2 => exact ⟨hdescriptor, hsound⟩
  · rw [decodeValue_scalar hmessage haccept] at h
    cases h
    exact decodeScalar_sound hmessage r.body

theorem decodeMember_sound {field : ProtobufCFieldDescriptor} {r : Record} {member member' : Member}
    (hmember : FieldHeld D field member) (h : decodeMember D sub field r member = some member') :
    FieldHeld D field member' ∧ ∀ has v, member' = .single has v → v.isNull = false := by
  cases member with
  | single has v =>
    obtain ⟨v', hv', heq⟩ := Option.bind_eq_some_iff.1 h
    cases heq
    obtain ⟨hnull, hsound⟩ := decodeValue_sound hsub (fun _ hv => by cases hv; exact hmember.2) hv'
    refine ⟨⟨hmember.1, hsound⟩, fun _ _ heq => ?_⟩
    cases heq
    exact hnull
  | «repeated» n array =>
    obtain ⟨hlabel, rfl, harray, hpacked⟩ := hmember
    have happend : ∀ {elements}, ArraySound D field elements →
        FieldHeld D field (.repeated (array.length + elements.length) (array ++ elements)) := fun helements =>
      ⟨hlabel, List.length_append.symm, harray.append helements, hpacked⟩
    rw [decodeMember] at h
    split_ifs at h
    · obtain ⟨elements, helements, heq⟩ := Option.bind_eq_some_iff.1 h
      cases heq
      exact ⟨happend (decodePacked_sound helements), fun _ _ heq => Member.noConfusion heq⟩
    · obtain ⟨v, hv, heq⟩ := Option.bind_eq_some_iff.1 h
      cases heq
      have hsound := decodeValue_sound hsub (fun _ hold => by cases hold) hv
      have helement : ArraySound D field [v] := ⟨hsound, trivial⟩
      exact ⟨happend helement, fun _ _ heq => Member.noConfusion heq⟩

theorem applyRecord_held {fields : List ProtobufCFieldDescriptor} {rs : List Record} {st st' : Parsing} {r : Record}
    (h : Held D fields rs st) (hr : r.wireType < 8) (happly : applyRecord D sub fields st r = some st') :
    Held D fields (rs ++ [r]) st' := by
  rw [applyRecord] at happly
  split at happly
  case h_1 hindex =>
    cases happly
    refine ⟨h.members, ?_, ?_⟩
    · rw [List.forall_mem_append, List.forall_mem_singleton]
      exact ⟨h.found, fun i _ _ hi => (Option.some_ne_none i (hi.symm.trans hindex)).elim⟩
    · rw [List.forall_mem_append, List.forall_mem_singleton]
      refine ⟨h.unknown, ?_⟩
      change (UInt8.ofNat r.wireType).toNat < 8
      rw [UInt8.toNat_ofNat']
      exact Nat.lt_of_le_of_lt (Nat.mod_le _ _) hr
  case h_2 k hindex =>
    obtain ⟨field, hfield, happly⟩ := Option.bind_eq_some_iff.1 happly
    obtain ⟨member, hmember, happly⟩ := Option.bind_eq_some_iff.1 happly
    obtain ⟨member', hdecode, heq⟩ := Option.bind_eq_some_iff.1 happly
    cases heq
    obtain ⟨hheld, hnull⟩ := decodeMember_sound hsub (Pointwise.get h.members hfield hmember) hdecode
    refine ⟨Pointwise.set h.members hfield hheld, ?_, h.unknown⟩
    intro r' hr' i has v hi hget
    dsimp only at hget
    rw [List.getElem?_set] at hget
    split_ifs at hget with hki hlt
    · exact hnull has v (Option.some.inj hget)
    · rcases List.mem_append.1 hr' with hold | hnew
      · exact h.found r' hold i has v hi hget
      · obtain rfl := List.mem_singleton.1 hnew
        exact absurd (Option.some.inj (hindex.symm.trans hi)) hki

theorem foldlM_held {fields : List ProtobufCFieldDescriptor} {rs rs' : List Record} {st st' : Parsing}
    (h : Held D fields rs st) (hr : ∀ r ∈ rs', r.wireType < 8)
    (hfold : rs'.foldlM (applyRecord D sub fields) st = some st') : Held D fields (rs ++ rs') st' := by
  induction rs' generalizing rs st with
  | nil =>
    cases hfold
    rwa [List.append_nil]
  | cons r rs' ih =>
    rw [List.forall_mem_cons] at hr
    rw [List.foldlM_cons] at hfold
    obtain ⟨st₁, happly, hrest⟩ := Option.bind_eq_some_iff.1 hfold
    rw [List.append_cons]
    exact ih (applyRecord_held hsub h hr.1 happly) hr.2 hrest

end

theorem ProtobufCMessageDescriptor.WellFormed.held {desc : ProtobufCMessageDescriptor} (hd : desc.WellFormed) :
    Held D desc.fields [] ⟨desc.init, []⟩ := by
  refine ⟨List.forall₂_iff_get.2 ⟨hd.init.length_eq, fun i hi hj => ?_⟩, fun r hr => absurd hr List.not_mem_nil,
    fun field hfield => absurd hfield List.not_mem_nil⟩
  have hinit := (List.forall₂_iff_get.1 hd.init).2 i hi hj
  cases hmember : desc.init.get ⟨i, hj⟩ with
  | single has v =>
    rw [hmember] at hinit
    obtain ⟨hlabel, hctype, hmessage, hblock⟩ := hinit
    refine ⟨hlabel, ?_⟩
    cases v with
    | message msg =>
      cases msg with
      | none => exact (ctype_eq_message hctype.symm)
      | some msg => exact absurd rfl (hmessage msg)
    | binary len data => exact ⟨ctype_eq_binary hctype.symm, hblock len data rfl⟩
    | _ => exact hctype
  | «repeated» n array =>
    rw [hmember] at hinit
    obtain ⟨hlabel, rfl, rfl⟩ := hinit
    exact ⟨hlabel, rfl, trivial, hd.packable _ (List.get_mem _ _)⟩

theorem decode_sound (hD : ∀ descriptor, (D descriptor).WellFormed) {fuel descriptor : Nat} {bs : List UInt8}
    {msg : ProtobufCMessage} (h : decode D fuel descriptor bs = some msg) :
    msg.descriptor = descriptor ∧ MessageSound D msg := by
  induction fuel generalizing descriptor bs msg with
  | zero => cases h
  | succ fuel ih =>
    rw [decode_succ] at h
    obtain ⟨rs, hparse, h⟩ := Option.bind_eq_some_iff.1 h
    split_ifs at h with hall
    obtain ⟨st, hfold, rfl⟩ := Option.map_eq_some_iff.1 h
    have hheld := foldlM_held (fun _ _ _ => ih) (hD descriptor).held
      (fun r hr => (bodyOf_eq_some (parse_readable hparse r hr).2).1) hfold
    refine ⟨rfl, ?_⟩
    rw [MessageSound, fieldsSound_iff_forall]
    refine ⟨List.forall₂_iff_get.2 ⟨hheld.members.length_eq, fun i hi hj => ?_⟩, hheld.unknown⟩
    have hmember := (List.forall₂_iff_get.1 hheld.members).2 i hi hj
    cases hget : st.members.get ⟨i, hj⟩ with
    | «repeated» n array =>
      rw [hget] at hmember
      exact hmember
    | single has v =>
      rw [hget] at hmember
      refine ⟨hmember.1, hmember.2, fun hrequired => ?_⟩
      obtain ⟨r, hr, hindex⟩ := hall.2 i hi (by rw [List.getElem?_eq_getElem hi]; exact congrArg some hrequired)
      exact hheld.found r hr i has v hindex (by rw [List.getElem?_eq_getElem hj]; exact congrArg some hget)

/-- A message that comes out of `protobuf_c_message_unpack` is of the descriptor it
was unpacked for, fits it, and passes `protobuf_c_message_check`. -/
theorem messageUnpack_check (hD : ∀ descriptor, (D descriptor).WellFormed) {fuel descriptor : Nat} {bs rest : List UInt8}
    (hfuel : bs.length < fuel) (hshort : bs.length < 2 ^ 32) {msg : ProtobufCMessage}
    (h : messageUnpack D fuel descriptor bs.length (bs ++ rest) = .ok msg) :
    msg.descriptor = descriptor ∧ MessageFits D msg ∧ messageCheck D msg = true := by
  rw [messageUnpack_eq hD descriptor rest hfuel hshort] at h
  have hdecode : decode D fuel descriptor bs = some msg := by
    cases hdecode : decode D fuel descriptor bs with
    | none => rw [hdecode] at h; cases h
    | some msg' => rw [hdecode] at h; cases h; rfl
  obtain ⟨hdescriptor, hsound⟩ := decode_sound hD hdecode
  exact ⟨hdescriptor, messageSound_iff.1 hsound⟩

/-- A sub-message that comes in two parts. -/
def somethingMoreExample : ProtobufCMessage :=
  .mk 1 [.single true (.word32 400), .single false (.message (some (.mk 0
    [.single true (.word32 7), .single false (.word32 0), .single true (.word32 80)] [])))] []

theorem messageUnpack_check_example : somethingMoreExample.descriptor = 1 ∧
    MessageFits exampleDescriptors somethingMoreExample ∧ messageCheck exampleDescriptors somethingMoreExample = true :=
  @messageUnpack_check _ exampleDescriptors_wellFormed 12 1 [8, 144, 3, 18, 2, 8, 7, 18, 2, 24, 80] [] (by decide)
    (by decide) _ rfl

end KSock.Protobuf
