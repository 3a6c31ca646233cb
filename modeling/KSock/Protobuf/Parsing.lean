import KSock.Protobuf.Decode
/-!
# The parsers take the values of bodies

A scanned member stands for a record. What `parse_required_member` stores for it
is the value of the record's body, whatever memory follows the body, and
`parse_packed_repeated_member` stores the elements of its payload, no more of
them than `count_packed_elements` has counted.
-/
open KSockLib KSockLib.Varint KSockLib.Wire KSockLib.Endian

namespace KSock.Protobuf

/-- The scanned member of a record. -/
structure IsScan (fields : List ProtobufCFieldDescriptor) (r : Record) (scannedMember : ScannedMember) : Prop where
  tag : scannedMember.tag = UInt32.ofNat r.tag
  wireType : scannedMember.wireType = UInt8.ofNat r.wireType
  prefixLen : scannedMember.lengthPrefixLen = bodyPrefix r.wireType r.body
  field : scannedMember.field = recordIndex fields r
  len : scannedMember.len = r.body.length
  data : ∃ rest, scannedMember.data = r.body ++ rest

/-- A record whose body can be told, of a length that is an `unsigned`. -/
structure Readable (r : Record) : Prop where
  body : bodyOf r.wireType r.body = some r.body
  short : r.body.length < 2 ^ 32

theorem Readable.wireType_lt {r : Record} (h : Readable r) : r.wireType < 8 := (bodyOf_eq_some h.body).1

theorem Readable.ofNat_eq_iff {r : Record} (h : Readable r) {n : Nat} (hn : n < 8) :
    UInt8.ofNat r.wireType = UInt8.ofNat n ↔ r.wireType = n := by
  have hlt := h.wireType_lt
  rw [← UInt8.toNat_inj, UInt8.toNat_ofNat', UInt8.toNat_ofNat']
  omega

theorem copy_append (bs rest : List UInt8) : copy bs.length (bs ++ rest) = some bs := by
  rw [copy, if_pos (by rw [List.length_append]; omega), List.take_left]

/-! ## Scalars -/

theorem parseUint32_append {bs : List UInt8} (hpos : 0 < bs.length) (rest : List UInt8) :
    parseUint32 bs.length (bs ++ rest) = some (UInt32.ofNat (value bs)) := by
  rw [parseUint32_eq hpos (by rw [List.length_append]; omega), List.take_left]

theorem parseUint64_append {bs : List UInt8} (hpos : 0 < bs.length) (hmax : bs.length ≤ 10) (rest : List UInt8) :
    parseUint64 bs.length (bs ++ rest) = some (UInt64.ofNat (value bs)) := by
  rw [parseUint64_eq hpos hmax (by rw [List.length_append]; omega), List.take_left]

theorem parseBoolean_append (bs rest : List UInt8) :
    parseBoolean bs.length (bs ++ rest) = some (decide (value bs ≠ 0)) := by
  rw [parseBoolean_eq (by rw [List.length_append]; omega), List.take_left]

theorem parseFixedUint32_append {bs : List UInt8} (hlen : 4 ≤ bs.length) (rest : List UInt8) :
    parseFixedUint32 (bs ++ rest) = some (loadU32 (bs.take 4)) := by
  rw [parseFixedUint32, copy, if_pos (by rw [List.length_append]; omega), List.take_append_of_le_length hlen,
    Option.map_some]

theorem parseFixedUint64_append {bs : List UInt8} (hlen : 8 ≤ bs.length) (rest : List UInt8) :
    parseFixedUint64 (bs ++ rest) = some (UInt64.ofNat (ofLE (bs.take 8))) := by
  rw [parseFixedUint64, copy, if_pos (by rw [List.length_append]; omega), List.take_append_of_le_length hlen,
    Option.map_some]

/-- What a body of each wire type is like. -/
theorem Readable.shape {r : Record} (h : Readable r) :
    (r.wireType = 0 → 0 < r.body.length ∧ r.body.length ≤ 10) ∧ (r.wireType = 1 → r.body.length = 8) ∧
      (r.wireType = 5 → r.body.length = 4) ∧
      (r.wireType = 2 → bodyPrefix 2 r.body + (payload r.body).length = r.body.length) := by
  have hbody := h.body
  refine ⟨fun hw => ?_, fun hw => ?_, fun hw => ?_, fun hw => ?_⟩ <;> rw [hw] at hbody
  · obtain ⟨hends, hmax, -⟩ := front_eq_some (show front 10 r.body = some r.body from hbody)
    exact ⟨ends_ne_nil hends, hmax⟩
  · exact length_of_bodyOf.1 hbody
  · exact length_of_bodyOf.2 hbody
  · obtain ⟨len, rest, -, -, hsplit, hkeyLength, -, -⟩ :=
      delimited_eq_some (show delimited r.body = some r.body from hbody)
    have := congrArg List.length hsplit
    rw [List.length_append] at this
    rw [bodyPrefix, if_pos rfl, hkeyLength]
    omega

section
variable {D : Descriptors} {sub : Nat → List UInt8 → Option ProtobufCMessage} {field : ProtobufCFieldDescriptor}
  {r : Record} {old : Option Value}

theorem acceptsWireType_iff {type : ProtobufCType} {wireType : Nat} :
    acceptsWireType type wireType = true ↔ ¬(type ≠ .bool ∧ ¬wireType = type.wireType) := by
  rw [acceptsWireType, Bool.or_eq_true, decide_eq_true_iff, decide_eq_true_iff, not_and_or, not_not, not_not]

theorem decodeValue_rejected (hbool : field.type ≠ .bool) (hw : ¬r.wireType = field.type.wireType) :
    decodeValue D sub field old r = none := by
  have haccept : acceptsWireType field.type r.wireType = false := by
    rw [← Bool.not_eq_true, acceptsWireType_iff, not_not]
    exact ⟨hbool, hw⟩
  rw [decodeValue, haccept]
  rfl

theorem decodeValue_scalar (hmessage : ¬field.type = .message)
    (haccept : ¬(field.type ≠ .bool ∧ ¬r.wireType = field.type.wireType)) :
    decodeValue D sub field old r = some (decodeScalar field.type r.body) := by
  rw [decodeValue, acceptsWireType_iff.2 haccept]
  exact if_pos hmessage

theorem decodeValue_message (hmessage : field.type = .message) (hw : r.wireType = 2) :
    decodeValue D sub field old r = (sub field.descriptor (payload r.body)).map fun subm => .message (some
      (match old with | some (.message (some earlier)) => mergeMessages D earlier subm | _ => subm)) := by
  have haccept : acceptsWireType field.type r.wireType = true := by
    rw [acceptsWireType_iff, hmessage, hw]
    exact fun h => h.2 rfl
  rw [decodeValue, haccept, Bool.not_true, if_neg Bool.false_ne_true]
  refine (if_neg (not_not.2 hmessage)).trans ?_
  cases sub field.descriptor (payload r.body) with
  | none => rfl
  | some subm =>
    change (match old with | some (.message (some earlier)) => _ | _ => _) = some _
    split <;> rfl

end

theorem parseRequiredMember_eq {D : Descriptors} {unpack : Unpack} {sub : Nat → List UInt8 → Option ProtobufCMessage}
    {fields : List ProtobufCFieldDescriptor} {field : ProtobufCFieldDescriptor} {r : Record}
    {scannedMember : ScannedMember} (old : Option Value) (hs : IsScan fields r scannedMember) (hr : Readable r)
    (hsub : r.wireType = 2 → ∀ descriptor rest, unpack descriptor (payload r.body).length (payload r.body ++ rest) =
      Outcome.total (sub descriptor (payload r.body))) :
    parseRequiredMember D unpack field scannedMember old = Outcome.total (decodeValue D sub field old r) := by
  obtain ⟨rest, hdata⟩ := hs.data
  obtain ⟨hvarint, hfixed64, hfixed32, hdelimited⟩ := hr.shape
  have hlen : (UInt32.ofNat scannedMember.len).toNat = r.body.length := by
    rw [hs.len, UInt32.toNat_ofNat']
    exact Nat.mod_eq_of_lt hr.short
  have hwire : ∀ {n : Nat} {w : UInt8}, n < 8 → w = UInt8.ofNat n → (scannedMember.wireType ≠ w ↔ ¬r.wireType = n) := by
    rintro n w hn rfl
    rw [hs.wireType, Ne, hr.ofNat_eq_iff hn]
  have hpayload : r.wireType = 2 → r.body.length - bodyPrefix 2 r.body = (payload r.body).length := fun hw => by
    have := hdelimited hw
    omega
  have hdrop : r.wireType = 2 → (r.body ++ rest).drop (bodyPrefix 2 r.body) = payload r.body ++ rest := fun hw => by
    rw [List.drop_append_of_le_length (by have := hdelimited hw; omega)]
    rfl
  by_cases haccept : field.type ≠ .bool ∧ ¬r.wireType = field.type.wireType
  · obtain ⟨hbool, hw⟩ := haccept
    rw [decodeValue_rejected hbool hw, parseRequiredMember]
    cases htype : field.type <;> rw [htype] at hw hbool <;>
      first | exact absurd rfl hbool | exact if_pos ((hwire (by decide) rfl).2 hw)
  by_cases hmessage : field.type = .message
  · have hw : r.wireType = 2 := by
      rw [hmessage] at haccept
      by_contra hne
      exact haccept ⟨ProtobufCType.noConfusion, hne⟩
    rw [parseRequiredMember, decodeValue_message hmessage hw]
    simp only [hlen, hdata, hs.prefixLen, hmessage, hw]
    rw [if_neg ((hwire (n := 2) (w := 2) (by decide) rfl).not.2 (not_not.2 hw)),
      if_neg (by have := hdelimited hw; omega), hdrop hw, hpayload hw, hsub hw]
    cases sub field.descriptor (payload r.body) with
    | none => rfl
    | some subm => cases old with
      | none => rfl
      | some old => cases old with
        | message earlier => cases earlier <;> rfl
        | _ => rfl
  rw [decodeValue_scalar hmessage haccept, parseRequiredMember]
  simp only [hlen, hdata, hs.prefixLen]
  -- the test that a case starts with does not go off
  have hpass : ∀ {n : Nat} {w : UInt8}, n < 8 → w = UInt8.ofNat n → field.type ≠ .bool → n = field.type.wireType →
      r.wireType = n ∧ ¬scannedMember.wireType ≠ w := by
    intro n w hn hwn hbool htype
    have hw : r.wireType = n := by
      rw [htype]
      by_contra hne
      exact haccept ⟨hbool, hne⟩
    exact ⟨hw, (hwire hn hwn).not.2 (not_not.2 hw)⟩
  cases htype : field.type <;> rw [htype] at hpass
  case message => exact absurd htype hmessage
  case bool =>
    simp only [parseBoolean_append]
    rfl
  case int32 | enum | uint32 | sint32 =>
    obtain ⟨hw, htest⟩ := hpass (n := 0) (w := 0) (by decide) rfl ProtobufCType.noConfusion rfl
    refine (if_neg htest).trans ?_
    simp only [parseInt32, parseUint32_append (hvarint hw).1]
    rfl
  case int64 | uint64 | sint64 =>
    obtain ⟨hw, htest⟩ := hpass (n := 0) (w := 0) (by decide) rfl ProtobufCType.noConfusion rfl
    refine (if_neg htest).trans ?_
    simp only [parseUint64_append (hvarint hw).1 (hvarint hw).2]
    rfl
  case sfixed32 | fixed32 | float =>
    obtain ⟨hw, htest⟩ := hpass (n := 5) (w := 5) (by decide) rfl ProtobufCType.noConfusion rfl
    refine (if_neg htest).trans ?_
    simp only [parseFixedUint32_append (Nat.le_of_eq (hfixed32 hw).symm)]
    rfl
  case sfixed64 | fixed64 | double =>
    obtain ⟨hw, htest⟩ := hpass (n := 1) (w := 1) (by decide) rfl ProtobufCType.noConfusion rfl
    refine (if_neg htest).trans ?_
    simp only [parseFixedUint64_append (Nat.le_of_eq (hfixed64 hw).symm)]
    rfl
  case string =>
    obtain ⟨hw, htest⟩ := hpass (n := 2) (w := 2) (by decide) rfl ProtobufCType.noConfusion rfl
    refine (if_neg htest).trans ?_
    simp only [hw, hdrop hw, hpayload hw, copy_append]
    rfl
  case bytes =>
    obtain ⟨hw, htest⟩ := hpass (n := 2) (w := 2) (by decide) rfl ProtobufCType.noConfusion rfl
    refine (if_neg htest).trans ?_
    simp only [hw, hdrop hw, hpayload hw, copy_append]
    split_ifs with hlong
    · rfl
    · have hnil : payload r.body = [] := List.eq_nil_of_length_eq_zero (by have := hpayload hw; omega)
      rw [decodeScalar, hnil]
      rfl

/-! ## Packed members -/

/-- What `count_packed_elements` counts in a payload. -/
def elementCount (type : ProtobufCType) (bs : List UInt8) : Option Nat :=
  match type.wireType with
  | 0 => if type = .bool then some bs.length else some (lastDigits bs)
  | 1 => if bs.length % 8 = 0 then some (bs.length / 8) else none
  | 5 => if bs.length % 4 = 0 then some (bs.length / 4) else none
  | _ => none

theorem maxB128Numbers_eq (bs rest : List UInt8) : maxB128Numbers bs.length (bs ++ rest) = some (lastDigits bs) := by
  induction bs with
  | nil => rfl
  | cons b bs ih =>
    rw [List.length_cons, maxB128Numbers, List.cons_append, List.head?_cons, List.tail_cons, ih]
    simp only [Option.bind_eq_bind, Option.bind_some, and_high_eq_zero, lastDigits]
    by_cases hb : b.toNat < 128
    · rw [if_pos hb, List.countP_cons_of_pos (by simpa using hb)]
      rfl
    · rw [if_neg hb, List.countP_cons_of_neg (by simpa using hb)]
      rfl

theorem countPackedElements_eq (type : ProtobufCType) (bs rest : List UInt8) :
    countPackedElements type bs.length (bs ++ rest) = Outcome.total (elementCount type bs) := by
  have hfixed : ∀ n, (if bs.length % n ≠ 0 then Outcome.fail else (Outcome.ok (bs.length / n))) =
      Outcome.total (if bs.length % n = 0 then some (bs.length / n) else none) := by
    intro n
    by_cases hn : bs.length % n = 0
    · rw [if_neg (not_not.2 hn), if_pos hn]
      rfl
    · rw [if_pos hn, if_neg hn]
      rfl
  cases type
  case sfixed32 | fixed32 | float => exact hfixed 4
  case sfixed64 | fixed64 | double => exact hfixed 8
  case bool | string | bytes | message => rfl
  all_goals
    rw [countPackedElements]
    simp only [maxB128Numbers_eq]
    rfl

theorem elementCount_le {type : ProtobufCType} {bs : List UInt8} {n : Nat} (h : elementCount type bs = some n) :
    n ≤ bs.length := by
  have hlast := lastDigits_le bs
  unfold elementCount at h
  split at h
  · split_ifs at h <;> cases h
    · exact Nat.le_refl _
    · exact hlast
  · split_ifs at h
    cases h
    omega
  · split_ifs at h
    cases h
    omega
  · cases h

theorem scanVarint_eq {bs : List UInt8} (rest : List UInt8) : scanVarint bs.length (bs ++ rest) =
    some (match front 10 bs with | none => 0 | some ds => ds.length) := by
  have hmax : (if bs.length > 10 then 10 else bs.length) = min 10 bs.length := by split <;> omega
  obtain ⟨hstop, hfound⟩ := stopIndex_front 10 bs
  rw [scanVarint, hmax, stopIndex_inside (Nat.min_le_right 10 bs.length), hstop]
  cases hfront : front 10 bs with
  | none => exact if_pos rfl
  | some ds =>
    have hpos := ends_ne_nil (front_eq_some hfront).1
    refine (if_neg (Nat.ne_of_lt (hfound ds hfront))).trans ?_
    rw [Nat.sub_add_cancel hpos]
    rfl

theorem parsePackedElement_eq {type : ProtobufCType} (htype : type.wireType = 0) {ds : List UInt8}
    (hpos : 0 < ds.length) (hmax : ds.length ≤ 10) (rest : List UInt8) :
    parsePackedElement type ds.length (ds ++ rest) = some (decodeScalar type ds) := by
  cases type <;> cases htype
  all_goals
    rw [parsePackedElement]
    simp only [parseInt32, parseUint32_append hpos, parseUint64_append hpos hmax, parseBoolean_append]
    rfl

/-- The loop stores the numbers, and no more than end in the bytes. -/
theorem parsePackedLoop_eq {type : ProtobufCType} (htype : type.wireType = 0) {size fuel : Nat} {bs : List UInt8}
    (rest : List UInt8) {array : List Value} (hfuel : bs.length ≤ fuel) (hshort : bs.length < 2 ^ 32)
    (hroom : array.length + lastDigits bs ≤ size) : parsePackedLoop type size fuel bs.length (bs ++ rest) array =
      Outcome.total ((numbers 10 bs).map fun ds => array ++ ds.map (decodeScalar type)) := by
  induction fuel generalizing bs array with
  | zero =>
    obtain rfl := List.eq_nil_of_length_eq_zero (Nat.le_zero.1 hfuel)
    rw [numbers_nil, Option.map_some, List.map_nil, List.append_nil]
    rfl
  | succ fuel ih =>
    rw [parsePackedLoop]
    by_cases hne : bs = []
    · subst hne
      rw [numbers_nil, Option.map_some, List.map_nil, List.append_nil]
      exact if_neg (Nat.lt_irrefl 0)
    have hpos := List.length_pos_of_ne_nil hne
    have hto : (UInt32.ofNat bs.length).toNat = bs.length := by
      rw [UInt32.toNat_ofNat']
      exact Nat.mod_eq_of_lt hshort
    rw [if_pos hpos, hto, scanVarint_eq]
    cases hfront : front 10 bs with
    | none =>
      rw [numbers_of_not_front hne hfront]
      rfl
    | some ds =>
      obtain ⟨hends, hmax, tail, rfl⟩ := front_eq_some hfront
      have hds := ends_ne_nil hends
      rw [lastDigits_append, lastDigits_of_ends hends] at hroom
      rw [List.length_append] at hfuel hshort
      have hnext : parsePackedLoop type size fuel tail.length (tail ++ rest) (array ++ [decodeScalar type ds]) = _ :=
        ih (by omega) (by omega) (by rw [List.length_append, List.length_singleton]; omega)
      have hdrop : (ds ++ tail).length - ds.length = tail.length := by
        rw [List.length_append, Nat.add_sub_cancel_left]
      rw [numbers_of_front hfront, List.drop_left]
      refine (if_neg (Nat.pos_iff_ne_zero.1 hds)).trans ?_
      simp only [List.append_assoc, parsePackedElement_eq htype hds hmax, List.drop_left, hdrop]
      refine (if_pos (by omega)).trans ?_
      rw [hnext, Option.map_map]
      simp only [Function.comp_def, List.map_cons, List.append_assoc, List.singleton_append]

theorem decodeScalar_take {type : ProtobufCType} (bs : List UInt8) :
    (type.wireType = 5 → decodeScalar type bs = .word32 (loadU32 (bs.take 4)) ∧ type.ctype = .word32) ∧
      (type.wireType = 1 → decodeScalar type bs = .word64 (UInt64.ofNat (ofLE (bs.take 8))) ∧ type.ctype ≠ .word32) := by
  cases type <;> refine ⟨fun h => ?_, fun h => ?_⟩ <;> cases h
  case sfixed32.refine_1.refl | fixed32.refine_1.refl | float.refine_1.refl => exact ⟨rfl, rfl⟩
  all_goals exact ⟨rfl, CType.noConfusion⟩

theorem copyElements_eq {type : ProtobufCType} {count : Nat} {data : List UInt8} :
    (type.wireType = 5 → count * 4 ≤ data.length →
      copyElements type count data = some ((pieces 4 count data).map (decodeScalar type))) ∧
    (type.wireType = 1 → count * 8 ≤ data.length →
      copyElements type count data = some ((pieces 8 count data).map (decodeScalar type))) := by
  induction count generalizing data with
  | zero => exact ⟨fun _ _ => rfl, fun _ _ => rfl⟩
  | succ count ih =>
    refine ⟨fun htype hlen => ?_, fun htype hlen => ?_⟩
    · obtain ⟨hscalar, hctype⟩ := (decodeScalar_take (data.take 4)).1 htype
      rw [copyElements, if_pos hctype, ih.1 htype (show _ ≤ (data.drop 4).length by rw [List.length_drop]; omega),
        parseFixedUint32, copy, if_pos (by omega), pieces, List.map_cons, hscalar, List.take_take]
      rfl
    · obtain ⟨hscalar, hctype⟩ := (decodeScalar_take (data.take 8)).2 htype
      rw [copyElements, if_neg hctype, ih.2 htype (show _ ≤ (data.drop 8).length by rw [List.length_drop]; omega),
        parseFixedUint64, copy, if_pos (by omega), pieces, List.map_cons, hscalar, List.take_take]
      rfl

/-- Pieces that end where the bytes do. -/
theorem pieces_append {size count : Nat} {bs : List UInt8} (h : count * size ≤ bs.length) (rest : List UInt8) :
    pieces size count (bs ++ rest) = pieces size count bs := by
  induction count generalizing bs with
  | zero => rfl
  | succ count ih =>
    rw [Nat.succ_mul] at h
    rw [pieces, pieces, List.take_append_of_le_length (by omega), List.drop_append_of_le_length (by omega),
      ih (by rw [List.length_drop]; omega)]

theorem decodePacked_count {type : ProtobufCType} {bs : List UInt8} {elements : List Value}
    (h : decodePacked type bs = some elements) : ∃ n, elementCount type bs = some n ∧ elements.length ≤ n := by
  unfold decodePacked at h
  split at h
  case h_1 hw =>
    obtain ⟨ds, hds, rfl⟩ := Option.map_eq_some_iff.1 h
    have hle := numbers_le hds
    have hlast := lastDigits_le bs
    simp only [elementCount, hw, List.length_map]
    by_cases hbool : type = .bool
    · exact ⟨_, if_pos hbool, by omega⟩
    · exact ⟨_, if_neg hbool, hle⟩
  case h_2 hw =>
    split_ifs at h with hlen
    cases h
    simp only [elementCount, hw, List.length_map, length_pieces]
    exact ⟨_, if_pos hlen, Nat.le_refl _⟩
  case h_3 hw =>
    split_ifs at h with hlen
    cases h
    simp only [elementCount, hw, List.length_map, length_pieces]
    exact ⟨_, if_pos hlen, Nat.le_refl _⟩
  case h_4 => cases h

theorem parsePackedRepeatedMember_eq {fields : List ProtobufCFieldDescriptor} {field : ProtobufCFieldDescriptor}
    {r : Record} {scannedMember : ScannedMember} {size n : Nat} {array : List Value}
    (hs : IsScan fields r scannedMember) (hr : Readable r) (hw : r.wireType = 2)
    (hcount : elementCount field.type (payload r.body) = some n) (hroom : array.length + n ≤ size) :
    parsePackedRepeatedMember field size scannedMember array =
      Outcome.total ((decodePacked field.type (payload r.body)).map (array ++ ·)) := by
  obtain ⟨rest, hdata⟩ := hs.data
  have hdelimited := hr.shape.2.2.2 hw
  have hshort := hr.short
  have hrem : scannedMember.len - scannedMember.lengthPrefixLen = (payload r.body).length := by
    rw [hs.len, hs.prefixLen, hw]
    omega
  have hptr : scannedMember.data.drop scannedMember.lengthPrefixLen = payload r.body ++ rest := by
    rw [hdata, hs.prefixLen, hw, List.drop_append_of_le_length (by omega)]
    rfl
  rw [parsePackedRepeatedMember]
  simp only [hrem, hptr]
  have hpayload : (payload r.body).length < 2 ^ 32 := by omega
  generalize payload r.body = bs at hcount hpayload ⊢
  have hcopied : ∀ {count} {elements : List Value}, copyElements field.type count (bs ++ rest) = some elements →
      array.length + count ≤ size → (if array.length + count ≤ size then do
        return array ++ (← liftM (copyElements field.type count (bs ++ rest))) else Outcome.fault) =
      Outcome.ok (array ++ elements) := by
    intro count elements hcopy hle
    rw [if_pos hle, hcopy]
    rfl
  have hloop : field.type.wireType = 0 → parsePackedLoop field.type size bs.length bs.length (bs ++ rest) array =
      Outcome.total ((decodePacked field.type bs).map (array ++ ·)) := by
    intro htype
    have hlast := lastDigits_le bs
    simp only [elementCount, htype] at hcount
    rw [parsePackedLoop_eq htype rest (Nat.le_refl _) hpayload (by split_ifs at hcount <;> cases hcount <;> omega)]
    simp only [decodePacked, htype, Option.map_map]
    rfl
  have hcopy32 : field.type.wireType = 5 → copyElements field.type (bs.length / 4) (bs ++ rest) =
      some ((pieces 4 (bs.length / 4) bs).map (decodeScalar field.type)) := fun htype => by
    rw [copyElements_eq.1 htype (by rw [List.length_append]; omega), pieces_append (by omega)]
  have hcopy64 : field.type.wireType = 1 → copyElements field.type (bs.length / 8) (bs ++ rest) =
      some ((pieces 8 (bs.length / 8) bs).map (decodeScalar field.type)) := fun htype => by
    rw [copyElements_eq.2 htype (by rw [List.length_append]; omega), pieces_append (by omega)]
  cases htype : field.type <;> rw [htype] at hcount hcopied hloop hcopy32 hcopy64
  case sfixed32 | fixed32 | float =>
    simp only [elementCount, ProtobufCType.wireType] at hcount
    split_ifs at hcount with hlen
    cases hcount
    rw [decodePacked]
    simp only [ProtobufCType.wireType, if_pos hlen]
    exact hcopied (hcopy32 rfl) hroom
  case sfixed64 | fixed64 | double =>
    simp only [elementCount, ProtobufCType.wireType] at hcount
    split_ifs at hcount with hlen
    cases hcount
    rw [decodePacked]
    simp only [ProtobufCType.wireType, if_pos hlen]
    exact hcopied (hcopy64 rfl) hroom
  case string | bytes | message => cases hcount
  all_goals exact hloop rfl

end KSock.Protobuf
