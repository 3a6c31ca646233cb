import KSock.Protobuf.Parsing
import KSock.Protobuf.Example
import KSock.Lib.Pointwise
/-!
# Unpacking in two passes is unpacking in one

The first pass counts what the second one stores. After it the message has, for
each repeated field, the number of elements of all its records; the arrays get
these sizes, and while the second pass goes over the same records no array has
more stored in it than the records so far have counted. So nothing is written
outside, nothing is read outside the bytes, and the message that comes out is
the one `decode` makes of them (`messageUnpack_eq`).
-/
open KSockLib KSockLib.Varint KSockLib.Wire

namespace KSock.Protobuf

/-! ## Counts -/

/-- What a record adds to the count of its field. -/
def recordCount (field : ProtobufCFieldDescriptor) (r : Record) : Option Nat :=
  if isPackedMember field (UInt8.ofNat r.wireType) then elementCount field.type (payload r.body) else some 1

/-- The elements of field `i` in the records. -/
def fieldCount (fields : List ProtobufCFieldDescriptor) : List Record → Nat → Nat
  | [], _ => 0
  | r :: rs, i => (if recordIndex fields r = some i then
      ((fields[i]?.bind fun field => recordCount field r).getD 0) else 0) + fieldCount fields rs i

def unknownCount (fields : List ProtobufCFieldDescriptor) (rs : List Record) : Nat :=
  rs.countP fun r => recordIndex fields r = none

/-- Whether the record can be counted. -/
def Countable (fields : List ProtobufCFieldDescriptor) (r : Record) : Prop :=
  ∀ i field, recordIndex fields r = some i → fields[i]? = some field → field.label = .repeated →
    ∃ n, recordCount field r = some n

/-- The message after the first pass. -/
def withCounts (count : Nat → Nat) : Nat → List Member → List Member
  | _, [] => []
  | i, .repeated _ array :: members => .repeated (count i) array :: withCounts count (i + 1) members
  | i, .single has v :: members => .single has v :: withCounts count (i + 1) members

theorem fieldCount_append (fields : List ProtobufCFieldDescriptor) (rs rs' : List Record) (i : Nat) :
    fieldCount fields (rs ++ rs') i = fieldCount fields rs i + fieldCount fields rs' i := by
  induction rs with
  | nil => rw [List.nil_append, fieldCount, Nat.zero_add]
  | cons r rs ih => rw [List.cons_append, fieldCount, ih, fieldCount, Nat.add_assoc]

theorem withCounts_zero {fields : List ProtobufCFieldDescriptor} {init : List Member}
    (h : List.Forall₂ InitMember fields init) (f : Nat) : withCounts (fun _ => 0) f init = init := by
  induction h generalizing f with
  | nil => rfl
  | @cons field member fields init hmember _ ih =>
    cases member with
    | single has v => rw [withCounts, ih]
    | «repeated» n array =>
      obtain ⟨-, rfl, -⟩ := hmember
      rw [withCounts, ih]

theorem withCounts_congr {count count' : Nat → Nat} {init : List Member} {f : Nat}
    (h : ∀ i n array, init[i]? = some (.repeated n array) → count (f + i) = count' (f + i)) :
    withCounts count f init = withCounts count' f init := by
  induction init generalizing f with
  | nil => rfl
  | cons member init ih =>
    have hrest : withCounts count (f + 1) init = withCounts count' (f + 1) init := ih fun i n array hi => by
      have := h (i + 1) n array hi
      rwa [show f + 1 + i = f + (i + 1) by omega]
    cases member with
    | single has v => rw [withCounts, withCounts, hrest]
    | «repeated» n array => rw [withCounts, withCounts, hrest, show count f = count' f from h 0 n array rfl]

theorem getElem?_withCounts {count : Nat → Nat} {init : List Member} {f i : Nat} {n : Nat} {array : List Value}
    (h : init[i]? = some (.repeated n array)) : (withCounts count f init)[i]? = some (.repeated (count (f + i)) array) := by
  induction init generalizing f i with
  | nil => cases h
  | cons member init ih =>
    cases i with
    | zero => cases h; rfl
    | succ i =>
      have hrest := ih (f := f + 1) h
      rw [show f + 1 + i = f + (i + 1) by omega] at hrest
      cases member <;> exact hrest

theorem set_withCounts {count : Nat → Nat} {init : List Member} {f i m : Nat} {n : Nat} {array : List Value}
    (h : init[i]? = some (.repeated n array)) : (withCounts count f init).set i (.repeated m array) =
      withCounts (fun j => if j = f + i then m else count j) f init := by
  induction init generalizing f i with
  | nil => cases h
  | cons member init ih =>
    cases i with
    | zero =>
      cases h
      rw [withCounts, withCounts, List.set_cons_zero, if_pos (Nat.add_zero f).symm]
      refine congrArg (_ :: ·) (withCounts_congr fun j _ _ _ => ?_)
      rw [if_neg (by omega)]
    | succ i =>
      have hrest := ih (f := f + 1) h
      rw [show f + 1 + i = f + (i + 1) by omega] at hrest
      cases member with
      | single has v => rw [withCounts, withCounts, List.set_cons_succ, hrest]
      | «repeated» n' array' => rw [withCounts, withCounts, List.set_cons_succ, hrest, if_neg (by omega)]

theorem addCount_withCounts {count : Nat → Nat} {init : List Member} {i m : Nat} {n : Nat} {array : List Value}
    (h : init[i]? = some (.repeated n array)) : addCount (withCounts count 0 init) i m =
      some (withCounts (fun j => if j = i then count i + m else count j) 0 init) := by
  have hget : (withCounts count 0 init)[i]? = _ := getElem?_withCounts h
  have hset : (withCounts count 0 init).set i (.repeated (count i + m) array) = _ := set_withCounts h
  rw [Nat.zero_add] at hget hset
  rw [addCount, hget, ← hset]
  rfl

/-! ## Slabs -/

/-- All slabs but the last are full. -/
structure Slabs.Valid (s : Slabs) : Prop where
  full : s.full.flatten.length = 16 * (2 ^ s.full.length - 1)
  slab : s.slab.length ≤ 16 * 2 ^ s.full.length
  count : s.full.length ≤ maxScannedMemberSlab

theorem Slabs.push_eq {s : Slabs} (h : s.Valid) (tmp : ScannedMember) :
    if s.members.length = maxMembers then s.push tmp = .fail
    else s.members.length < maxMembers ∧ ∃ s', s.push tmp = .ok s' ∧ s'.Valid ∧ s'.members = s.members ++ [tmp] := by
  obtain ⟨hfull, hslab, hcount⟩ := h
  have hsize : 1 <<< (s.full.length + 4) = 16 * 2 ^ s.full.length := by
    rw [Nat.shiftLeft_eq, pow_add]
    ring
  have hlen : s.members.length = 16 * (2 ^ s.full.length - 1) + s.slab.length := by
    rw [Slabs.members, List.length_append, hfull]
  have hpow : 2 ^ s.full.length ≤ 2 ^ 22 := Nat.pow_le_pow_right (by decide) hcount
  have hpos := Nat.two_pow_pos s.full.length
  rw [hlen, maxMembers, Slabs.push, hsize]
  by_cases hfilled : s.slab.length = 16 * 2 ^ s.full.length
  · rw [if_pos hfilled]
    by_cases hlast : s.full.length = maxScannedMemberSlab
    · rw [if_pos hlast]
      rw [hfilled, hlast, maxScannedMemberSlab]
      exact if_pos rfl ▸ rfl
    · rw [if_neg hlast]
      have hnext : 2 ^ (s.full.length + 1) ≤ 2 ^ 22 :=
        Nat.pow_le_pow_right (by decide) (Nat.lt_of_le_of_ne hcount hlast)
      rw [pow_succ] at hnext
      rw [if_neg (by omega)]
      refine ⟨by omega, _, rfl, ⟨?_, ?_, ?_⟩, ?_⟩
      · rw [List.flatten_append, List.length_append, hfull, List.length_append, List.flatten_singleton,
          List.length_singleton, hfilled, pow_succ]
        omega
      · rw [List.length_singleton, List.length_append, List.length_singleton, pow_succ]
        omega
      · rw [List.length_append, List.length_singleton]
        exact Nat.lt_of_le_of_ne hcount hlast
      · simp only [Slabs.members, List.flatten_append, List.flatten_singleton, List.append_assoc]
  · rw [if_neg hfilled, if_neg (by omega), if_pos (Nat.lt_of_le_of_ne hslab hfilled)]
    refine ⟨by omega, _, rfl, ⟨hfull, ?_, hcount⟩, ?_⟩
    · change (s.slab ++ [tmp]).length ≤ 16 * 2 ^ s.full.length
      rw [List.length_append, List.length_singleton]
      omega
    · simp only [Slabs.members, List.append_assoc]

/-! ## The first pass -/

/-- After the records `rs`. -/
structure Scanned (desc : ProtobufCMessageDescriptor) (rs : List Record) (st : Scan) : Prop where
  last : desc.fields = [] ∨ st.lastFieldIndex < desc.fields.length
  slabs : st.slabs.Valid
  scans : List.Forall₂ (IsScan desc.fields) rs st.slabs.members
  nUnknown : st.nUnknown = unknownCount desc.fields rs
  bitmapLength : desc.fields.length ≤ st.bitmap.length
  bitmap : ∀ i < desc.fields.length, desc.fields[i]?.map (·.label) = some .required →
    st.bitmap[i]? = some (decide (∃ r ∈ rs, recordIndex desc.fields r = some i))
  members : st.members = withCounts (fieldCount desc.fields rs) 0 desc.init

theorem lookupField_eq {desc : ProtobufCMessageDescriptor} (hd : desc.WellFormed) {last : Nat}
    (hlast : desc.fields = [] ∨ last < desc.fields.length) (tag : UInt32) :
    lookupField desc last tag = some (fieldIndex desc.fields tag) := by
  have hlookup : (do
      let fieldIndex ← intRangeLookup desc.nFieldRanges desc.fieldRanges tag.toInt32.toInt
      return if fieldIndex < 0 then none else some fieldIndex.toNat) = some (fieldIndex desc.fields tag) := by
    rw [intRangeLookup_eq hd.ranges]
    cases fieldIndex desc.fields tag with
    | none => rfl
    | some k =>
      change some (if (k : Int) < 0 then none else some (k : Int).toNat) = _
      rw [if_neg (by omega), Int.toNat_natCast]
  rw [lookupField]
  split
  case h_1 => exact hlookup
  case h_2 first fields hfields =>
    have hlt : last < desc.fields.length := hlast.resolve_left (by rw [hfields]; exact List.cons_ne_nil _ _)
    have hget := List.getElem?_eq_getElem hlt
    rw [hget]
    change (if desc.fields[last].id ≠ tag then _ else _) = _
    by_cases hid : desc.fields[last].id = tag
    · rw [if_neg (not_not.2 hid), ← hid, fieldIndex_of_id hd.ranges.nodup hget]
      rfl
    · rw [if_pos hid]
      exact hlookup

/-- What the note of a field does to the counts of fields. -/
theorem noteField_eq {desc : ProtobufCMessageDescriptor} {rs : List Record} {st : Scan} (h : Scanned desc rs st)
    (r : Record) : ∃ st', noteField desc st (recordIndex desc.fields r) = some st' ∧
      (desc.fields = [] ∨ st'.lastFieldIndex < desc.fields.length) ∧ st'.slabs = st.slabs ∧ st'.members = st.members ∧
      st'.ptr = st.ptr ∧ st'.rem = st.rem ∧ st'.nUnknown = unknownCount desc.fields (rs ++ [r]) ∧
      desc.fields.length ≤ st'.bitmap.length ∧
      ∀ i < desc.fields.length, desc.fields[i]?.map (·.label) = some .required →
        st'.bitmap[i]? = some (decide (∃ r' ∈ rs ++ [r], recordIndex desc.fields r' = some i)) := by
  have hmem : ∀ i, recordIndex desc.fields r ≠ some i →
      ((∃ r' ∈ rs ++ [r], recordIndex desc.fields r' = some i) ↔ ∃ r' ∈ rs, recordIndex desc.fields r' = some i) := by
    intro i hne
    constructor
    · rintro ⟨r', hr', hi⟩
      rcases List.mem_append.1 hr' with hr' | hr'
      · exact ⟨r', hr', hi⟩
      · rw [List.mem_singleton.1 hr'] at hi
        exact absurd hi hne
    · rintro ⟨r', hr', hi⟩
      exact ⟨r', List.mem_append_left _ hr', hi⟩
  cases hindex : recordIndex desc.fields r with
  | none =>
    refine ⟨_, rfl, h.last, rfl, rfl, rfl, rfl, ?_, h.bitmapLength, fun i hi hlabel => ?_⟩
    · rw [unknownCount, List.countP_append, List.countP_singleton, if_pos (by rw [hindex]; rfl), ← unknownCount,
        ← h.nUnknown]
    · rw [h.bitmap i hi hlabel, decide_eq_decide.2 (hmem i (by rw [hindex]; exact (Option.some_ne_none i).symm))]
  | some k =>
    obtain ⟨field, hk, -⟩ := fieldIndex_eq_some hindex
    have hlt : k < desc.fields.length := (List.getElem?_eq_some_iff.1 hk).1
    have hunknown : st.nUnknown = unknownCount desc.fields (rs ++ [r]) := by
      rw [unknownCount, List.countP_append, List.countP_singleton, if_neg (by rw [hindex]; exact Bool.false_ne_true),
        ← unknownCount, ← h.nUnknown]
      rfl
    have hother : ∀ i, k ≠ i → ((∃ r' ∈ rs ++ [r], recordIndex desc.fields r' = some i) ↔
        ∃ r' ∈ rs, recordIndex desc.fields r' = some i) := fun i hne =>
      hmem i (by rw [hindex]; exact fun heq => hne (Option.some.inj heq))
    by_cases hrequired : field.label = .required
    · have hset : requiredFieldBitmapSet st.bitmap k = some (st.bitmap.set k true) :=
        if_pos (Nat.lt_of_lt_of_le hlt h.bitmapLength)
      refine ⟨{ st with lastFieldIndex := k, bitmap := st.bitmap.set k true }, ?_, .inr hlt, rfl, rfl, rfl, rfl,
        hunknown, ?_, fun i hi hlabel => ?_⟩
      · simp only [noteField, hk, Option.bind_eq_bind, Option.bind_some, if_pos hrequired, hset]
        rfl
      · rw [List.length_set]
        exact h.bitmapLength
      · by_cases hki : k = i
        · subst hki
          rw [List.getElem?_set_self (Nat.lt_of_lt_of_le hlt h.bitmapLength)]
          exact congrArg some (decide_eq_true ⟨r, List.mem_append_right _ (List.mem_singleton_self r), hindex⟩).symm
        · rw [List.getElem?_set_ne hki, h.bitmap i hi hlabel, decide_eq_decide.2 (hother i hki)]
    · refine ⟨{ st with lastFieldIndex := k }, ?_, .inr hlt, rfl, rfl, rfl, rfl, hunknown, h.bitmapLength,
        fun i hi hlabel => ?_⟩
      · simp only [noteField, hk, Option.bind_eq_bind, Option.bind_some, if_neg hrequired]
        rfl
      · have hki : k ≠ i := by
          rintro rfl
          rw [hk] at hlabel
          exact hrequired (Option.some.inj hlabel)
        exact (h.bitmap i hi hlabel).trans (congrArg some (decide_eq_decide.2 (hother i hki)).symm)

theorem countMember_eq {fields : List ProtobufCFieldDescriptor} {field : ProtobufCFieldDescriptor} {r : Record}
    {tmp : ScannedMember} (hs : IsScan fields r tmp) (hr : Readable r) :
    countMember field tmp = Outcome.total (recordCount field r) := by
  rw [countMember, recordCount, hs.wireType]
  split_ifs with hpacked
  · have hw : r.wireType = 2 := by
      rw [isPackedMember, Bool.and_eq_true, decide_eq_true_iff] at hpacked
      exact (hr.ofNat_eq_iff (n := 2) (by decide)).1 hpacked.1
    obtain ⟨rest, hdata⟩ := hs.data
    have hdelimited := hr.shape.2.2.2 hw
    have hrem : tmp.len - tmp.lengthPrefixLen = (payload r.body).length := by
      rw [hs.len, hs.prefixLen, hw]
      omega
    have hptr : tmp.data.drop tmp.lengthPrefixLen = payload r.body ++ rest := by
      rw [hdata, hs.prefixLen, hw, List.drop_append_of_le_length (by omega)]
      rfl
    rw [hrem, hptr, countPackedElements_eq]
  · rfl

theorem fieldCount_singleton {fields : List ProtobufCFieldDescriptor} {r : Record} {i : Nat}
    {field : ProtobufCFieldDescriptor} (hi : fields[i]? = some field) : fieldCount fields [r] i =
      if recordIndex fields r = some i then (recordCount field r).getD 0 else 0 := by
  rw [fieldCount, fieldCount, hi, Nat.add_zero, Option.bind_some]

/-- The counts change for the field of the record, if it is a repeated one. -/
theorem countScanned_eq {desc : ProtobufCMessageDescriptor} (hd : desc.WellFormed) (rs : List Record) {r : Record}
    {tmp : ScannedMember} (hs : IsScan desc.fields r tmp) (hr : Readable r) :
    (Countable desc.fields r ∧ countScanned desc (withCounts (fieldCount desc.fields rs) 0 desc.init) tmp =
        .ok (withCounts (fieldCount desc.fields (rs ++ [r])) 0 desc.init)) ∨
      (¬Countable desc.fields r ∧ countScanned desc (withCounts (fieldCount desc.fields rs) 0 desc.init) tmp = .fail) := by
  have hsame : (∀ i n array, desc.init[i]? = some (.repeated n array) → recordIndex desc.fields r ≠ some i) →
      withCounts (fieldCount desc.fields (rs ++ [r])) 0 desc.init = withCounts (fieldCount desc.fields rs) 0 desc.init := by
    intro hne
    refine withCounts_congr fun i n array hi => ?_
    rw [Nat.zero_add, fieldCount_append, fieldCount, if_neg (hne i n array hi)]
    rfl
  cases hindex : recordIndex desc.fields r with
  | none =>
    refine .inl ⟨fun i field hi => ?_, ?_⟩
    · cases hindex.symm.trans hi
    · rw [hsame fun i n array _ => by rw [hindex]; exact (Option.some_ne_none i).symm, countScanned, hs.field, hindex]
      rfl
  | some k =>
    obtain ⟨field, hk, -⟩ := fieldIndex_eq_some hindex
    obtain ⟨member, hinit, hmember⟩ := Pointwise.exists_get hd.init hk
    have hscan : ∀ members, countScanned desc members tmp = if field.label = .repeated then do
        addCount members k (← Outcome.total (recordCount field r)) else .ok members := fun members => by
      simp only [countScanned, hs.field, hindex, hk, Outcome.lift_some, Outcome.bind_ok, countMember_eq hs hr,
        Outcome.pure_eq]
    rw [hscan]
    by_cases hlabel : field.label = .repeated
    · cases member with
      | single has v => exact absurd hlabel hmember.1
      | «repeated» n array =>
        rw [if_pos hlabel]
        cases hcount : recordCount field r with
        | none =>
          refine .inr ⟨fun h => ?_, rfl⟩
          obtain ⟨m, hm⟩ := h k field hindex hk hlabel
          cases hcount.symm.trans hm
        | some m =>
          refine .inl ⟨fun i field' hi hget _ => ?_, ?_⟩
          · cases hindex.symm.trans hi
            cases hk.symm.trans hget
            exact ⟨m, hcount⟩
          · rw [Outcome.total, Outcome.bind_ok, addCount_withCounts hinit, Outcome.lift_some]
            refine congrArg Outcome.ok (withCounts_congr fun i _ _ _ => ?_)
            rw [Nat.zero_add, fieldCount_append]
            split_ifs with hik
            · rw [hik, fieldCount_singleton hk, if_pos hindex, hcount, Option.getD_some]
            · rw [fieldCount, if_neg (by rw [hindex]; exact fun heq => hik (Option.some.inj heq).symm)]
              rfl
    · refine .inl ⟨fun i field' hi hget hrep => ?_, ?_⟩
      · cases hindex.symm.trans hi
        cases hk.symm.trans hget
        exact absurd hrep hlabel
      · rw [if_neg hlabel, hsame fun i n array hi heq => ?_]
        cases hindex.symm.trans heq
        cases hinit.symm.trans hi
        exact hlabel hmember.1

/-- The front of a stream that has a tag. -/
theorem split_of_front {bs key : List UInt8} (hfront : front 5 bs = some key) : split bs =
    if (key.headD 0).toNat < 8 then none else (bodyOf (value key % 8) (bs.drop key.length)).map fun bytes =>
      (⟨value key / 8, value key % 8, bytes⟩, (bs.drop key.length).drop bytes.length) := by
  rw [split, hfront]
  split_ifs with hzero
  · exact if_pos hzero
  · refine (if_neg hzero).trans ?_
    cases bodyOf (value key % 8) (bs.drop key.length) <;> rfl

/-- A round reads a record. -/
theorem scanStep_eq {desc : ProtobufCMessageDescriptor} (hd : desc.WellFormed) {rs : List Record} {st : Scan}
    {bs rest : List UInt8} (h : Scanned desc rs st) (hptr : st.ptr = bs ++ rest) (hrem : st.rem = bs.length)
    (hpos : 0 < bs.length) (hshort : bs.length < 2 ^ 32) :
    (split bs = none ∧ scanStep desc st = .fail) ∨ ∃ r bs', split bs = some (r, bs') ∧ Readable r ∧
      ((¬(rs.length < maxMembers ∧ Countable desc.fields r) ∧ scanStep desc st = .fail) ∨
        ((rs.length < maxMembers ∧ Countable desc.fields r) ∧ ∃ st', scanStep desc st = .ok st' ∧
          Scanned desc (rs ++ [r]) st' ∧ st'.ptr = bs' ++ rest ∧ st'.rem = bs'.length)) := by
  obtain ⟨used, tag, wireType, hparse, hkey⟩ := parseTagAndWiretype_eq hpos rest
  cases hfront : front 5 bs with
  | none =>
    rw [hfront] at hkey
    refine .inl ⟨by rw [split, hfront]; rfl, ?_⟩
    simp only [scanStep, hrem, hptr, hparse, Outcome.lift_some, Outcome.bind_ok]
    exact if_pos hkey
  | some key =>
    rw [hfront] at hkey
    rw [split_of_front hfront]
    by_cases hzero : (key.headD 0).toNat < 8
    · simp only [if_pos hzero] at hkey ⊢
      refine .inl ⟨trivial, ?_⟩
      simp only [scanStep, hrem, hptr, hparse, Outcome.lift_some, Outcome.bind_ok]
      exact if_pos hkey
    simp only [if_neg hzero] at hkey ⊢
    obtain ⟨rfl, rfl, rfl⟩ := hkey
    obtain ⟨hends, hmax, bs', rfl⟩ := front_eq_some hfront
    have hused : ¬key.length = 0 := Nat.pos_iff_ne_zero.1 (ends_ne_nil hends)
    have hlookup := lookupField_eq hd h.last (UInt32.ofNat (value key / 8))
    have hdrop : (key ++ bs' ++ rest).drop key.length = bs' ++ rest := by rw [List.append_assoc, List.drop_left]
    have hsub : (key ++ bs').length - key.length = bs'.length := by rw [List.length_append, Nat.add_sub_cancel_left]
    rw [List.drop_left]
    cases hbody : bodyOf (value key % 8) bs' with
    | none =>
      obtain ⟨st', hnote, -, -, -, hptr', hrem', -⟩ := noteField_eq h ⟨value key / 8, value key % 8, []⟩
      refine .inl ⟨rfl, ?_⟩
      rw [recordIndex] at hnote
      simp only [scanStep, hrem, hptr, hparse, Outcome.lift_some, Outcome.bind_ok, if_neg hused, hlookup, hnote, hptr',
        hrem', hdrop, hsub, scanBody_eq (Nat.mod_lt (value key) (by decide)), hbody]
      rfl
    | some bytes =>
      obtain ⟨-, -, tail, rfl⟩ := bodyOf_eq_some hbody
      rw [List.length_append, List.length_append] at hshort
      have hr : Readable ⟨value key / 8, value key % 8, bytes⟩ := ⟨bodyOf_self hbody, by
        change bytes.length < 2 ^ 32
        omega⟩
      obtain ⟨st', hnote, hlast, hslabs, hmembers, hptr', hrem', hunknown, hlength, hbitmap⟩ :=
        noteField_eq h ⟨value key / 8, value key % 8, bytes⟩
      let tmp : ScannedMember := ⟨UInt32.ofNat (value key / 8), UInt8.ofNat (value key % 8),
        bodyPrefix (value key % 8) bytes, fieldIndex desc.fields (UInt32.ofNat (value key / 8)), bytes.length,
        bytes ++ tail ++ rest⟩
      have htmp : IsScan desc.fields ⟨value key / 8, value key % 8, bytes⟩ tmp :=
        ⟨rfl, rfl, rfl, rfl, rfl, tail ++ rest, List.append_assoc _ _ _⟩
      have hlen : rs.length = st.slabs.members.length := h.scans.length_eq
      refine .inr ⟨_, tail, by rw [Option.map_some, List.drop_left], hr, ?_⟩
      rw [recordIndex] at hnote
      have hstep : scanStep desc st = (do
          let slabs ← st.slabs.push tmp
          let members ← countScanned desc st.members tmp
          return { st' with rem := (bytes ++ tail).length - bytes.length, ptr := (bytes ++ tail ++ rest).drop bytes.length,
                            slabs, members }) := by
        simp only [scanStep, hrem, hptr, hparse, Outcome.lift_some, Outcome.bind_ok, if_neg hused, hlookup, hnote,
          hptr', hrem', hslabs, hmembers, hdrop, hsub, scanBody_eq (Nat.mod_lt (value key) (by decide)), hbody,
          Option.map_some, Outcome.total]
        rfl
      rw [hstep]
      have hpush := Slabs.push_eq h.slabs tmp
      split_ifs at hpush with hfull
      · exact .inl ⟨fun hlt => absurd hlt.1 (by rw [hlen, hfull]; exact Nat.lt_irrefl _), by rw [hpush]; rfl⟩
      obtain ⟨hroom, slabs, hpush, hvalid, hslabs'⟩ := hpush
      rw [hpush, h.members, Outcome.bind_ok]
      rcases countScanned_eq hd rs htmp hr with ⟨hcountable, hcount⟩ | ⟨hnot, hcount⟩
      · rw [hcount]
        refine .inr ⟨⟨by rw [hlen]; exact hroom, hcountable⟩, _, rfl, ⟨hlast, hvalid, ?_, hunknown, hlength, hbitmap, rfl⟩,
          ?_, ?_⟩
        · rw [hslabs']
          exact List.rel_append h.scans (List.Forall₂.cons htmp .nil)
        · change (bytes ++ tail ++ rest).drop bytes.length = _
          rw [List.append_assoc, List.drop_left]
        · change (bytes ++ tail).length - bytes.length = _
          rw [List.length_append, Nat.add_sub_cancel_left]
      · exact .inl ⟨fun hlt => hnot hlt.2, by rw [hcount]; rfl⟩

/-- The loop reads the stream, unless it has more records than fit or one that
cannot be counted. -/
theorem scanLoop_eq {desc : ProtobufCMessageDescriptor} (hd : desc.WellFormed) {fuel : Nat} {rs : List Record}
    {st : Scan} {bs rest : List UInt8} (h : Scanned desc rs st) (hptr : st.ptr = bs ++ rest) (hrem : st.rem = bs.length)
    (hfuel : bs.length ≤ fuel) (hshort : bs.length < 2 ^ 32) (hroom : rs.length ≤ maxMembers) :
    ((∀ rs', parse bs = some rs' → ¬((rs ++ rs').length ≤ maxMembers ∧ ∀ r ∈ rs', Countable desc.fields r)) ∧
        scanLoop desc fuel st = .fail) ∨
      ∃ rs', parse bs = some rs' ∧ ((rs ++ rs').length ≤ maxMembers ∧ ∀ r ∈ rs', Countable desc.fields r) ∧
        ∃ st', scanLoop desc fuel st = .ok st' ∧ Scanned desc (rs ++ rs') st' := by
  induction fuel generalizing bs rs st with
  | zero =>
    obtain rfl := List.eq_nil_of_length_eq_zero (Nat.le_zero.1 hfuel)
    refine .inr ⟨[], parse_nil, ⟨by rwa [List.append_nil], fun r hr => absurd hr List.not_mem_nil⟩, st, ?_, ?_⟩
    · rw [scanLoop, hrem]
      rfl
    · rwa [List.append_nil]
  | succ fuel ih =>
    by_cases hnil : bs = []
    · subst hnil
      refine .inr ⟨[], parse_nil, ⟨by rwa [List.append_nil], fun r hr => absurd hr List.not_mem_nil⟩, st, ?_, ?_⟩
      · rw [scanLoop, hrem]
        rfl
      · rwa [List.append_nil]
    have hpos := List.length_pos_of_ne_nil hnil
    have hloop : scanLoop desc (fuel + 1) st = (do scanLoop desc fuel (← scanStep desc st)) := by
      rw [scanLoop, hrem, if_pos hpos]
    rw [hloop]
    rcases scanStep_eq hd h hptr hrem hpos hshort with ⟨hsplit, hstep⟩ | ⟨r, bs', hsplit, hr, hstep⟩
    · refine .inl ⟨fun rs' hparse => ?_, by rw [hstep]; rfl⟩
      rw [parse_of_not_split hnil hsplit] at hparse
      cases hparse
    have hparse := parse_of_split hsplit
    obtain ⟨-, -, key, hbs, hkey⟩ := split_eq_some hsplit
    have hlen := congrArg List.length hbs
    rw [List.length_append, List.length_append] at hlen
    rcases hstep with ⟨hnot, hstep⟩ | ⟨⟨hlt, hcountable⟩, st', hstep, hscanned, hptr', hrem'⟩
    · refine .inl ⟨fun rs' hrs' hall => hnot ?_, by rw [hstep]; rfl⟩
      rw [hparse] at hrs'
      obtain ⟨tail, -, rfl⟩ := Option.map_eq_some_iff.1 hrs'
      rw [List.length_append, List.length_cons] at hall
      exact ⟨by omega, hall.2 r List.mem_cons_self⟩
    · rw [hstep, Outcome.bind_ok]
      have hassoc : ∀ tail, rs ++ [r] ++ tail = rs ++ r :: tail := fun tail => by
        rw [List.append_assoc, List.singleton_append]
      rcases ih hscanned hptr' hrem' (by omega) (by omega) (by rw [List.length_append, List.length_singleton]; omega) with
        ⟨hnone, hfail⟩ | ⟨tail, htail, ⟨hroom', hall⟩, st'', hok, hscanned'⟩
      · refine .inl ⟨fun rs' hrs' hall => ?_, hfail⟩
        rw [hparse] at hrs'
        obtain ⟨tail, htail, rfl⟩ := Option.map_eq_some_iff.1 hrs'
        refine hnone tail htail ⟨by rw [hassoc]; exact hall.1, fun r' hr' => hall.2 r' (List.mem_cons_of_mem _ hr')⟩
      · rw [hassoc] at hroom' hscanned'
        refine .inr ⟨r :: tail, by rw [hparse, htail, Option.map_some], ⟨hroom', ?_⟩, st'', hok, hscanned'⟩
        exact List.forall_mem_cons.2 ⟨hcountable, hall⟩

/-! ## Between the passes -/

/-- The sizes of the arrays. -/
def arraySizes (count : Nat → Nat) : Nat → List Member → List Nat
  | _, [] => []
  | i, .repeated _ _ :: members => count i :: arraySizes count (i + 1) members
  | i, .single _ _ :: members => 0 :: arraySizes count (i + 1) members

/-- The required fields from `f` on have their bits. -/
def BitsSet (bitmap : List Bool) (fields : List ProtobufCFieldDescriptor) (f : Nat) : Prop :=
  ∀ i < fields.length, fields[i]?.map (·.label) = some .required → bitmap[f + i]? = some true

theorem bitsSet_cons {bitmap : List Bool} {field : ProtobufCFieldDescriptor} {fields : List ProtobufCFieldDescriptor}
    {f : Nat} : BitsSet bitmap (field :: fields) f ↔
      (field.label = .required → bitmap[f]? = some true) ∧ BitsSet bitmap fields (f + 1) := by
  constructor
  · intro h
    refine ⟨fun hlabel => h 0 (Nat.succ_pos _) (congrArg some hlabel), fun i hi hlabel => ?_⟩
    have := h (i + 1) (Nat.succ_lt_succ hi) hlabel
    rwa [show f + (i + 1) = f + 1 + i by omega] at this
  · rintro ⟨hfirst, hrest⟩ i hi hlabel
    cases i with
    | zero => exact hfirst (Option.some.inj hlabel)
    | succ i =>
      have := hrest i (Nat.lt_of_succ_lt_succ hi) hlabel
      rwa [show f + 1 + i = f + (i + 1) by omega] at this

theorem allocFields_eq {bitmap : List Bool} {count : Nat → Nat} (hcount : ∀ i, count i < 2 ^ 32)
    {fields : List ProtobufCFieldDescriptor} {init : List Member} (h : List.Forall₂ InitMember fields init) {f : Nat}
    (hlen : f + fields.length ≤ bitmap.length) :
    (BitsSet bitmap fields f ∧
        allocFields bitmap f fields (withCounts count f init) = .ok (arraySizes count f init, init)) ∨
      (¬BitsSet bitmap fields f ∧ allocFields bitmap f fields (withCounts count f init) = .fail) := by
  induction h generalizing f with
  | nil => exact .inl ⟨fun i hi => absurd hi (Nat.not_lt_zero i), rfl⟩
  | @cons field member fields init hmember _ ih =>
    rw [List.length_cons] at hlen
    rw [bitsSet_cons]
    cases member with
    | «repeated» n array =>
      obtain ⟨hlabel, rfl, rfl⟩ := hmember
      have hother : field.label = .required → bitmap[f]? = some true := fun h => by
        rw [hlabel] at h
        cases h
      rw [withCounts, allocFields, if_neg (not_not.2 hlabel)]
      rcases ih (f := f + 1) (by omega) with ⟨hset, hok⟩ | ⟨hnot, hfail⟩
      · refine .inl ⟨⟨hother, hset⟩, ?_⟩
        rw [hok, Outcome.bind_ok]
        by_cases hzero : count f = 0
        · simp only [hzero, arraySizes]
          rfl
        · simp only [arraySizes, ne_eq, hzero, not_false_eq_true, if_true, Outcome.pure_eq, UInt32.toNat_ofNat',
            Nat.mod_eq_of_lt (hcount f)]
      · exact .inr ⟨fun h => hnot h.2, by rw [hfail]; rfl⟩
    | single has v =>
      have hlabel : field.label ≠ .repeated := hmember.1
      have hbit : f < bitmap.length := by omega
      have hget := List.getElem?_eq_getElem hbit
      rw [withCounts, allocFields, if_neg hlabel, hget, Outcome.lift_some, Outcome.bind_ok]
      by_cases hmissing : field.label = .required ∧ bitmap[f] = false
      · refine .inr ⟨fun h => ?_, ?_⟩
        · have hbit := Option.some.inj (h.1 hmissing.1)
          rw [hmissing.2] at hbit
          cases hbit
        · rw [hmissing.1, hmissing.2]
          rfl
      · have hpass : (decide (field.label = .required) && !bitmap[f]) = false := by
          rw [← Bool.not_eq_true, Bool.and_eq_true, decide_eq_true_iff, Bool.not_eq_true']
          exact hmissing
        have hfirst : field.label = .required → some bitmap[f] = some true := fun h => by
          rw [not_and, Bool.not_eq_false] at hmissing
          rw [hmissing h]
        rw [hpass, if_neg Bool.false_ne_true]
        rcases ih (f := f + 1) (by omega) with ⟨hset, hok⟩ | ⟨hnot, hfail⟩
        · exact .inl ⟨⟨hfirst, hset⟩, by rw [hok]; rfl⟩
        · exact .inr ⟨fun h => hnot h.2, by rw [hfail]; rfl⟩

/-! ## The second pass -/

/-- A repeated field's array has as many elements as it counts, and room for
those that are left. -/
def HasRoom (sizes : List Nat) (field : ProtobufCFieldDescriptor) (i left : Nat) : Member → Prop
  | .single _ _ => field.label ≠ .repeated
  | .repeated n array => field.label = .repeated ∧ n = array.length ∧ ∃ size, sizes[i]? = some size ∧ n + left ≤ size

/-- While the records `rs` are left. -/
structure Parsed (desc : ProtobufCMessageDescriptor) (sizes : List Nat) (nUnknown : Nat) (rs : List Record)
    (st : Parsing) : Prop where
  members : ∀ i field, desc.fields[i]? = some field → ∃ member, st.members[i]? = some member ∧
    HasRoom sizes field i (fieldCount desc.fields rs i) member
  unknownFields : st.unknownFields.length + unknownCount desc.fields rs ≤ nUnknown

theorem isPackedMember_wireType {field : ProtobufCFieldDescriptor} {r : Record} (hr : Readable r)
    (h : isPackedMember field (UInt8.ofNat r.wireType) = true) : r.wireType = 2 := by
  rw [isPackedMember, Bool.and_eq_true, decide_eq_true_iff] at h
  exact (hr.ofNat_eq_iff (n := 2) (by decide)).1 h.1

/-- A record of a field takes the room it was counted for. -/
theorem Parsed.set {desc : ProtobufCMessageDescriptor} {sizes : List Nat} {nUnknown : Nat} {r : Record}
    {rs : List Record} {st : Parsing} (h : Parsed desc sizes nUnknown (r :: rs) st) {k : Nat}
    {field : ProtobufCFieldDescriptor} (hindex : recordIndex desc.fields r = some k) (hk : desc.fields[k]? = some field)
    {member : Member} (hmember : HasRoom sizes field k (fieldCount desc.fields rs k) member) :
    Parsed desc sizes nUnknown rs { st with members := st.members.set k member } := by
  refine ⟨fun i field' hi => ?_, ?_⟩
  · obtain ⟨old, hold, hroom⟩ := h.members i field' hi
    by_cases hki : k = i
    · subst hki
      cases hk.symm.trans hi
      exact ⟨member, List.getElem?_set_self (List.getElem?_eq_some_iff.1 hold).1, hmember⟩
    · have hcount : fieldCount desc.fields (r :: rs) i = fieldCount desc.fields rs i := by
        rw [fieldCount, if_neg (by rw [hindex]; exact fun heq => hki (Option.some.inj heq)), Nat.zero_add]
      rw [hcount] at hroom
      exact ⟨old, (List.getElem?_set_ne hki).trans hold, hroom⟩
  · have hle := h.unknownFields
    rw [unknownCount, List.countP_cons_of_neg (by rw [hindex]; exact Bool.false_ne_true)] at hle
    exact hle

theorem applyRecord_of_index {D : Descriptors} {sub : Nat → List UInt8 → Option ProtobufCMessage}
    {fields : List ProtobufCFieldDescriptor} {field : ProtobufCFieldDescriptor} {st : Parsing} {r : Record} {i : Nat}
    {member : Member} (hindex : recordIndex fields r = some i) (hi : fields[i]? = some field)
    (hmember : st.members[i]? = some member) : applyRecord D sub fields st r =
      (decodeMember D sub field r member).map fun member => { st with members := st.members.set i member } := by
  simp only [applyRecord, hindex, hi, hmember, Option.bind_eq_bind, Option.bind_some]
  cases decodeMember D sub field r member <;> rfl

/-- A scanned member is parsed as its record is decoded. -/
theorem parseMember_eq {D : Descriptors} {unpack : Unpack} {sub : Nat → List UInt8 → Option ProtobufCMessage}
    {desc : ProtobufCMessageDescriptor} {sizes : List Nat} {nUnknown : Nat} {r : Record} {rs : List Record}
    {st : Parsing} {scannedMember : ScannedMember} (h : Parsed desc sizes nUnknown (r :: rs) st)
    (hs : IsScan desc.fields r scannedMember) (hr : Readable r) (hcountable : Countable desc.fields r)
    (hsub : r.wireType = 2 → ∀ descriptor rest, unpack descriptor (payload r.body).length (payload r.body ++ rest) =
      Outcome.total (sub descriptor (payload r.body))) :
    parseMember D unpack desc sizes nUnknown st scannedMember = Outcome.total (applyRecord D sub desc.fields st r) ∧
      ∀ st', applyRecord D sub desc.fields st r = some st' → Parsed desc sizes nUnknown rs st' := by
  have hrequired : ∀ field old, parseRequiredMember D unpack field scannedMember old =
      Outcome.total (decodeValue D sub field old r) := fun field old => parseRequiredMember_eq old hs hr hsub
  cases hindex : recordIndex desc.fields r with
  | none =>
    obtain ⟨rest, hdata⟩ := hs.data
    have hle := h.unknownFields
    rw [unknownCount, List.countP_cons_of_pos (by rw [hindex]; rfl), ← unknownCount] at hle
    refine ⟨?_, fun st' hst' => ?_⟩
    · rw [parseMember, hs.field, hindex, applyRecord, hindex]
      simp only [hs.tag, hs.wireType, hs.len, hdata, copy_append, Outcome.lift_some, Outcome.bind_ok, Outcome.pure_eq]
      exact if_pos (by omega)
    · rw [applyRecord, hindex] at hst'
      cases hst'
      refine ⟨fun i field hi => ?_, ?_⟩
      · obtain ⟨member, hmember, hroom⟩ := h.members i field hi
        rw [fieldCount, if_neg (by rw [hindex]; exact (Option.some_ne_none i).symm), Nat.zero_add] at hroom
        exact ⟨member, hmember, hroom⟩
      · change (st.unknownFields ++ [_]).length + _ ≤ _
        rw [List.length_append, List.length_singleton]
        omega
  | some k =>
    obtain ⟨field, hk, -⟩ := fieldIndex_eq_some hindex
    obtain ⟨member, hmember, hroom⟩ := h.members k field hk
    rw [applyRecord_of_index hindex hk hmember]
    cases member with
    | single has v =>
      refine ⟨?_, fun st' hst' => ?_⟩
      · have hrepeated : field.label ≠ .repeated := hroom
        simp only [parseMember, hs.field, hindex, hk, hmember, Outcome.lift_some, Outcome.bind_ok, hrequired, decodeMember]
        cases hlabel : field.label with
        | «repeated» => exact absurd hlabel hrepeated
        | _ =>
          dsimp only
          cases decodeValue D sub field (some v) r <;> simp [Outcome.total]
      · obtain ⟨member, hdecode, rfl⟩ := Option.map_eq_some_iff.1 hst'
        obtain ⟨v', -, heq⟩ := Option.bind_eq_some_iff.1 hdecode
        cases heq
        exact h.set hindex hk hroom
    | «repeated» n array =>
      obtain ⟨hlabel, rfl, size, hsize, hle⟩ := hroom
      obtain ⟨m, hm⟩ := hcountable k field hindex hk hlabel
      rw [fieldCount, if_pos hindex, hk, Option.bind_some, hm, Option.getD_some] at hle
      by_cases hpacked : isPackedMember field (UInt8.ofNat r.wireType)
      · rw [recordCount, if_pos hpacked] at hm
        have hparse : parsePackedRepeatedMember field size scannedMember array = _ :=
          parsePackedRepeatedMember_eq hs hr (isPackedMember_wireType hr hpacked) hm (by omega)
        refine ⟨?_, fun st' hst' => ?_⟩
        · simp only [parseMember, hs.field, hindex, hk, hmember, Outcome.lift_some, Outcome.bind_ok, hlabel, hsize,
            hs.wireType, hpacked, if_true, hparse, decodeMember]
          cases decodePacked field.type (payload r.body) <;> simp [Outcome.total]
        · obtain ⟨member, hdecode, rfl⟩ := Option.map_eq_some_iff.1 hst'
          rw [decodeMember, if_pos hpacked] at hdecode
          obtain ⟨elements, helements, heq⟩ := Option.bind_eq_some_iff.1 hdecode
          cases heq
          obtain ⟨m', hm', hfew⟩ := decodePacked_count helements
          cases hm.symm.trans hm'
          exact h.set hindex hk ⟨hlabel, List.length_append.symm, size, hsize, by omega⟩
      · rw [recordCount, if_neg hpacked] at hm
        cases hm
        refine ⟨?_, fun st' hst' => ?_⟩
        · simp only [parseMember, hs.field, hindex, hk, hmember, Outcome.lift_some, Outcome.bind_ok, hlabel, hsize,
            hs.wireType, hrequired, decodeMember]
          rw [if_neg hpacked, if_neg hpacked, if_pos (by omega)]
          cases decodeValue D sub field none r <;> rfl
        · obtain ⟨member, hdecode, rfl⟩ := Option.map_eq_some_iff.1 hst'
          rw [decodeMember, if_neg hpacked] at hdecode
          obtain ⟨v, -, heq⟩ := Option.bind_eq_some_iff.1 hdecode
          cases heq
          exact h.set hindex hk ⟨hlabel, by rw [List.length_append, List.length_singleton], size, hsize, by omega⟩

theorem parseMembers_eq {D : Descriptors} {unpack : Unpack} {sub : Nat → List UInt8 → Option ProtobufCMessage}
    {desc : ProtobufCMessageDescriptor} {sizes : List Nat} {nUnknown : Nat} {rs : List Record}
    {slab : List ScannedMember} (hs : List.Forall₂ (IsScan desc.fields) rs slab) {st : Parsing}
    (h : Parsed desc sizes nUnknown rs st) (hr : ∀ r ∈ rs, Readable r ∧ Countable desc.fields r ∧
      (r.wireType = 2 → ∀ descriptor rest, unpack descriptor (payload r.body).length (payload r.body ++ rest) =
        Outcome.total (sub descriptor (payload r.body)))) :
    parseMembers D unpack desc sizes nUnknown slab st =
      Outcome.total (rs.foldlM (applyRecord D sub desc.fields) st) := by
  induction hs generalizing st with
  | nil => rfl
  | @cons r scannedMember rs slab hscan _ ih =>
    rw [List.forall_mem_cons] at hr
    obtain ⟨⟨hread, hcountable, hsub⟩, hrest⟩ := hr
    obtain ⟨hparse, hnext⟩ := parseMember_eq h hscan hread hcountable hsub
    rw [parseMembers, hparse, List.foldlM_cons]
    cases happly : applyRecord D sub desc.fields st r with
    | none => rfl
    | some st' => exact ih (hnext st' happly) hrest

/-! ## Records that cannot be counted -/

def Member.isRepeated : Member → Bool
  | .single _ _ => false
  | .repeated _ _ => true

/-- The repeated fields have arrays. -/
def Shaped (fields : List ProtobufCFieldDescriptor) (members : List Member) : Prop :=
  List.Forall₂ (fun field member => member.isRepeated = decide (field.label = .repeated)) fields members

/-- A decoded member keeps its kind, and its record could be counted. -/
theorem decodeMember_some {D : Descriptors} {sub : Nat → List UInt8 → Option ProtobufCMessage}
    {field : ProtobufCFieldDescriptor} {r : Record} {member member' : Member}
    (h : decodeMember D sub field r member = some member') :
    member'.isRepeated = member.isRepeated ∧ (member.isRepeated = true → ∃ n, recordCount field r = some n) := by
  cases member with
  | single has v =>
    obtain ⟨v', -, heq⟩ := Option.bind_eq_some_iff.1 h
    cases heq
    exact ⟨rfl, fun h => absurd h Bool.false_ne_true⟩
  | «repeated» n array =>
    rw [decodeMember] at h
    rw [recordCount]
    split_ifs at h with hpacked
    · obtain ⟨elements, helements, heq⟩ := Option.bind_eq_some_iff.1 h
      cases heq
      obtain ⟨m, hm, -⟩ := decodePacked_count helements
      exact ⟨rfl, fun _ => ⟨m, by rw [if_pos hpacked, hm]⟩⟩
    · obtain ⟨v, -, heq⟩ := Option.bind_eq_some_iff.1 h
      cases heq
      exact ⟨rfl, fun _ => ⟨1, if_neg hpacked⟩⟩

theorem applyRecord_some {D : Descriptors} {sub : Nat → List UInt8 → Option ProtobufCMessage}
    {fields : List ProtobufCFieldDescriptor} {r : Record} {st st' : Parsing} (h : Shaped fields st.members)
    (happly : applyRecord D sub fields st r = some st') : Countable fields r ∧ Shaped fields st'.members := by
  rw [applyRecord] at happly
  split at happly
  case h_1 hindex =>
    cases happly
    exact ⟨fun i field hi => (Option.some_ne_none i (hi.symm.trans hindex)).elim, h⟩
  case h_2 k hindex =>
    obtain ⟨field, hfield, happly⟩ := Option.bind_eq_some_iff.1 happly
    obtain ⟨member, hmember, happly⟩ := Option.bind_eq_some_iff.1 happly
    obtain ⟨member', hdecode, heq⟩ := Option.bind_eq_some_iff.1 happly
    cases heq
    obtain ⟨hkind, hcount⟩ := decodeMember_some hdecode
    have hshape := Pointwise.get h hfield hmember
    refine ⟨fun i field' hi hfield' hlabel => ?_, Pointwise.set h hfield (hkind.trans hshape)⟩
    cases hindex.symm.trans hi
    cases hfield.symm.trans hfield'
    exact hcount (by rw [hshape, decide_eq_true hlabel])

theorem foldlM_countable {D : Descriptors} {sub : Nat → List UInt8 → Option ProtobufCMessage}
    {fields : List ProtobufCFieldDescriptor} {rs : List Record} {st st' : Parsing} (h : Shaped fields st.members)
    (hfold : rs.foldlM (applyRecord D sub fields) st = some st') : ∀ r ∈ rs, Countable fields r := by
  induction rs generalizing st with
  | nil => exact fun r hr => absurd hr List.not_mem_nil
  | cons r rs ih =>
    rw [List.foldlM_cons] at hfold
    obtain ⟨st₁, happly, hrest⟩ := Option.bind_eq_some_iff.1 hfold
    obtain ⟨hcountable, hshaped⟩ := applyRecord_some h happly
    exact List.forall_mem_cons.2 ⟨hcountable, ih hshaped hrest⟩

theorem ProtobufCMessageDescriptor.WellFormed.shaped {desc : ProtobufCMessageDescriptor} (hd : desc.WellFormed) :
    Shaped desc.fields desc.init := by
  refine hd.init.imp fun field member hmember => ?_
  cases member with
  | single has v => exact (decide_eq_false hmember.1).symm
  | «repeated» n array => exact (decide_eq_true hmember.1).symm

/-! ## Both passes -/

theorem recordCount_le {field : ProtobufCFieldDescriptor} {r : Record} (hr : Readable r) {n : Nat}
    (h : recordCount field r = some n) : n ≤ r.body.length := by
  have hpos := (bodyOf_eq_some hr.body).2.1
  rw [recordCount] at h
  split_ifs at h with hpacked
  · have hle := elementCount_le h
    have hdelimited := hr.shape.2.2.2 (isPackedMember_wireType hr hpacked)
    omega
  · cases h
    exact hpos

theorem fieldCount_le {fields : List ProtobufCFieldDescriptor} {rs : List Record} (hr : ∀ r ∈ rs, Readable r) (i : Nat) :
    fieldCount fields rs i ≤ (rs.map fun r => r.body.length + 1).sum := by
  induction rs with
  | nil => exact Nat.le_refl _
  | cons r rs ih =>
    rw [List.forall_mem_cons] at hr
    have hrest := ih hr.2
    rw [fieldCount, List.map_cons, List.sum_cons]
    have hfirst : (if recordIndex fields r = some i then
        ((fields[i]?.bind fun field => recordCount field r).getD 0) else 0) ≤ r.body.length := by
      split_ifs
      · cases hcount : fields[i]?.bind fun field => recordCount field r with
        | none => exact Nat.zero_le _
        | some n =>
          obtain ⟨field, -, hn⟩ := Option.bind_eq_some_iff.1 hcount
          exact recordCount_le hr.1 hn
      · exact Nat.zero_le _
    omega

theorem getElem?_arraySizes {count : Nat → Nat} {init : List Member} {f i n : Nat} {array : List Value}
    (h : init[i]? = some (.repeated n array)) : (arraySizes count f init)[i]? = some (count (f + i)) := by
  induction init generalizing f i with
  | nil => cases h
  | cons member init ih =>
    cases i with
    | zero => cases h; rfl
    | succ i =>
      have hrest := ih (f := f + 1) h
      rw [show f + 1 + i = f + (i + 1) by omega] at hrest
      cases member <;> exact hrest

theorem Scanned.initial {desc : ProtobufCMessageDescriptor} (hd : desc.WellFormed) (rem : Nat) (ptr : List UInt8) :
    Scanned desc [] ⟨rem, ptr, 0, ⟨[], []⟩, 0, List.replicate ((desc.fields.length + 7) / 8 * 8) false, desc.init⟩ where
  last := by
    cases desc.fields with
    | nil => exact .inl rfl
    | cons field fields => exact .inr (Nat.succ_pos _)
  slabs := ⟨rfl, Nat.zero_le _, Nat.zero_le _⟩
  scans := .nil
  nUnknown := rfl
  bitmapLength := by
    rw [List.length_replicate]
    omega
  bitmap := fun i hi _ => by
    rw [List.getElem?_replicate_of_lt (by omega)]
    exact congrArg some (decide_eq_false fun h => by obtain ⟨r, hr, -⟩ := h; exact List.not_mem_nil hr).symm
  members := (withCounts_zero hd.init 0).symm

theorem Scanned.bitsSet {desc : ProtobufCMessageDescriptor} {rs : List Record} {st : Scan} (h : Scanned desc rs st) :
    BitsSet st.bitmap desc.fields 0 ↔ HasRequired desc.fields rs := by
  refine forall₃_congr fun i hi hlabel => ?_
  rw [Nat.zero_add, h.bitmap i hi hlabel, Option.some.injEq, decide_eq_true_iff]

theorem Scanned.parsed {desc : ProtobufCMessageDescriptor} (hd : desc.WellFormed) {rs : List Record} {st : Scan}
    (h : Scanned desc rs st) :
    Parsed desc (arraySizes (fieldCount desc.fields rs) 0 desc.init) st.nUnknown rs ⟨desc.init, []⟩ := by
  refine ⟨fun i field hi => ?_, ?_⟩
  · obtain ⟨member, hinit, hmember⟩ := Pointwise.exists_get hd.init hi
    refine ⟨member, hinit, ?_⟩
    cases member with
    | single has v => exact hmember.1
    | «repeated» n array =>
      obtain ⟨hlabel, rfl, rfl⟩ := hmember
      have hsize : (arraySizes (fieldCount desc.fields rs) 0 desc.init)[i]? = _ := getElem?_arraySizes hinit
      rw [Nat.zero_add] at hsize
      exact ⟨hlabel, rfl, _, hsize, Nat.le_of_eq (Nat.zero_add _)⟩
  · rw [h.nUnknown]
    exact Nat.le_of_eq (Nat.zero_add _)

theorem decode_succ (D : Descriptors) (fuel descriptor : Nat) (bs : List UInt8) : decode D (fuel + 1) descriptor bs =
    (parse bs).bind fun rs => if rs.length ≤ maxMembers ∧ HasRequired (D descriptor).fields rs then
      (rs.foldlM (applyRecord D (decode D fuel) (D descriptor).fields) ⟨(D descriptor).init, []⟩).map fun st =>
        .mk descriptor st.members st.unknownFields else none := by
  rw [decode]
  cases parse bs with
  | none => rfl
  | some rs =>
    simp only [Option.bind_eq_bind, Option.bind_some]
    split_ifs with h
    · cases rs.foldlM (applyRecord D (decode D fuel) (D descriptor).fields) ⟨(D descriptor).init, []⟩ <;> rfl
    · rfl

/-- Unpacking does not fault, and what it gives is what decoding gives. -/
theorem messageUnpack_eq {D : Descriptors} (hD : ∀ descriptor, (D descriptor).WellFormed) {fuel : Nat}
    (descriptor : Nat) {bs : List UInt8} (rest : List UInt8) (hfuel : bs.length < fuel) (hshort : bs.length < 2 ^ 32) :
    messageUnpack D fuel descriptor bs.length (bs ++ rest) = Outcome.total (decode D fuel descriptor bs) := by
  induction fuel generalizing descriptor bs rest with
  | zero => cases hfuel
  | succ fuel ih =>
    have hd := hD descriptor
    rw [messageUnpack, decode_succ]
    rcases scanLoop_eq hd (Scanned.initial hd bs.length (bs ++ rest)) rfl rfl (Nat.le_refl _) hshort (Nat.zero_le _) with
      ⟨hnone, hscan⟩ | ⟨rs, hparse, ⟨hroom, hcountable⟩, st, hscan, hscanned⟩
    · rw [hscan, Outcome.bind_fail]
      cases hparse : parse bs with
      | none => rfl
      | some rs =>
        rw [Option.bind_some]
        split_ifs with hall
        · cases hfold : rs.foldlM (applyRecord D (decode D fuel) (D descriptor).fields) ⟨(D descriptor).init, []⟩ with
          | none => rfl
          | some st => exact absurd ⟨hall.1, foldlM_countable hd.shaped hfold⟩ (hnone rs hparse)
        · rfl
    · rw [List.nil_append] at hroom hscanned
      have hread : ∀ r ∈ rs, Readable r := fun r hr =>
        ⟨(parse_readable hparse r hr).2, Nat.lt_trans (parse_body_lt hparse r hr) hshort⟩
      have hcount : ∀ i, fieldCount (D descriptor).fields rs i < 2 ^ 32 := fun i =>
        Nat.lt_of_le_of_lt (Nat.le_trans (fieldCount_le hread i) (parse_bodies hparse)) hshort
      rw [hscan, hparse, Outcome.bind_ok, Option.bind_some, hscanned.members]
      have hlen : 0 + (D descriptor).fields.length ≤ st.bitmap.length := by
        rw [Nat.zero_add]
        exact hscanned.bitmapLength
      rcases allocFields_eq hcount hd.init hlen with
        ⟨hset, halloc⟩ | ⟨hnot, halloc⟩
      · rw [hscanned.bitsSet] at hset
        rw [halloc, Outcome.bind_ok, if_pos ⟨hroom, hset⟩]
        have hmembers : parseMembers D (messageUnpack D fuel) (D descriptor) _ st.nUnknown st.slabs.members _ =
            Outcome.total (rs.foldlM (applyRecord D (decode D fuel) (D descriptor).fields) _) :=
          parseMembers_eq hscanned.scans (hscanned.parsed hd) fun r hr => ⟨hread r hr, hcountable r hr, fun hw descriptor' rest' => ?_⟩
        · dsimp only
          rw [hmembers]
          cases rs.foldlM (applyRecord D (decode D fuel) (D descriptor).fields) ⟨(D descriptor).init, []⟩ <;> rfl
        · have hbody := parse_body_lt hparse r hr
          have hdelimited := (hread r hr).shape.2.2.2 hw
          exact ih descriptor' rest' (by omega) (by omega)
      · rw [hscanned.bitsSet] at hnot
        rw [halloc, if_neg fun h => hnot h.2]
        rfl

/-- Unpacking reads no byte behind the message and writes none outside what it has
allocated, whatever the bytes are, and gives what decoding them in one pass gives. -/
theorem messageUnpack_refines {D : Descriptors} (hD : ∀ descriptor, (D descriptor).WellFormed) {fuel : Nat}
    (descriptor : Nat) {bs : List UInt8} (rest : List UInt8) (hfuel : bs.length < fuel) (hshort : bs.length < 2 ^ 32) :
    messageUnpack D fuel descriptor bs.length (bs ++ rest) ≠ .fault ∧
      messageUnpack D fuel descriptor bs.length (bs ++ rest) = messageUnpack D fuel descriptor bs.length bs ∧
      ∀ msg, messageUnpack D fuel descriptor bs.length (bs ++ rest) = .ok msg ↔ decode D fuel descriptor bs = some msg := by
  have halone := messageUnpack_eq hD descriptor [] hfuel hshort
  rw [List.append_nil] at halone
  rw [messageUnpack_eq hD descriptor rest hfuel hshort, halone]
  refine ⟨?_, rfl, fun msg => ?_⟩
  · cases decode D fuel descriptor bs <;> exact fun h => by cases h
  · cases decode D fuel descriptor bs with
    | none => exact ⟨fun h => (by cases h), fun h => (by cases h)⟩
    | some msg' => exact ⟨fun h => congrArg some (Outcome.ok.inj h), fun h => congrArg Outcome.ok (Option.some.inj h)⟩

/-- A number that does not end, in front of bytes that would end it. -/
theorem messageUnpack_refines_example : messageUnpack exampleDescriptors 9 0 3 [8, 255, 255, 1] ≠ .fault ∧
    messageUnpack exampleDescriptors 9 0 3 [8, 255, 255, 1] = messageUnpack exampleDescriptors 9 0 3 [8, 255, 255] ∧
      ∀ msg, messageUnpack exampleDescriptors 9 0 3 [8, 255, 255, 1] = .ok msg ↔
        decode exampleDescriptors 9 0 [8, 255, 255] = some msg :=
  @messageUnpack_refines _ exampleDescriptors_wellFormed 9 0 [8, 255, 255] [1] (by decide) (by decide)

end KSock.Protobuf
