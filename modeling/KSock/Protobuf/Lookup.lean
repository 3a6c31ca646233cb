import KSock.Protobuf.Message
import Mathlib.Data.List.Nodup
/-!
# `int_range_lookup`

The field of a tag is found by binary search in a table of ranges. A range
starts at a field number and at a field index, and ends where the index of the
next begins, so the table has one entry more than it has ranges.
-/

namespace KSock.Protobuf

/-- The loop with what is behind it; `fuel` bounds its rounds. The reads of the
table have no result past its end. -/
def intRangeSearch (ranges : List ProtobufCIntRange) (value : Int) : Nat → Nat → Nat → Option Int
  | 0, _, _ => none
  | fuel + 1, start, n => do
    if n > 1 then
      let mid := start + n / 2
      let range ← ranges[mid]?
      if value < range.startValue then intRangeSearch ranges value fuel start (mid - start)
      else
        let next ← ranges[mid + 1]?
        if value ≥ range.startValue + (next.origIndex - range.origIndex : Int) then
          let newStart := mid + 1
          intRangeSearch ranges value fuel newStart (start + n - newStart)
        else return value - range.startValue + range.origIndex
    else if n > 0 then
      let range ← ranges[start]?
      let next ← ranges[start + 1]?
      let rangeSize : Int := next.origIndex - range.origIndex
      if range.startValue ≤ value ∧ value < range.startValue + rangeSize then
        return value - range.startValue + range.origIndex
      else return -1
    else return -1

def intRangeLookup (nRanges : Nat) (ranges : List ProtobufCIntRange) (value : Int) : Option Int :=
  if nRanges = 0 then some (-1) else intRangeSearch ranges value nRanges 0 nRanges

/-! ## Tables -/

/-- Range `i` and what is behind it. -/
def IsRange (ranges : List ProtobufCIntRange) (i : Nat) (range next : ProtobufCIntRange) : Prop :=
  ranges[i]? = some range ∧ ranges[i + 1]? = some next

/-- Range `i` holds the value. -/
def Holds (ranges : List ProtobufCIntRange) (value : Int) (i : Nat) : Prop :=
  ∃ range next, IsRange ranges i range next ∧ range.startValue ≤ value ∧
    value < range.startValue + (next.origIndex - range.origIndex : Int)

/-- What the table of a descriptor says of its fields: the ranges are one behind
the other, their numbers are the fields' and every field is in one. -/
structure RangesOf (fields : List ProtobufCFieldDescriptor) (nRanges : Nat) (ranges : List ProtobufCIntRange) :
    Prop where
  entries : ∀ i < nRanges, ∃ range next, IsRange ranges i range next
  sorted : ∀ i j range next range' next', i < j → j < nRanges → IsRange ranges i range next →
    IsRange ranges j range' next' → range.startValue + (next.origIndex - range.origIndex : Int) ≤ range'.startValue
  ids : ∀ i range next, i < nRanges → IsRange ranges i range next → range.origIndex ≤ next.origIndex ∧
    ∀ k < next.origIndex - range.origIndex, ∃ field, fields[range.origIndex + k]? = some field ∧
      (field.id.toNat : Int) = range.startValue + k
  covers : ∀ k < fields.length, ∃ i range next, i < nRanges ∧ IsRange ranges i range next ∧
    range.origIndex ≤ k ∧ k < next.origIndex
  nodup : (fields.map (·.id)).Nodup
  small : ∀ field ∈ fields, field.id.toNat < 2 ^ 29

/-- The field with a number. -/
def fieldIndex (fields : List ProtobufCFieldDescriptor) (tag : UInt32) : Option Nat := fields.findIdx? (·.id = tag)

section
variable {fields : List ProtobufCFieldDescriptor} {nRanges : Nat} {ranges : List ProtobufCIntRange} {value : Int}

theorem IsRange.unique {i : Nat} {range next range' next' : ProtobufCIntRange} (h : IsRange ranges i range next)
    (h' : IsRange ranges i range' next') : range = range' ∧ next = next' :=
  ⟨Option.some.inj (h.1.symm.trans h'.1), Option.some.inj (h.2.symm.trans h'.2)⟩

/-- The range that holds the value, if there is one, stays between `start` and `start + n`. -/
theorem intRangeSearch_eq (hr : RangesOf fields nRanges ranges) {fuel start n : Nat} (hn : n ≤ fuel) (hfuel : 0 < fuel)
    (hend : start + n ≤ nRanges) (hinv : ∀ i < nRanges, Holds ranges value i → start ≤ i ∧ i < start + n) :
    (∃ i range next, i < nRanges ∧ IsRange ranges i range next ∧ Holds ranges value i ∧
        intRangeSearch ranges value fuel start n = some (value - range.startValue + range.origIndex)) ∨
      ((∀ i < nRanges, ¬Holds ranges value i) ∧ intRangeSearch ranges value fuel start n = some (-1)) := by
  induction fuel generalizing start n with
  | zero => cases hfuel
  | succ fuel ih =>
    rw [intRangeSearch]
    by_cases hmany : n > 1
    · obtain ⟨range, next, hmid⟩ := hr.entries (start + n / 2) (by omega)
      rw [if_pos hmany]
      simp only [hmid.1, hmid.2, Option.bind_eq_bind, Option.bind_some]
      split_ifs with hless hmore
      · -- the ranges from the middle on start behind the value
        refine ih (by omega) (by omega) (by omega) fun i hi hholds => ⟨(hinv i hi hholds).1, ?_⟩
        by_contra hge
        obtain ⟨range', next', hrange', hlo, -⟩ := hholds
        rcases Nat.eq_or_lt_of_le (show start + n / 2 ≤ i by omega) with rfl | hlt
        · obtain ⟨rfl, -⟩ := hmid.unique hrange'
          omega
        · have hsorted := hr.sorted _ _ _ _ _ _ hlt hi hmid hrange'
          have hids := (hr.ids _ _ _ (Nat.lt_trans hlt hi) hmid).1
          omega
      · -- those up to the middle end before it
        refine ih (by omega) (by omega) (by omega) fun i hi hholds => ?_
        have hlast := (hinv i hi hholds).2
        refine ⟨?_, by omega⟩
        by_contra hge
        obtain ⟨range', next', hrange', -, hhi⟩ := hholds
        rcases Nat.eq_or_lt_of_le (show i ≤ start + n / 2 by omega) with rfl | hlt
        · obtain ⟨rfl, rfl⟩ := hmid.unique hrange'
          omega
        · have hsorted := hr.sorted _ _ _ _ _ _ hlt (by omega) hrange' hmid
          omega
      · exact .inl ⟨_, range, next, by omega, hmid, ⟨range, next, hmid, by omega, by omega⟩, rfl⟩
    · rw [if_neg hmany]
      by_cases hone : n > 0
      · obtain ⟨range, next, hstart⟩ := hr.entries start (by omega)
        rw [if_pos hone]
        simp only [hstart.1, hstart.2, Option.bind_eq_bind, Option.bind_some]
        split_ifs with hin
        · exact .inl ⟨start, range, next, by omega, hstart, ⟨range, next, hstart, hin⟩, rfl⟩
        · refine .inr ⟨fun i hi hholds => hin ?_, rfl⟩
          obtain rfl : i = start := by
            have := hinv i hi hholds
            omega
          obtain ⟨range', next', hrange', hvalue⟩ := hholds
          obtain ⟨rfl, rfl⟩ := hstart.unique hrange'
          exact hvalue
      · rw [if_neg hone]
        refine .inr ⟨fun i hi hholds => ?_, rfl⟩
        have := hinv i hi hholds
        omega

theorem toInt_toInt32 (v : UInt32) :
    v.toInt32.toInt = if v.toNat < 2 ^ 31 then (v.toNat : Int) else (v.toNat : Int) - 2 ^ 32 := by
  have htoInt : v.toInt32.toInt = v.toBitVec.toInt := rfl
  have htoNat : v.toBitVec.toNat = v.toNat := rfl
  rw [htoInt, BitVec.toInt_eq_toNat_cond, htoNat]
  split_ifs <;> omega

theorem fieldIndex_eq_some {tag : UInt32} {k : Nat} (h : fieldIndex fields tag = some k) :
    ∃ field, fields[k]? = some field ∧ field.id = tag := by
  obtain ⟨hk, hid, -⟩ := List.findIdx?_eq_some_iff_getElem.1 h
  exact ⟨fields[k], List.getElem?_eq_getElem hk, of_decide_eq_true hid⟩

theorem fieldIndex_of_id {k : Nat} {field : ProtobufCFieldDescriptor} (hnodup : (fields.map (·.id)).Nodup)
    (hk : fields[k]? = some field) : fieldIndex fields field.id = some k := by
  have hmem : ∃ j, fieldIndex fields field.id = some j := by
    rw [fieldIndex, ← Option.isSome_iff_exists, List.findIdx?_isSome, List.any_eq_true]
    exact ⟨field, List.mem_of_getElem? hk, decide_eq_true rfl⟩
  obtain ⟨j, hj⟩ := hmem
  obtain ⟨field', hj', hid⟩ := fieldIndex_eq_some hj
  have hlen : j < (fields.map (·.id)).length := by
    rw [List.length_map]
    exact (List.getElem?_eq_some_iff.1 hj').1
  have heq : j = k := (List.getElem?_inj hlen hnodup).1 (by
    rw [List.getElem?_map, List.getElem?_map, hj', hk, Option.map_some, Option.map_some, hid])
  rw [hj, heq]

/-- The search finds the field that has the number, and -1 if there is none. -/
theorem intRangeLookup_eq (hr : RangesOf fields nRanges ranges) (tag : UInt32) :
    intRangeLookup nRanges ranges tag.toInt32.toInt =
      some (match fieldIndex fields tag with | some k => (k : Int) | none => -1) := by
  have hnot : (∀ i < nRanges, ¬Holds ranges tag.toInt32.toInt i) → fieldIndex fields tag = none := by
    intro hnone
    cases hfield : fieldIndex fields tag with
    | none => rfl
    | some k =>
      obtain ⟨field, hk, rfl⟩ := fieldIndex_eq_some hfield
      have hlt := hr.small field (List.mem_of_getElem? hk)
      obtain ⟨i, range, next, hi, hrange, hlo, hhi⟩ := hr.covers k (List.getElem?_eq_some_iff.1 hk).1
      obtain ⟨-, hids⟩ := hr.ids i range next hi hrange
      obtain ⟨field', hk', hid⟩ := hids (k - range.origIndex) (by omega)
      rw [Nat.add_sub_cancel' hlo, hk] at hk'
      cases hk'
      have hvalue := toInt_toInt32 field.id
      rw [if_pos (by omega)] at hvalue
      exact absurd ⟨range, next, hrange, by omega, by omega⟩ (hnone i hi)
  rw [intRangeLookup]
  split_ifs with hzero
  · rw [hnot fun i hi => by omega]
  rcases intRangeSearch_eq hr (Nat.le_refl nRanges) (Nat.pos_of_ne_zero hzero) (by omega)
    (fun i hi (_ : Holds ranges tag.toInt32.toInt i) => ⟨Nat.zero_le i, by omega⟩) with
    ⟨i, range, next, hi, hrange, ⟨range', next', hrange', hlo, hhi⟩, hsearch⟩ | ⟨hnone, hsearch⟩
  · obtain ⟨rfl, rfl⟩ := hrange.unique hrange'
    obtain ⟨-, hids⟩ := hr.ids i range next hi hrange
    obtain ⟨field, hk, hid⟩ := hids (tag.toInt32.toInt - range.startValue).toNat (by omega)
    have hvalue := toInt_toInt32 tag
    have htag := tag.toNat_lt
    have heq : field.id = tag := by
      rw [← UInt32.toNat_inj]
      split_ifs at hvalue <;> omega
    subst heq
    rw [hsearch, fieldIndex_of_id hr.nodup hk]
    simp only [Option.some.injEq, Nat.cast_add]
    omega
  · rw [hsearch, hnot hnone]

end

/-! ## Descriptors -/

/-- What `message_init` makes of a member. -/
def InitMember (field : ProtobufCFieldDescriptor) : Member → Prop
  | .single _ v => field.label ≠ .repeated ∧ v.ctype = field.type.ctype ∧ (∀ msg, v ≠ .message (some msg)) ∧
      ∀ len data, v = .binary len data → len = data.length
  | .repeated n array => field.label = .repeated ∧ n = 0 ∧ array = []

/-- A descriptor as it is generated. -/
structure ProtobufCMessageDescriptor.WellFormed (desc : ProtobufCMessageDescriptor) : Prop where
  ranges : RangesOf desc.fields desc.nFieldRanges desc.fieldRanges
  init : List.Forall₂ InitMember desc.fields desc.init
  packable : ∀ field ∈ desc.fields, field.packed = true → isPackableType field.type = true
  positive : ∀ field ∈ desc.fields, 0 < field.id.toNat

/-- Numbers that follow one another are one range. -/
theorem rangesOf_consecutive {fields : List ProtobufCFieldDescriptor} {start : Nat}
    (hids : fields.map (·.id.toNat) = List.range' start fields.length) (hsmall : start + fields.length ≤ 2 ^ 29) :
    RangesOf fields 1 [⟨start, 0⟩, ⟨0, fields.length⟩] := by
  have hid : ∀ k field, fields[k]? = some field → field.id.toNat = start + k := by
    intro k field hk
    have hmap : (fields.map (·.id.toNat))[k]? = some field.id.toNat := by rw [List.getElem?_map, hk, Option.map_some]
    have hlt := (List.getElem?_eq_some_iff.1 hk).1
    rw [hids, List.getElem?_range' hlt, Nat.one_mul] at hmap
    exact (Option.some.inj hmap).symm
  have hrange : ∀ {i range next}, i < 1 → IsRange [⟨start, 0⟩, ⟨0, fields.length⟩] i range next →
      range = ⟨start, 0⟩ ∧ next = ⟨0, fields.length⟩ := by
    intro i range next hi h
    obtain rfl := Nat.lt_one_iff.1 hi
    exact ⟨(Option.some.inj h.1).symm, (Option.some.inj h.2).symm⟩
  refine ⟨fun i hi => ?_, fun i j _ _ _ _ hij hj => by omega, fun i range next hi h => ?_, fun k hk => ?_, ?_, ?_⟩
  · obtain rfl := Nat.lt_one_iff.1 hi
    exact ⟨_, _, rfl, rfl⟩
  · obtain ⟨rfl, rfl⟩ := hrange hi h
    refine ⟨Nat.zero_le _, fun k hk => ?_⟩
    rw [Nat.zero_add, List.getElem?_eq_getElem hk]
    exact ⟨_, rfl, by rw [hid k _ (List.getElem?_eq_getElem hk), Nat.cast_add]⟩
  · exact ⟨0, _, _, Nat.one_pos, ⟨rfl, rfl⟩, Nat.zero_le _, hk⟩
  · refine List.Nodup.of_map UInt32.toNat ?_
    rw [List.map_map]
    exact hids ▸ List.nodup_range'
  · intro field hfield
    obtain ⟨k, hk, rfl⟩ := List.getElem_of_mem hfield
    rw [hid k _ (List.getElem?_eq_getElem hk)]
    omega

/-- The binary search finds the field with the number, or that there is none, and
reads no entry that the table does not have. -/
theorem intRangeLookup_finds {fields : List ProtobufCFieldDescriptor} {nRanges : Nat}
    {ranges : List ProtobufCIntRange} (hr : RangesOf fields nRanges ranges) (tag : UInt32) (index : Int) :
    intRangeLookup nRanges ranges tag.toInt32.toInt = some index ↔
      (index = -1 ∧ ∀ field ∈ fields, field.id ≠ tag) ∨
        ∃ k : Nat, index = k ∧ ∃ field, fields[k]? = some field ∧ field.id = tag := by
  rw [intRangeLookup_eq hr]
  cases hindex : fieldIndex fields tag with
  | none =>
    have hnone : ∀ field ∈ fields, field.id ≠ tag := fun field hfield => by
      simpa using List.findIdx?_eq_none_iff.1 hindex field hfield
    simp only [Option.some.injEq]
    constructor
    · rintro rfl
      exact .inl ⟨rfl, hnone⟩
    · rintro (⟨rfl, -⟩ | ⟨k, rfl, field, hk, hid⟩)
      · rfl
      · exact absurd hid (hnone field (List.mem_of_getElem? hk))
  | some k =>
    obtain ⟨field, hk, hid⟩ := fieldIndex_eq_some hindex
    simp only [Option.some.injEq]
    constructor
    · rintro rfl
      exact .inr ⟨k, rfl, field, hk, hid⟩
    · rintro (⟨rfl, hnone⟩ | ⟨j, rfl, field', hj, hid'⟩)
      · exact absurd hid (hnone field (List.mem_of_getElem? hk))
      · subst hid'
        cases (fieldIndex_of_id hr.nodup hj).symm.trans hindex
        rfl

/-- Fields 1, 2 and 5 are in two ranges. -/
theorem intRangeLookup_finds_fifth :
    let fields : List ProtobufCFieldDescriptor := [⟨1, .required, .enum, false, 0, false⟩,
      ⟨2, .required, .bytes, false, 0, false⟩, ⟨5, .optional, .string, false, 0, false⟩]
    intRangeLookup 2 [⟨1, 0⟩, ⟨5, 2⟩, ⟨0, 3⟩] (5 : UInt32).toInt32.toInt = some 2 ↔
      ((2 : Int) = -1 ∧ ∀ field ∈ fields, field.id ≠ 5) ∨
        ∃ k : Nat, (2 : Int) = k ∧ ∃ field, fields[k]? = some field ∧ field.id = 5 := by
  intro fields
  have hranges : RangesOf fields 2 [⟨1, 0⟩, ⟨5, 2⟩, ⟨0, 3⟩] := by
    have htwo : ∀ i < 2, i = 0 ∨ i = 1 := by decide
    refine ⟨fun i hi => ?_, fun i j _ _ _ _ hij hj h h' => ?_, fun i range next hi h => ?_, fun k hk => ?_, by decide,
      by decide⟩
    · rcases htwo i hi with rfl | rfl <;> exact ⟨_, _, rfl, rfl⟩
    · obtain ⟨rfl, rfl⟩ : i = 0 ∧ j = 1 := by omega
      cases h.1
      cases h.2
      cases h'.1
      decide
    · rcases htwo i hi with rfl | rfl <;> cases h.1 <;> cases h.2 <;> refine ⟨by decide, fun k hk => ?_⟩
      · rcases htwo k hk with rfl | rfl <;> exact ⟨_, rfl, rfl⟩
      · obtain rfl := Nat.lt_one_iff.1 hk
        exact ⟨_, rfl, rfl⟩
    · have hthree : ∀ k < 3, k = 0 ∨ k = 1 ∨ k = 2 := by decide
      rcases hthree k hk with rfl | rfl | rfl
      · exact ⟨0, _, _, by decide, ⟨rfl, rfl⟩, by decide, by decide⟩
      · exact ⟨0, _, _, by decide, ⟨rfl, rfl⟩, by decide, by decide⟩
      · exact ⟨1, _, _, by decide, ⟨rfl, rfl⟩, by decide, by decide⟩
  exact intRangeLookup_finds hranges 5 2

end KSock.Protobuf
