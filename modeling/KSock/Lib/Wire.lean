import KSock.Lib.Varint
/-!
# The protobuf wire format

A message on the wire is a sequence of records. A record starts with its tag and
its wire type in one number in base 128, and the wire type says where the body
ends: a number in base 128, eight bytes, four bytes, or a length in base 128 and
that many bytes. There is nothing between records and nothing at the end, and
what was written is read back (`parse_stream`).

A tag takes at most 5 bytes and is below `2 ^ 32`, a number takes at most 10, and
a length at most 5 and is below `2 ^ 31`. A first byte below 8 would be tag 0.
-/

namespace KSockLib.Wire

open Varint

structure Record where
  tag : Nat
  wireType : Nat
  body : List UInt8
  deriving DecidableEq, Repr

def Record.bytes (r : Record) : List UInt8 := encode (8 * r.tag + r.wireType) ++ r.body

/-- The records, one after another. -/
def stream (rs : List Record) : List UInt8 := rs.flatMap Record.bytes

@[simp] theorem stream_nil : stream [] = [] := rfl

@[simp] theorem stream_cons (r : Record) (rs : List Record) : stream (r :: rs) = r.bytes ++ stream rs := rfl

@[simp] theorem stream_append (rs rs' : List Record) : stream (rs ++ rs') = stream rs ++ stream rs' := by
  simp [stream]

theorem length_body_lt {r : Record} {rs : List Record} (hr : r ∈ rs) : r.body.length < (stream rs).length := by
  induction rs with
  | nil => exact absurd hr List.not_mem_nil
  | cons r' rs ih =>
    have hkey := length_encode_pos (8 * r'.tag + r'.wireType)
    rw [stream_cons, List.length_append, Record.bytes, List.length_append]
    rcases List.mem_cons.1 hr with rfl | hr
    · omega
    · have := ih hr
      omega

/-! ## Reading -/

/-- A length, and that many bytes. -/
def delimited (bs : List UInt8) : Option (List UInt8) := do
  let len ← front 5 bs
  if value len < 2 ^ 31 ∧ len.length + value len ≤ bs.length then return bs.take (len.length + value len) else none

/-- The body at the front of the bytes. -/
def bodyOf (wireType : Nat) (bs : List UInt8) : Option (List UInt8) :=
  match wireType with
  | 0 => front 10 bs
  | 1 => if 8 ≤ bs.length then some (bs.take 8) else none
  | 2 => delimited bs
  | 5 => if 4 ≤ bs.length then some (bs.take 4) else none
  | _ => none

def prefixLength (bs : List UInt8) : Nat := ((front 5 bs).getD []).length

/-- What a length is the length of. -/
def payload (bs : List UInt8) : List UInt8 := bs.drop (prefixLength bs)

/-- The record at the front of the bytes, and what follows it. -/
def split (bs : List UInt8) : Option (Record × List UInt8) := do
  let key ← front 5 bs
  if (key.headD 0).toNat < 8 then none
  let rest := bs.drop key.length
  let bytes ← bodyOf (value key % 8) rest
  return (⟨value key / 8, value key % 8, bytes⟩, rest.drop bytes.length)

/-- A record that can be told from what follows it. -/
structure Record.Valid (r : Record) : Prop where
  tag_pos : 0 < r.tag
  tag_lt : r.tag < 2 ^ 32
  body_eq : bodyOf r.wireType r.body = some r.body

theorem ends_ne_nil {bs : List UInt8} (h : Ends bs) : 0 < bs.length := by
  cases bs with
  | nil => exact absurd h id
  | cons b bs => exact Nat.succ_pos _

theorem delimited_append {bs ds : List UInt8} (h : delimited bs = some ds) (rest : List UInt8) :
    delimited (bs ++ rest) = some ds := by
  obtain ⟨len, hlen, h⟩ := Option.bind_eq_some_iff.1 h
  obtain ⟨hends, hmax, bs', rfl⟩ := front_eq_some hlen
  split at h
  case isTrue hle =>
    cases h
    have hle' : value len < 2 ^ 31 ∧ len.length + value len ≤ (len ++ bs' ++ rest).length := by
      rw [List.length_append]
      omega
    rw [delimited, List.append_assoc, front_append hends hmax, ← List.append_assoc, Option.bind_eq_bind,
      Option.bind_some, if_pos hle', List.take_append_of_le_length hle.2]
    rfl
  case isFalse => cases h

theorem bodyOf_append {wireType : Nat} {bs ds : List UInt8} (h : bodyOf wireType bs = some ds) (rest : List UInt8) :
    bodyOf wireType (bs ++ rest) = some ds := by
  have htake : ∀ n, (if n ≤ bs.length then some (bs.take n) else none) = some ds →
      (if n ≤ (bs ++ rest).length then some ((bs ++ rest).take n) else none) = some ds := by
    intro n hn
    split at hn
    case isTrue hle =>
      rw [if_pos (by rw [List.length_append]; omega), List.take_append_of_le_length hle, hn]
    case isFalse => cases hn
  unfold bodyOf at h ⊢
  split at h
  · obtain ⟨hends, hmax, bs', rfl⟩ := front_eq_some h
    rw [List.append_assoc]
    exact front_append hends hmax _
  · exact htake 8 h
  · exact delimited_append h rest
  · exact htake 4 h
  · cases h

theorem delimited_eq_some {bs ds : List UInt8} (h : delimited bs = some ds) :
    ∃ len rest, front 5 bs = some len ∧ bs = ds ++ rest ∧ ds = len ++ payload ds ∧ prefixLength ds = len.length ∧
      value len = (payload ds).length ∧ value len < 2 ^ 31 := by
  obtain ⟨len, hlen, h⟩ := Option.bind_eq_some_iff.1 h
  obtain ⟨hends, hmax, bs', rfl⟩ := front_eq_some hlen
  split at h
  case isTrue hle =>
    cases h
    have htaken : (len ++ bs').take (len.length + value len) = len ++ bs'.take (value len) := by
      rw [List.take_append, Nat.add_sub_cancel_left, List.take_of_length_le (Nat.le_add_right _ _)]
    have hkeyLength : prefixLength (len ++ bs'.take (value len)) = len.length := by
      rw [prefixLength, front_append hends hmax, Option.getD_some]
    rw [List.length_append] at hle
    refine ⟨len, (len ++ bs').drop (len.length + value len), hlen, (List.take_append_drop _ _).symm, ?_⟩
    rw [htaken, payload, hkeyLength, List.drop_left, List.length_take]
    exact ⟨rfl, rfl, by omega, hle.1⟩
  case isFalse => cases h

/-- A body is at the front of the bytes, and has a byte. -/
theorem bodyOf_eq_some {wireType : Nat} {bs ds : List UInt8} (h : bodyOf wireType bs = some ds) :
    wireType < 8 ∧ 0 < ds.length ∧ ∃ rest, bs = ds ++ rest := by
  have htake : ∀ n, 0 < n → (if n ≤ bs.length then some (bs.take n) else none) = some ds →
      0 < ds.length ∧ ∃ rest, bs = ds ++ rest := by
    intro n hpos hn
    split at hn
    case isTrue hle =>
      cases hn
      exact ⟨by rw [List.length_take]; omega, bs.drop n, (List.take_append_drop n bs).symm⟩
    case isFalse => cases hn
  unfold bodyOf at h
  split at h
  · obtain ⟨hends, -, hrest⟩ := front_eq_some h
    exact ⟨by decide, ends_ne_nil hends, hrest⟩
  · exact ⟨by decide, htake 8 (by decide) h⟩
  · obtain ⟨len, hlen, h⟩ := Option.bind_eq_some_iff.1 h
    have hpos := ends_ne_nil (front_eq_some hlen).1
    refine ⟨by decide, htake (len.length + value len) (by omega) ?_⟩
    split at h
    case isTrue hle => rwa [if_pos hle.2]
    case isFalse => cases h
  · exact ⟨by decide, htake 4 (by decide) h⟩
  · cases h

/-- A body that was found is one by itself. -/
theorem bodyOf_self {wireType : Nat} {bs ds : List UInt8} (h : bodyOf wireType bs = some ds) :
    bodyOf wireType ds = some ds := by
  have htake : ∀ n, (if n ≤ bs.length then some (bs.take n) else none) = some ds →
      (if n ≤ ds.length then some (ds.take n) else none) = some ds := by
    intro n hn
    split at hn
    case isTrue hle =>
      cases hn
      rw [if_pos (by rw [List.length_take]; omega), List.take_take, Nat.min_self]
    case isFalse => cases hn
  unfold bodyOf at h ⊢
  split at h
  · obtain ⟨hends, hmax, -⟩ := front_eq_some h
    have hself := front_append hends hmax []
    rwa [List.append_nil] at hself
  · exact htake 8 h
  · obtain ⟨len, hlen, h⟩ := Option.bind_eq_some_iff.1 h
    obtain ⟨hends, hmax, bs', rfl⟩ := front_eq_some hlen
    split at h
    case isTrue hle =>
      cases h
      have htaken : (len ++ bs').take (len.length + value len) = len ++ bs'.take (value len) := by
        rw [List.take_append, Nat.add_sub_cancel_left, List.take_of_length_le (Nat.le_add_right _ _)]
      rw [List.length_append] at hle
      change delimited _ = _
      rw [htaken, delimited, front_append hends hmax, Option.bind_eq_bind, Option.bind_some, if_pos, Option.pure_def,
        List.take_of_length_le]
      all_goals rw [List.length_append, List.length_take]; omega
    case isFalse => cases h
  · exact htake 4 h
  · cases h

/-- Fixed bodies have their widths. -/
theorem length_of_bodyOf {ds : List UInt8} : (bodyOf 1 ds = some ds → ds.length = 8) ∧
    (bodyOf 5 ds = some ds → ds.length = 4) := by
  have htake : ∀ n, (if n ≤ ds.length then some (ds.take n) else none) = some ds → ds.length = n := by
    intro n hn
    split at hn
    case isTrue hle =>
      have := congrArg List.length (Option.some.inj hn)
      rw [List.length_take] at this
      omega
    case isFalse => cases hn
  exact ⟨htake 8, htake 4⟩

/-- The first digit of a number of at least 8 is at least 8. -/
theorem encode_head {n : Nat} (h : 8 ≤ n) : ¬((encode n).headD 0).toNat < 8 := by
  rcases Nat.lt_or_ge n 128 with hlt | hge
  · rw [encode_of_lt hlt, List.headD_cons, UInt8.toNat_ofNat']
    omega
  · rw [encode_of_ge hge, List.headD_cons, UInt8.toNat_ofNat']
    omega

theorem split_eq_some {bs rest : List UInt8} {r : Record} (h : split bs = some (r, rest)) :
    r.tag < 2 ^ 32 ∧ bodyOf r.wireType r.body = some r.body ∧ ∃ key, bs = key ++ (r.body ++ rest) ∧ 0 < key.length := by
  obtain ⟨key, hkey, h⟩ := Option.bind_eq_some_iff.1 h
  obtain ⟨hends, hmax, bs', rfl⟩ := front_eq_some hkey
  split_ifs at h with hzero
  · cases h
  obtain ⟨bytes, hbody, h⟩ := Option.bind_eq_some_iff.1 h
  cases h
  rw [List.drop_left] at hbody ⊢
  obtain ⟨-, -, rest, rfl⟩ := bodyOf_eq_some hbody
  refine ⟨?_, bodyOf_self hbody, key, by rw [List.drop_left], ends_ne_nil hends⟩
  have hlt : value key < 128 ^ 5 := Nat.lt_of_lt_of_le (value_lt key) (Nat.pow_le_pow_right (by decide) hmax)
  change value key / 8 < 2 ^ 32
  omega

theorem split_bytes {r : Record} (h : r.Valid) (rest : List UInt8) : split (r.bytes ++ rest) = some (r, rest) := by
  have hwire := (bodyOf_eq_some h.body_eq).1
  have hpos := h.tag_pos
  have hlt := h.tag_lt
  have hmax : (encode (8 * r.tag + r.wireType)).length ≤ 5 := length_encode_le (by omega)
  have hbody := bodyOf_append h.body_eq rest
  have htag : (8 * r.tag + r.wireType) / 8 = r.tag := by omega
  have htype : (8 * r.tag + r.wireType) % 8 = r.wireType := by omega
  rw [split, Record.bytes, List.append_assoc, front_append (ends_encode _) hmax, Option.bind_eq_bind, Option.bind_some,
    if_neg (encode_head (by omega))]
  simp only [List.drop_left, value_encode, htag, htype, hbody, Option.bind_some]
  rfl

/-! ## Arrays in a payload -/

/-- Numbers, one after another. -/
def numbers (max : Nat) (bs : List UInt8) : Option (List (List UInt8)) :=
  if bs = [] then some []
  else match _h : front max bs with
    | none => none
    | some ds => (numbers max (bs.drop ds.length)).map (ds :: ·)
termination_by bs.length
decreasing_by
  obtain ⟨hends, -, rest, rfl⟩ := front_eq_some _h
  have := ends_ne_nil hends
  rw [List.length_drop, List.length_append]
  omega

/-- `count` pieces of `size` bytes each. -/
def pieces (size : Nat) : Nat → List UInt8 → List (List UInt8)
  | 0, _ => []
  | count + 1, bs => bs.take size :: pieces size count (bs.drop size)

@[simp] theorem numbers_nil (max : Nat) : numbers max [] = some [] := by
  rw [numbers, if_pos rfl]

theorem numbers_of_front {max : Nat} {bs ds : List UInt8} (h : front max bs = some ds) :
    numbers max bs = (numbers max (bs.drop ds.length)).map (ds :: ·) := by
  have hne : bs ≠ [] := by
    rintro rfl
    cases max <;> cases h
  rw [numbers, if_neg hne]
  split
  case h_1 hnone => rw [h] at hnone; cases hnone
  case h_2 hsome => rw [h] at hsome; cases hsome; rfl

theorem numbers_of_not_front {max : Nat} {bs : List UInt8} (hne : bs ≠ []) (h : front max bs = none) :
    numbers max bs = none := by
  rw [numbers, if_neg hne]
  split
  case h_1 => rfl
  case h_2 hsome => rw [h] at hsome; cases hsome

theorem numbers_flatten {max : Nat} {ds : List (List UInt8)} (h : ∀ d ∈ ds, Ends d ∧ d.length ≤ max) :
    numbers max ds.flatten = some ds := by
  induction ds with
  | nil => exact numbers_nil max
  | cons d ds ih =>
    rw [List.forall_mem_cons] at h
    rw [List.flatten_cons, numbers_of_front (front_append h.1.1 h.1.2 _), List.drop_left, ih h.2, Option.map_some]

/-- Each number ends in a byte of its own. -/
theorem numbers_le {max : Nat} {bs : List UInt8} {ds : List (List UInt8)} (h : numbers max bs = some ds) :
    ds.length ≤ lastDigits bs := by
  induction ds generalizing bs with
  | nil => exact Nat.zero_le _
  | cons d ds ih =>
    have hne : bs ≠ [] := by
      rintro rfl
      rw [numbers_nil] at h
      cases h
    cases hfront : front max bs with
    | none => rw [numbers_of_not_front hne hfront] at h; cases h
    | some d' =>
      rw [numbers_of_front hfront] at h
      obtain ⟨ds', hrest, heq⟩ := Option.map_eq_some_iff.1 h
      cases heq
      obtain ⟨hends, -, rest, rfl⟩ := front_eq_some hfront
      rw [List.drop_left] at hrest
      rw [List.length_cons, lastDigits_append, lastDigits_of_ends hends, Nat.add_comm]
      exact Nat.add_le_add_left (ih hrest) 1

theorem length_pieces (size count : Nat) (bs : List UInt8) : (pieces size count bs).length = count := by
  induction count generalizing bs with
  | zero => rfl
  | succ count ih => rw [pieces, List.length_cons, ih]

theorem length_flatten_pieces {size : Nat} {ds : List (List UInt8)} (h : ∀ d ∈ ds, d.length = size) :
    ds.flatten.length = ds.length * size := by
  induction ds with
  | nil => exact (Nat.zero_mul size).symm
  | cons d ds ih =>
    rw [List.forall_mem_cons] at h
    rw [List.flatten_cons, List.length_append, h.1, ih h.2, List.length_cons, Nat.succ_mul, Nat.add_comm]

theorem pieces_flatten {size : Nat} {ds : List (List UInt8)} (h : ∀ d ∈ ds, d.length = size) :
    pieces size ds.length ds.flatten = ds := by
  induction ds with
  | nil => rfl
  | cons d ds ih =>
    rw [List.forall_mem_cons] at h
    rw [List.length_cons, pieces, List.flatten_cons, ← h.1, List.take_left, List.drop_left, h.1, ih h.2]

/-- The records of a stream. -/
def parse (bs : List UInt8) : Option (List Record) :=
  if bs = [] then some []
  else match _h : split bs with
    | none => none
    | some (r, rest) => (parse rest).map (r :: ·)
termination_by bs.length
decreasing_by
  obtain ⟨-, -, key, heq, hpos⟩ := split_eq_some _h
  rw [heq, List.length_append, List.length_append]
  omega

@[simp] theorem parse_nil : parse [] = some [] := by
  rw [parse, if_pos rfl]

theorem parse_of_split {bs rest : List UInt8} {r : Record} (h : split bs = some (r, rest)) :
    parse bs = (parse rest).map (r :: ·) := by
  have hne : bs ≠ [] := by
    rintro rfl
    cases h
  rw [parse, if_neg hne]
  split
  case h_1 hnone => rw [h] at hnone; cases hnone
  case h_2 hsome => rw [h] at hsome; cases hsome; rfl

theorem parse_of_not_split {bs : List UInt8} (hne : bs ≠ []) (h : split bs = none) : parse bs = none := by
  rw [parse, if_neg hne]
  split
  case h_1 => rfl
  case h_2 hsome => rw [h] at hsome; cases hsome

/-- Bytes that are read are a record and the bytes of the others. -/
theorem parse_cons {bs : List UInt8} {r : Record} {rs : List Record} (h : parse bs = some (r :: rs)) :
    ∃ rest, split bs = some (r, rest) ∧ parse rest = some rs := by
  have hne : bs ≠ [] := by
    rintro rfl
    rw [parse_nil] at h
    cases h
  cases hsplit : split bs with
  | none => rw [parse_of_not_split hne hsplit] at h; cases h
  | some next =>
    obtain ⟨r', rest⟩ := next
    rw [parse_of_split hsplit] at h
    obtain ⟨rs', hrest, heq⟩ := Option.map_eq_some_iff.1 h
    cases heq
    exact ⟨rest, rfl, hrest⟩

theorem parse_stream {rs : List Record} (h : ∀ r ∈ rs, r.Valid) : parse (stream rs) = some rs := by
  induction rs with
  | nil => exact parse_nil
  | cons r rs ih =>
    rw [List.forall_mem_cons] at h
    rw [stream_cons, parse_of_split (split_bytes h.1 _), ih h.2, Option.map_some]

theorem length_of_parse {bs : List UInt8} {rs : List Record} (h : parse bs = some rs) : 2 * rs.length ≤ bs.length := by
  induction rs generalizing bs with
  | nil => exact Nat.zero_le _
  | cons r rs ih =>
    obtain ⟨rest, hsplit, hrest⟩ := parse_cons h
    obtain ⟨-, hbody, key, rfl, hkey⟩ := split_eq_some hsplit
    have hpos := (bodyOf_eq_some hbody).2.1
    have hle := ih hrest
    rw [List.length_cons, List.length_append, List.length_append]
    omega

theorem parse_readable {bs : List UInt8} {rs : List Record} (h : parse bs = some rs) :
    ∀ r ∈ rs, r.tag < 2 ^ 32 ∧ bodyOf r.wireType r.body = some r.body := by
  induction rs generalizing bs with
  | nil => exact fun r hr => absurd hr List.not_mem_nil
  | cons r rs ih =>
    obtain ⟨rest, hsplit, hrest⟩ := parse_cons h
    obtain ⟨htag, hbody, -⟩ := split_eq_some hsplit
    exact List.forall_mem_cons.2 ⟨⟨htag, hbody⟩, ih hrest⟩

/-- The bodies are next to each other in the stream. -/
theorem parse_bodies {bs : List UInt8} {rs : List Record} (h : parse bs = some rs) :
    (rs.map fun r => r.body.length + 1).sum ≤ bs.length := by
  induction rs generalizing bs with
  | nil => exact Nat.zero_le _
  | cons r rs ih =>
    obtain ⟨rest, hsplit, hrest⟩ := parse_cons h
    obtain ⟨-, -, key, rfl, hkey⟩ := split_eq_some hsplit
    have hle := ih hrest
    rw [List.map_cons, List.sum_cons, List.length_append, List.length_append]
    omega

theorem parse_body_lt {bs : List UInt8} {rs : List Record} (h : parse bs = some rs) :
    ∀ r ∈ rs, r.body.length < bs.length := by
  induction rs generalizing bs with
  | nil => exact fun r hr => absurd hr List.not_mem_nil
  | cons r rs ih =>
    obtain ⟨rest, hsplit, hrest⟩ := parse_cons h
    obtain ⟨-, -, key, rfl, hkey⟩ := split_eq_some hsplit
    rw [List.length_append, List.length_append]
    exact List.forall_mem_cons.2 ⟨by omega, fun r' hr' => by have := ih hrest r' hr'; omega⟩

end KSockLib.Wire
