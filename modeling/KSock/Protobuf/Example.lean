import KSock.Protobuf.Lookup
/-!
# `example.proto`

The descriptors of the three messages of the examples, and a message of each.
-/

namespace KSock.Protobuf

/-- `something_with_uints__descriptor` is at 0, `something_more__descriptor` at 1
and `even_more__descriptor` at 2. -/
def somethingWithUintsDescriptor : ProtobufCMessageDescriptor where
  fields := [⟨1, .optional, .uint32, true, 0, false⟩, ⟨2, .optional, .uint32, true, 0, false⟩,
    ⟨3, .optional, .uint32, true, 0, false⟩]
  nFieldRanges := 1
  fieldRanges := [⟨1, 0⟩, ⟨0, 3⟩]
  init := [.single false (.word32 0), .single false (.word32 0), .single false (.word32 0)]

def somethingMoreDescriptor : ProtobufCMessageDescriptor where
  fields := [⟨1, .optional, .enum, true, 0, false⟩, ⟨2, .optional, .message, false, 0, false⟩]
  nFieldRanges := 1
  fieldRanges := [⟨1, 0⟩, ⟨0, 2⟩]
  init := [.single false (.word32 200), .single false (.message none)]

def evenMoreDescriptor : ProtobufCMessageDescriptor where
  fields := [⟨1, .required, .enum, false, 0, false⟩, ⟨2, .repeated, .message, true, 0, false⟩,
    ⟨3, .required, .bytes, false, 0, false⟩, ⟨4, .required, .bytes, false, 0, false⟩,
    ⟨5, .optional, .string, false, 0, false⟩]
  nFieldRanges := 1
  fieldRanges := [⟨1, 0⟩, ⟨0, 5⟩]
  init := [.single false (.word32 254), .repeated 0 [], .single false (.binary 0 []), .single false (.binary 0 []),
    .single false (.string none)]

def exampleDescriptors : Descriptors
  | 0 => somethingWithUintsDescriptor
  | 1 => somethingMoreDescriptor
  | _ => evenMoreDescriptor

theorem initMember_single {field : ProtobufCFieldDescriptor} {v : Value} (hlabel : field.label ≠ .repeated)
    (htype : v.ctype = field.type.ctype) (hmessage : ∀ msg, v ≠ .message (some msg))
    (hblock : ∀ len data, v = .binary len data → len = data.length) : InitMember field (.single false v) :=
  And.intro hlabel (And.intro htype (And.intro hmessage hblock))

theorem exampleDescriptors_wellFormed (descriptor : Nat) : (exampleDescriptors descriptor).WellFormed := by
  have hword : ∀ {field v}, field.label ≠ .repeated → .word32 = field.type.ctype →
      InitMember field (.single false (.word32 v)) := fun hlabel htype =>
    initMember_single hlabel htype (fun _ h => by cases h) (fun _ _ h => by cases h)
  have hbytes : ∀ {field}, field.label ≠ .repeated → .binary = field.type.ctype →
      InitMember field (.single false (.binary 0 [])) := fun hlabel htype =>
    initMember_single hlabel htype (fun _ h => by cases h) (fun _ _ h => by cases h; rfl)
  have huints : somethingWithUintsDescriptor.WellFormed := by
    refine ⟨rangesOf_consecutive rfl (by decide), ?_, by decide, by decide⟩
    exact .cons (hword (by decide) rfl) (.cons (hword (by decide) rfl) (.cons (hword (by decide) rfl) .nil))
  have hmore : somethingMoreDescriptor.WellFormed := by
    refine ⟨rangesOf_consecutive rfl (by decide), ?_, by decide, by decide⟩
    refine .cons (hword (by decide) rfl) (.cons ?_ .nil)
    exact initMember_single (by decide) rfl (fun _ h => by cases h) (fun _ _ h => by cases h)
  have hevenMore : evenMoreDescriptor.WellFormed := by
    refine ⟨rangesOf_consecutive rfl (by decide), ?_, by decide, by decide⟩
    refine .cons (hword (by decide) rfl) (.cons ⟨rfl, rfl, rfl⟩ (.cons (hbytes (by decide) rfl)
      (.cons (hbytes (by decide) rfl) (.cons ?_ .nil))))
    exact initMember_single (by decide) rfl (fun _ h => by cases h) (fun _ _ h => by cases h)
  match descriptor with
  | 0 => exact huints
  | 1 => exact hmore
  | _ + 2 => exact hevenMore

/-- An address and a port. -/
def uintsExample : ProtobufCMessage :=
  .mk 0 [.single false (.word32 0), .single true (.word32 0x7f000001), .single true (.word32 31337)] []

/-- Two sub-messages, a string with a NUL in it, and a field that is not known. -/
def evenMoreExample : ProtobufCMessage :=
  .mk 2 [.single false (.word32 255), .repeated 2 [.message (some uintsExample), .message (some uintsExample)],
    .single false (.binary 2 [0x61, 0x62]), .single false (.binary 0 []),
    .single false (.string (some [0x78, 0, 0x79]))] [⟨6, 0, [5]⟩]

/-- The same, but for what is behind the NUL. -/
def evenMoreRead : ProtobufCMessage :=
  .mk 2 [.single false (.word32 255), .repeated 2 [.message (some uintsExample), .message (some uintsExample)],
    .single false (.binary 2 [0x61, 0x62]), .single false (.binary 0 []), .single false (.string (some [0x78]))]
    [⟨6, 0, [5]⟩]

end KSock.Protobuf
