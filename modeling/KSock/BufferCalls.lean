import KSock.Lib.Run
import KSock.SocketBuffer
/-!
# Calls on a `SocketBuffer` in any order

Every public operation as an event, and runs of them from a fresh buffer. A
call is `Sound` if it stays inside the array, leaves `consumed <= used <= SIZE`
and, when it returns true, has read nothing outside the pending bytes.

`GetPrimitve` and `GetPdu` test against `used` but read from `GetStart`, so
after a `Consume` without a `Sweep` they accept ranges that end past `used`.
`Covered` is exactly when that does not happen, and `sound_iff_covered` carries
it to whole runs.
-/
open KSockLib KSockLib.Memory KSockLib.Word

namespace KSock.BufferCalls

variable {SIZE : ObjectSize}

/-- A serializer that writes as many bytes as it announces. -/
def WritesItsSize (bs : BaseSerializer) : Prop := bs.serialized.length = bs.getSerializedSize.toNat

/-- The public operations. `T` has `sizeofT` bytes. -/
inductive Call where
  | addPrimitve (value : List UInt8) (object : value.length < 2 ^ 63)
  | addPdu (bs : BaseSerializer) (exact : WritesItsSize bs)
  | getPrimitve (sizeofT : ObjectSize) (offset : UInt64)
  | getPdu (receivedSize : UInt64) (out : PduHeader)
  | consume (consumingSize : UInt64)
  | sweep

def step (sb : SocketBuffer SIZE) : Call → Option (SocketBuffer SIZE)
  | .addPrimitve value _ => (sb.addPrimitve value).map (·.2)
  | .addPdu bs _ => (sb.addPdu bs).map (·.2)
  | .getPrimitve _ _ => some sb
  | .getPdu n out => some (sb.getPdu n.toNat out).2.1
  | .consume n => some (sb.consume n.toNat).2
  | .sweep => sb.sweep

/-- The ranges of the array, as start and length, that a call vouches for by
returning true: what it decoded and, for `GetPdu`, the payload. -/
def reads (sb : SocketBuffer SIZE) : Call → List (Nat × Nat)
  | .getPrimitve T offset =>
    if (sb.getPrimitve T.bytes offset.toNat).isSome then [(addW 64 sb.getStart offset.toNat, T.bytes)] else []
  | .getPdu n out =>
    match sb.getPdu n.toNat out with
    | (true, _, hdr) => [(sb.getStart, 4), (sb.getStart + 4, 2), (sb.getStart + 6, hdr.pduLen.toNat)]
    | (false, _, _) => []
  | _ => []

/-- The call stays inside the array, keeps the counters in order and reads
pending bytes only. -/
def Sound (sb : SocketBuffer SIZE) (c : Call) : Prop :=
  ∃ sb', step sb c = some sb' ∧ sb'.Inv ∧ ∀ r ∈ reads sb c, sb.consumed ≤ r.1 ∧ r.1 + r.2 ≤ sb'.used

/-- A size the `uint32_t` test of `AddPdu` admits does fit, and no range ends
among the `consumed` bytes by which `used` exceeds the pending ones. -/
def Covered (sb : SocketBuffer SIZE) : Call → Prop
  | .addPdu bs _ =>
    sb.used + 6 + bs.getSerializedSize.toNat % 2 ^ 32 < SIZE.bytes →
      sb.used + 6 + bs.getSerializedSize.toNat ≤ SIZE.bytes
  | .getPrimitve T offset =>
    sb.used < (offset.toNat + T.bytes) % 2 ^ 64 ∨ offset.toNat + T.bytes ≤ sb.used - sb.consumed
  | .getPdu n _ =>
    n.toNat ≤ SIZE.bytes - sb.used → sb.used + n.toNat < 6 + sb.header.pduLen.toNat ∨
      6 + sb.header.pduLen.toNat ≤ sb.used + n.toNat - sb.consumed
  | _ => True

/-! ## One call -/

variable {sb : SocketBuffer SIZE}

theorem addPrimitve_sound (h : sb.Inv) (value : List UInt8) (hv : value.length < 2 ^ 63) :
    Sound sb (.addPrimitve value hv) := by
  have hc := h.consumed_le
  have hu := h.used_le
  rw [Sound, step, SocketBuffer.addPrimitve_eq h.used_le hv]
  split
  · exact ⟨_, rfl, ⟨by simp only; omega, by simp only; omega⟩, by simp [reads]⟩
  · exact ⟨sb, rfl, h, by simp [reads]⟩

theorem addPdu_sound_iff (h : sb.Inv) (bs : BaseSerializer) (hb : WritesItsSize bs) :
    Sound sb (.addPdu bs hb) ↔ Covered sb (.addPdu bs hb) := by
  have hc := h.consumed_le
  have hu := h.used_le
  have hlow : bs.getSerializedSize.toUInt32.toNat = bs.getSerializedSize.toNat % 2 ^ 32 := rfl
  rw [Sound, step, SocketBuffer.addPdu_eq h.used_le, hb, Covered, hlow]
  split
  · exact ⟨fun _ _ => by omega, fun _ => ⟨sb, rfl, h, by simp [reads]⟩⟩
  split
  · constructor
    · rintro ⟨_, hn, -⟩
      cases hn
    · intro hcov
      have := hcov (by omega)
      omega
  · refine ⟨fun _ _ => by omega, ?_⟩
    intro _
    dsimp only
    split
    · exact ⟨_, rfl, ⟨by simp only; omega, by simp only; omega⟩, by simp [reads]⟩
    · exact ⟨_, rfl, ⟨by simp only; omega, by simp only; omega⟩, by simp [reads]⟩

theorem getPrimitve_sound_iff (h : sb.Inv) (T : ObjectSize) (offset : UInt64) :
    Sound sb (.getPrimitve T offset) ↔ Covered sb (.getPrimitve T offset) := by
  have hc := h.consumed_le
  have hu := h.used_lt
  have hT := T.fits
  have ho : offset.toNat < 2 ^ 64 := offset.toNat_lt
  have hs : Sound sb (.getPrimitve T offset) ↔ ∀ r ∈ reads sb (.getPrimitve T offset),
      sb.consumed ≤ r.1 ∧ r.1 + r.2 ≤ sb.used := by
    simp [Sound, step, h]
  rw [hs, Covered, reads, SocketBuffer.getPrimitve, SocketBuffer.getStart]
  by_cases hlt : addW 64 offset.toNat T.bytes > sb.used
  · simpa [hlt] using .inl hlt
  simp only [if_neg hlt, Option.isSome_some, if_true, List.mem_singleton, forall_eq]
  unfold addW at hlt ⊢
  omega

theorem getPdu_sound_iff (h : sb.Inv) (n : UInt64) (out : PduHeader) :
    Sound sb (.getPdu n out) ↔ Covered sb (.getPdu n out) := by
  have hc := h.consumed_le
  have hu := h.used_le
  have he := h.getPdu_eq n.toNat out
  unfold Covered
  simp only [Sound, step, reads, Option.some.injEq, exists_eq_left', SocketBuffer.getStart]
  by_cases h1 : SIZE.bytes - sb.used < n.toNat
  · rw [he, if_pos h1]
    exact ⟨fun _ _ => by omega, fun _ => ⟨h, by simp⟩⟩
  rw [if_neg h1] at he
  have hin : (⟨sb.buffer, sb.used + n.toNat, sb.consumed⟩ : SocketBuffer SIZE).Inv :=
    ⟨by simp only; omega, by simp only; omega⟩
  by_cases h2 : sb.used + n.toNat < 6
  · rw [he, if_pos h2]
    exact ⟨fun _ _ => by omega, fun _ => ⟨hin, by simp⟩⟩
  rw [if_neg h2] at he
  by_cases h3 : sb.used + n.toNat < 6 + sb.header.pduLen.toNat
  · rw [he, if_pos h3]
    exact ⟨fun _ _ => .inl h3, fun _ => ⟨hin, by simp⟩⟩
  rw [he, if_neg h3]
  simp only [List.mem_cons, List.not_mem_nil, or_false, forall_eq_or_imp, forall_eq]
  constructor
  · rintro ⟨-, -, -, -, hp⟩ -
    omega
  · intro hcov
    have := hcov (by omega)
    exact ⟨⟨by simp only; omega, by simp only; omega⟩, by omega, by omega, by omega, by omega⟩

theorem consume_sound (h : sb.Inv) (n : UInt64) : Sound sb (.consume n) :=
  ⟨_, rfl, h.consume_inv n.toNat, by simp [reads]⟩

theorem sweep_sound (h : sb.Inv) : Sound sb .sweep := by
  obtain ⟨sb', hs, -⟩ := h.sweep_eq
  exact ⟨sb', hs, h.sweep_inv hs, by simp [reads]⟩

/-- With the counters in order, a call is sound exactly when it is covered. -/
theorem sound_iff (h : sb.Inv) (c : Call) : Sound sb c ↔ Covered sb c := by
  cases c with
  | addPrimitve value hv => exact iff_of_true (addPrimitve_sound h value hv) trivial
  | addPdu bs hb => exact addPdu_sound_iff h bs hb
  | getPrimitve T offset => exact getPrimitve_sound_iff h T offset
  | getPdu n out => exact getPdu_sound_iff h n out
  | consume n => exact iff_of_true (consume_sound h n) trivial
  | sweep => exact iff_of_true (sweep_sound h) trivial

/-! ## Runs -/

/-- Every call of a run is sound exactly when every call is covered. -/
theorem sound_iff_covered (SIZE : ObjectSize) (memory : Nat → UInt8) (calls : List Call) :
    (∀ x ∈ Run.visits step (SocketBuffer.new memory : SocketBuffer SIZE) calls, Sound x.1 x.2) ↔
      ∀ x ∈ Run.visits step (SocketBuffer.new memory : SocketBuffer SIZE) calls, Covered x.1 x.2 := by
  refine Run.visits_iff (I := SocketBuffer.Inv) (fun sb c h => sound_iff h c) ?_ (SocketBuffer.new_inv memory) calls
  rintro sb c sb' - ⟨_, hs, hi, -⟩ hs'
  obtain rfl := Option.some.inj (hs.symm.trans hs')
  exact hi

/-- Six zero bytes have arrived, a whole frame. A second `GetPdu` with no
`Sweep` before it takes the six bytes after them for another one. -/
theorem unswept_getPdu_unsound :
    ¬ ∀ (SIZE : ObjectSize) (memory : Nat → UInt8) (calls : List Call),
      ∀ x ∈ Run.visits step (SocketBuffer.new memory : SocketBuffer SIZE) calls, Sound x.1 x.2 := by
  intro h
  let SIZE : ObjectSize := ⟨16, by decide⟩
  let first : Call := .getPdu 6 ⟨0, 0⟩
  let second : Call := .getPdu 0 ⟨0, 0⟩
  let t : SocketBuffer SIZE := ⟨fun _ => 0, 6, 6⟩
  have hheader (u c : Nat) : (⟨fun _ => 0, u, c⟩ : SocketBuffer SIZE).header = ⟨0, 0⟩ := by
    simp only [SocketBuffer.header, read_succ, read_zero]
    decide
  have hnew : (SocketBuffer.new fun _ => 0 : SocketBuffer SIZE).Inv := SocketBuffer.new_inv _
  have hfirst : Run.exec step (SocketBuffer.new fun _ => 0) [first] = some t := by
    simp only [Run.exec_cons, step, first, hnew.getPdu_eq]
    simp [SocketBuffer.new, hheader, SIZE, t]
  have hsecond : step t second = some ⟨fun _ => 0, 6, 12⟩ := by
    have ht : t.Inv := ⟨by decide, by decide⟩
    simp only [step, second, ht.getPdu_eq]
    simp [hheader, SIZE, t]
  obtain ⟨sb', hs, hi, -⟩ := h _ _ _ _ (Run.visits_of_exec second [] hfirst)
  obtain rfl := Option.some.inj (hsecond.symm.trans hs)
  exact absurd hi.consumed_le (by decide)

end KSock.BufferCalls
