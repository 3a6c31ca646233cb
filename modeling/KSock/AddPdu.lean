import KSock.SocketBuffer
/-!
# What `AddPdu` appends

`AddPdu` tests the capacity with the low 32 bits of the announced size and a
strict comparison, writes the header and only then asks the serializer to write
the payload. `Atomic` is what a caller expects of it, and `atomic_iff_admits`
says for which states and serializers it holds: not where the frame would fill
the array to its end, nor where the header is written and the serializer then
returns another size than those 32 bits.

This is about every state the methods can reach, those with `consumed > used`
included.
-/
open KSockLib.Memory KSockLib.Word

namespace KSock.SocketBuffer

variable {SIZE : ObjectSize} {sb sb' : SocketBuffer SIZE}

/-! ## Reachable states -/

/-- The states that the methods lead to, in any order and with any arguments,
while whoever has `GetStart()` or `GetEnd()` changes the array. -/
inductive Reached : SocketBuffer SIZE → Prop where
  | new (memory : Nat → UInt8) : Reached (.new memory)
  | stored {sb : SocketBuffer SIZE} (buffer : Nat → UInt8) (h : Reached sb) : Reached { sb with buffer := buffer }
  | addPrimitve {sb sb' : SocketBuffer SIZE} {value : List UInt8} {ok : Bool} (h : Reached sb)
      (object : value.length < 2 ^ 63) (call : sb.addPrimitve value = some (ok, sb')) : Reached sb'
  | addPdu {sb sb' : SocketBuffer SIZE} {bs : BaseSerializer} {ok : Bool} (h : Reached sb)
      (call : sb.addPdu bs = some (ok, sb')) : Reached sb'
  | getPdu {sb : SocketBuffer SIZE} (h : Reached sb) (receivedSize : UInt64) (out : PduHeader) :
      Reached (sb.getPdu receivedSize.toNat out).2.1
  | consume {sb : SocketBuffer SIZE} (h : Reached sb) (consumingSize : UInt64) :
      Reached (sb.consume consumingSize.toNat).2
  | sweep {sb sb' : SocketBuffer SIZE} (h : Reached sb) (call : sb.sweep = some sb') : Reached sb'

theorem getPdu_used_le (h : sb.used ≤ SIZE.bytes) (n : Nat) (out : PduHeader) :
    (sb.getPdu n out).2.1.used ≤ SIZE.bytes := by
  have hS := SIZE.fits
  unfold getPdu
  rw [subW_eq h (by omega)]
  by_cases hn : n > SIZE.bytes - sb.used
  · rw [if_pos hn]
    exact h
  · have hadd : addW 64 sb.used n = sb.used + n := addW_eq (by omega)
    rw [if_neg hn, hadd]
    have hle : sb.used + n ≤ SIZE.bytes := by omega
    dsimp only
    repeat' split
    all_goals exact hle

/-- A sweep that stays inside the array leaves `used` inside it, whatever
`consumed` was. -/
theorem sweep_used_le (h : sb.used ≤ SIZE.bytes) (hs : sb.sweep = some sb') : sb'.used ≤ SIZE.bytes := by
  unfold sweep at hs
  by_cases h0 : sb.consumed = 0
  · rw [if_pos h0] at hs
    cases hs
    exact h
  rw [if_neg h0] at hs
  dsimp only at hs
  by_cases he : sb.used ≠ sb.consumed
  · rw [if_pos he] at hs
    by_cases hin : sb.consumed + subW 64 sb.used sb.consumed ≤ SIZE.bytes
    · rw [if_pos hin] at hs
      cases hs
      dsimp only
      omega
    · rw [if_neg hin] at hs
      cases hs
  · rw [if_neg he] at hs
    cases hs
    have hle : sb.consumed ≤ sb.used := Nat.le_of_eq (not_not.1 he).symm
    dsimp only
    rw [subW_eq hle (by have := used_lt h; omega)]
    omega

theorem Reached.used_le (h : Reached sb) : sb.used ≤ SIZE.bytes := by
  induction h with
  | new memory => exact Nat.zero_le _
  | stored buffer _ ih => exact ih
  | @addPrimitve sb _ value _ _ object call ih =>
    rw [addPrimitve_eq ih object] at call
    split at call
    · rename_i hfits
      cases call
      exact Nat.le_of_lt hfits
    · cases call
      exact ih
  | @addPdu sb _ bs _ _ call ih =>
    rw [addPdu_eq ih] at call
    split at call
    · cases call
      exact ih
    split at call
    · cases call
    dsimp only at call
    split at call
    · cases call
      dsimp only
      omega
    · cases call
      dsimp only
      omega
  | getPdu _ n out ih => exact getPdu_used_le ih n.toNat out
  | @consume sb _ n ih =>
    unfold SocketBuffer.consume
    split <;> exact ih
  | sweep _ call ih => exact sweep_used_le ih call

/-! ## Exact and atomic -/

/-- What the next `SEND_ALL` offers. -/
def unsent (sb : SocketBuffer SIZE) : List UInt8 := read sb.buffer sb.getStart sb.getRemainingSendSize

/-- `AddPdu` returns; it returns true exactly if header and payload fit into the
free bytes and the serializer agrees, and has then appended the frame; and if it
returns false it has left what is to be sent as it was. -/
def Atomic (sb : SocketBuffer SIZE) (bs : BaseSerializer) : Prop :=
  ∃ ok sb', sb.addPdu bs = some (ok, sb') ∧
    (ok = true ↔ 6 + bs.getSerializedSize.toNat ≤ SIZE.bytes - sb.used ∧ bs.serialize = bs.getSerializedSize) ∧
    (ok = true → sb'.used = sb.used + (6 + bs.getSerializedSize.toNat)) ∧
    (ok = false → sb'.unsent = sb.unsent)

/-- Either the capacity test rejects the low 32 bits of the size, and it is not
an exact fit that the serializer agrees with; or the size has 32 bits, the
serializer returns it and writes inside the array. -/
def Admits (sb : SocketBuffer SIZE) (bs : BaseSerializer) : Prop :=
  if SIZE.bytes ≤ sb.used + 6 + bs.getSerializedSize.toNat % 2 ^ 32 then
    ¬(sb.used + 6 + bs.getSerializedSize.toNat = SIZE.bytes ∧ bs.serialize = bs.getSerializedSize)
  else bs.getSerializedSize.toNat < 2 ^ 32 ∧ bs.serialize = bs.getSerializedSize ∧
    sb.used + 6 + bs.serialized.length ≤ SIZE.bytes

instance (sb : SocketBuffer SIZE) (bs : BaseSerializer) : Decidable (Admits sb bs) :=
  inferInstanceAs (Decidable (ite _ _ _))

/-- The six bytes of a header are offered along with what was there. -/
theorem unsent_ne {buffer : Nat → UInt8} :
    (⟨buffer, sb.used + 6, sb.consumed⟩ : SocketBuffer SIZE).unsent ≠ sb.unsent := by
  intro h
  have hlen := congrArg List.length h
  simp only [unsent, length_read, getRemainingSendSize, getUsed, subW] at hlen
  omega

/-- A call that is turned away by the capacity test leaves the buffer as it is. -/
theorem atomic_of_rejected (h : sb.used ≤ SIZE.bytes) (bs : BaseSerializer)
    (hfull : SIZE.bytes ≤ sb.used + 6 + bs.getSerializedSize.toNat % 2 ^ 32) :
    Atomic sb bs ↔ ¬(sb.used + 6 + bs.getSerializedSize.toNat = SIZE.bytes ∧ bs.serialize = bs.getSerializedSize) := by
  have hcall : sb.addPdu bs = some (false, sb) := by
    rw [addPdu_eq h]
    exact if_pos hfull
  have hmod := Nat.mod_le bs.getSerializedSize.toNat (2 ^ 32)
  constructor
  · rintro ⟨ok, sb', hcall', hiff, -, -⟩ ⟨hexact, hret⟩
    obtain ⟨rfl, rfl⟩ := Prod.mk.inj (Option.some.inj (hcall.symm.trans hcall'))
    have hfits : 6 + bs.getSerializedSize.toNat ≤ SIZE.bytes - sb.used := by omega
    exact Bool.false_ne_true (hiff.2 ⟨hfits, hret⟩)
  · intro hnot
    refine ⟨false, sb, hcall, ⟨fun hf => absurd hf Bool.false_ne_true, ?_⟩, by simp, fun _ => rfl⟩
    rintro ⟨hfits, hret⟩
    exact absurd ⟨by omega, hret⟩ hnot

/-- A call that passes the capacity test writes the header. -/
theorem atomic_of_headed (h : sb.used ≤ SIZE.bytes) (bs : BaseSerializer)
    (hroom : sb.used + 6 + bs.getSerializedSize.toNat % 2 ^ 32 < SIZE.bytes) :
    Atomic sb bs ↔ bs.getSerializedSize.toNat < 2 ^ 32 ∧ bs.serialize = bs.getSerializedSize ∧
      sb.used + 6 + bs.serialized.length ≤ SIZE.bytes := by
  have hcall := addPdu_eq h bs
  rw [show bs.getSerializedSize.toUInt32.toNat = bs.getSerializedSize.toNat % 2 ^ 32 from rfl,
    if_neg (by omega)] at hcall
  by_cases hover : SIZE.bytes < sb.used + 6 + bs.serialized.length
  · rw [if_pos hover] at hcall
    constructor
    · rintro ⟨ok, sb', hcall', -⟩
      rw [hcall] at hcall'
      cases hcall'
    · rintro ⟨-, -, hin⟩
      omega
  rw [if_neg hover] at hcall
  dsimp only at hcall
  by_cases hret : bs.serialize.toNat ≠ bs.getSerializedSize.toNat % 2 ^ 32
  · rw [if_pos hret] at hcall
    constructor
    · -- the header stays behind
      rintro ⟨ok, sb', hcall', -, -, hkept⟩
      obtain ⟨rfl, rfl⟩ := Prod.mk.inj (Option.some.inj (hcall.symm.trans hcall'))
      exact absurd (hkept rfl) unsent_ne
    · rintro ⟨hsmall, hserialize, -⟩
      rw [hserialize, Nat.mod_eq_of_lt hsmall] at hret
      exact absurd rfl hret
  rw [if_neg hret] at hcall
  have hret := not_not.1 hret
  constructor
  · rintro ⟨ok, sb', hcall', hiff, -, -⟩
    obtain ⟨rfl, rfl⟩ := Prod.mk.inj (Option.some.inj (hcall.symm.trans hcall'))
    obtain ⟨-, hserialize⟩ := hiff.1 rfl
    rw [hserialize] at hret
    exact ⟨hret ▸ Nat.mod_lt _ (by decide), hserialize, by omega⟩
  · rintro ⟨hsmall, hserialize, -⟩
    rw [Nat.mod_eq_of_lt hsmall] at hcall hroom
    refine ⟨true, _, hcall, ⟨fun _ => ⟨by omega, hserialize⟩, fun _ => rfl⟩, fun _ => ?_, by simp⟩
    dsimp only
    omega

/-- In every reachable state and for every serializer, `AddPdu` is exact and
atomic exactly if the state admits the serializer. -/
theorem atomic_iff_admits (h : Reached sb) (bs : BaseSerializer) : Atomic sb bs ↔ Admits sb bs := by
  unfold Admits
  by_cases hfull : SIZE.bytes ≤ sb.used + 6 + bs.getSerializedSize.toNat % 2 ^ 32
  · rw [if_pos hfull]
    exact atomic_of_rejected h.used_le bs hfull
  · rw [if_neg hfull]
    exact atomic_of_headed h.used_le bs (by omega)

/-- A two-byte payload goes into a fresh buffer of 16 bytes. -/
theorem new_atomic : Atomic (.new fun _ => 0 : SocketBuffer ⟨16, by decide⟩) ⟨7, 2, [0xab, 0xcd], 2⟩ :=
  (atomic_iff_admits (.new _) _).2 (by decide)

/-- The serializer announces two bytes and then returns one: `AddPdu` returns
false, and the header is sent all the same. -/
theorem short_serializer_leaves_header :
    ¬ ∀ (SIZE : ObjectSize) (sb : SocketBuffer SIZE) (bs : BaseSerializer), Reached sb → Atomic sb bs := by
  intro h
  let sb : SocketBuffer ⟨16, by decide⟩ := .new fun _ => 0
  let bs : BaseSerializer := ⟨7, 2, [0xab], 1⟩
  have hcall : (sb.addPdu bs).map (fun r => (r.1, r.2.unsent)) = some (false, [0, 0, 0, 2, 0, 7]) := by decide
  obtain ⟨ok, sb', heq, -, -, hkept⟩ := h _ sb bs (.new _)
  rw [heq] at hcall
  obtain ⟨rfl, hunsent⟩ := Prod.mk.inj (Option.some.inj hcall)
  rw [hkept rfl] at hunsent
  exact absurd hunsent (by decide)

end KSock.SocketBuffer
