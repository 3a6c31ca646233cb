import KSock.AddPdu
import KSock.Reassembly
/-!
# Batches of PDUs

What `AddPdu` has put into a buffer, one PDU after another, may arrive at the
other end all at once. `GetPdu`, `Consume` and `Sweep` then take it apart again:
each round finds the next PDU of the batch, and after the last one the buffer is
empty.
-/
open KSockLib KSockLib.Memory KSockLib.Word

namespace KSock

/-- A serializer that writes the payload and announces and returns its size. -/
def serializer (pduType : UInt16) (payload : List UInt8) : BaseSerializer :=
  ⟨pduType, UInt64.ofNat payload.length, payload, UInt64.ofNat payload.length⟩

namespace SocketBuffer

variable {SIZE : ObjectSize} {sb sb' : SocketBuffer SIZE}

/-- `AddPdu` returns true only for payloads whose length has 32 bits, and has
then appended the frame. -/
theorem addPdu_accepted (h : sb.used ≤ SIZE.bytes) {pduType : UInt16} {payload : List UInt8}
    (hcall : sb.addPdu (serializer pduType payload) = some (true, sb')) :
    ∃ fits : payload.length < 2 ^ 32, sb.used + (6 + payload.length) ≤ SIZE.bytes ∧
      sb' = ⟨write sb.buffer sb.used (frame ⟨pduType, payload, fits⟩), sb.used + (6 + payload.length),
        sb.consumed⟩ := by
  have hS := SIZE.fits
  have hlow : (serializer pduType payload).getSerializedSize.toUInt32.toNat = payload.length % 2 ^ 64 % 2 ^ 32 :=
    congrArg (· % 2 ^ 32) UInt64.toNat_ofNat'
  have hserialize : (serializer pduType payload).serialize.toNat = payload.length % 2 ^ 64 := UInt64.toNat_ofNat'
  rw [addPdu_eq h] at hcall
  simp only [hlow, hserialize] at hcall
  split at hcall
  · cases hcall
  split at hcall
  · cases hcall
  split at hcall
  · cases hcall
  rename_i hroom hin hret
  simp only [serializer] at hin
  -- the payload was written inside the array, so its length has not wrapped
  have hlen : payload.length % 2 ^ 64 = payload.length := Nat.mod_eq_of_lt (by omega)
  rw [hlen] at hret hcall
  have hfits : payload.length < 2 ^ 32 := by omega
  rw [Nat.mod_eq_of_lt hfits] at hcall
  cases hcall
  have hw := write_write_append sb.buffer sb.used (headerBytes pduType payload.length) payload
  rw [length_headerBytes] at hw
  refine ⟨hfits, by omega, ?_⟩
  simp only [serializer, hw, Nat.add_assoc]
  rfl

/-- The frame is behind what was pending. -/
theorem addPdu_pending (h : sb.Inv) {pduType : UInt16} {payload : List UInt8}
    (hcall : sb.addPdu (serializer pduType payload) = some (true, sb')) :
    sb'.Inv ∧ sb'.consumed = sb.consumed ∧ ∃ m : Pdu, (m.pduType, m.payload) = (pduType, payload) ∧
      sb'.pending = sb.pending ++ frame m := by
  have hc := h.consumed_le
  obtain ⟨fits, hle, rfl⟩ := addPdu_accepted h.used_le hcall
  refine ⟨⟨by simp only; omega, hle⟩, rfl, ⟨pduType, payload, fits⟩, rfl, ?_⟩
  have hr := read_write_append sb.buffer sb.consumed (sb.used - sb.consumed) (frame ⟨pduType, payload, fits⟩)
  rw [length_frame, show sb.consumed + (sb.used - sb.consumed) = sb.used by omega] at hr
  rw [pending, pending, ← hr]
  congr 1
  dsimp only
  omega

end SocketBuffer

namespace Batches

open RecvPdu

variable {SIZE : ObjectSize} {sb sb' : SocketBuffer SIZE}

/-- Both counters are 0, as after construction or a `Sweep` with everything consumed. -/
structure Empty (sb : SocketBuffer SIZE) : Prop where
  used : sb.used = 0
  consumed : sb.consumed = 0

theorem Empty.ready (h : Empty sb) : Ready sb := ⟨h.consumed, by rw [h.used]; exact Nat.zero_le _⟩

theorem Empty.pending (h : Empty sb) : sb.pending = [] := by
  rw [SocketBuffer.pending, h.used, Nat.zero_sub]
  rfl

/-! ## Sending and receiving a batch -/

/-- `AddPdu` for one PDU after another, if all the calls return true. -/
def addBatch : List (UInt16 × List UInt8) → SocketBuffer SIZE → Option (SocketBuffer SIZE)
  | [], sb => some sb
  | (pduType, payload) :: rest, sb =>
    match sb.addPdu (serializer pduType payload) with
    | some (true, sb) => addBatch rest sb
    | _ => none

/-- `GetPdu` and, for as long as it returns true, `Consume(pdu_len)`, `Sweep` and
`GetPdu(0)`: the types and what was at `GetStart()` for `pdu_len` bytes, and the
buffer when `GetPdu` returned false. -/
def readBatch : (fuel receivedSize : Nat) → PduHeader → SocketBuffer SIZE →
    Option (List (UInt16 × List UInt8) × SocketBuffer SIZE)
  | 0, _, _, _ => none
  | fuel + 1, receivedSize, out, sb =>
    match sb.getPdu receivedSize out with
    | (false, sb, _) => some ([], sb)
    | (true, sb, out) =>
      let payload := read sb.buffer sb.getStart out.pduLen.toNat
      match sb.consume out.pduLen.toNat with
      | (false, _) => none
      | (true, sb) => do
        let sb ← sb.sweep
        let (rest, sb) ← readBatch fuel 0 out sb
        return ((out.pduType, payload) :: rest, sb)

/-! ## The two ends -/

theorem addBatch_pending (h : sb.Inv) {batch : List (UInt16 × List UInt8)} (hadd : addBatch batch sb = some sb') :
    sb'.Inv ∧ sb'.consumed = sb.consumed ∧
      ∃ pdus : List Pdu, pdus.map contents = batch ∧ sb'.pending = sb.pending ++ framing.stream pdus := by
  induction batch generalizing sb with
  | nil =>
    cases hadd
    exact ⟨h, rfl, [], rfl, by simp⟩
  | cons pdu rest ih =>
    unfold addBatch at hadd
    split at hadd
    · rename_i sb₁ hcall
      obtain ⟨h₁, hc₁, m, hm, hp₁⟩ := SocketBuffer.addPdu_pending h hcall
      obtain ⟨h', hc', pdus, hpdus, hp'⟩ := ih h₁ hadd
      refine ⟨h', hc'.trans hc₁, m :: pdus, ?_, ?_⟩
      · rw [List.map_cons, hpdus]
        exact congrArg (· :: rest) hm
      · rw [hp', hp₁, framing.stream_cons, List.append_assoc]
        rfl
    · cases hadd

/-- `GetPdu` hands over the frame at the front of what has arrived. -/
theorem getPdu_frame (h : Ready sb) {n : Nat} (hn : sb.used + n ≤ SIZE.bytes) {m : Pdu} {x : List UInt8}
    (hp : ({ sb with used := sb.used + n } : SocketBuffer SIZE).pending = frame m ++ x) (out : PduHeader) :
    ∃ sb' hdr, sb.getPdu n out = (true, sb', hdr) ∧ Hands m x sb' hdr := by
  let filled : SocketBuffer SIZE := { sb with used := sb.used + n }
  have hready : Ready filled := ⟨h.consumed, hn⟩
  have hholds : HoldsFrame filled := ⟨m, x, hp.symm⟩
  obtain ⟨h6, hlen⟩ := hready.holdsFrame_iff.1 hholds
  have hheader : filled.header = sb.header := rfl
  rw [hheader] at hlen
  refine ⟨pastHeader filled, filled.header, ?_, hands_of_frame hready hp⟩
  rw [h.inv.getPdu_eq, if_neg (by omega), if_neg (Nat.not_lt.2 h6), if_neg (Nat.not_lt.2 hlen), h.consumed]
  rfl

/-- In an empty buffer there is no PDU. -/
theorem getPdu_empty (h : Empty sb) (out : PduHeader) : sb.getPdu 0 out = (false, sb, out) := by
  rw [h.ready.inv.getPdu_eq, if_neg (Nat.not_lt_zero _), if_pos (by rw [h.used]; decide)]
  rfl

/-- The whole batch is read, with a round for each PDU and one to find the
buffer empty. -/
theorem readBatch_stream (h : Ready sb) {n : Nat} (hn : sb.used + n ≤ SIZE.bytes) {pdus : List Pdu}
    (hp : ({ sb with used := sb.used + n } : SocketBuffer SIZE).pending = framing.stream pdus) {fuel : Nat}
    (hfuel : pdus.length < fuel) (out : PduHeader) :
    ∃ sb', readBatch fuel n out sb = some (pdus.map contents, sb') ∧ Empty sb' := by
  induction pdus generalizing sb n fuel out with
  | nil =>
    obtain ⟨fuel, rfl⟩ : ∃ k, fuel = k + 1 := Nat.exists_eq_succ_of_ne_zero (by omega)
    have hlen := congrArg List.length hp
    rw [SocketBuffer.length_pending, h.consumed] at hlen
    have hu : sb.used + n = 0 := by simpa using hlen
    have hempty : Empty sb := ⟨by omega, h.consumed⟩
    refine ⟨sb, ?_, hempty⟩
    rw [readBatch, show n = 0 by omega, getPdu_empty hempty]
    rfl
  | cons m pdus ih =>
    obtain ⟨fuel, rfl⟩ : ∃ k, fuel = k + 1 := Nat.exists_eq_succ_of_ne_zero (by omega)
    rw [framing.stream_cons, framing_enc] at hp
    rw [List.length_cons] at hfuel
    obtain ⟨sb₁, hdr, hget, hands⟩ := getPdu_frame h hn hp out
    obtain ⟨sb₂, hc, -, -⟩ := @SocketBuffer.Inv.consume_pending SIZE sb₁ hands.inv hdr.pduLen.toNat
      (by have := hands.payload_le; omega)
    obtain ⟨sb₃, hs, hready, hp₃⟩ := hands.finish
    rw [hc] at hs
    obtain ⟨sb', hrest, hempty⟩ := @ih sb₃ hready 0 hready.used_le hp₃ fuel (by omega) hdr
    refine ⟨sb', ?_, hempty⟩
    have htype : hdr.pduType = m.pduType := by rw [hands.header]
    rw [readBatch, hget]
    simp only [hc, hs, Option.bind_eq_bind, Option.bind_some, hrest, hands.payload, htype]
    rfl

/-- A batch that `AddPdu` accepted into an empty buffer, placed at the start of
an empty buffer with room for all of it and announced in one `GetPdu` call, is
read back PDU by PDU. After the last one the buffer is empty, and `GetPdu(0)`
returns false. -/
theorem readBatch_addBatch {S R : ObjectSize} {new sender : SocketBuffer S} (hnew : Empty new)
    {batch : List (UInt16 × List UInt8)} (hadd : addBatch batch new = some sender) {receiver : SocketBuffer R}
    (hreceiver : Empty receiver) (hroom : sender.pending.length ≤ R.bytes) {fuel : Nat} (hfuel : batch.length < fuel)
    (out : PduHeader) :
    ∃ filled sb', receiver.store receiver.getStart sender.pending = some filled ∧
      readBatch fuel sender.pending.length out filled = some (batch, sb') ∧ Empty sb' ∧
      ∀ out, (sb'.getPdu 0 out).1 = false := by
  obtain ⟨-, -, pdus, rfl, hp⟩ := addBatch_pending hnew.ready.inv hadd
  rw [hnew.pending, List.nil_append] at hp
  rw [List.length_map] at hfuel
  let filled : SocketBuffer R := { receiver with buffer := write receiver.buffer 0 sender.pending }
  have hstore : receiver.store receiver.getStart sender.pending = some filled := by
    rw [SocketBuffer.getStart, hreceiver.consumed]
    exact SocketBuffer.store_eq (by omega)
  have hready : Ready filled := ⟨hreceiver.consumed, hreceiver.ready.used_le⟩
  have hfilled : ({ filled with used := filled.used + sender.pending.length } : SocketBuffer R).pending =
      framing.stream pdus := by
    simp only [SocketBuffer.pending, filled, hreceiver.used, hreceiver.consumed, Nat.zero_add, Nat.sub_zero]
    rw [read_write_same]
    exact hp
  have hn : filled.used + sender.pending.length ≤ R.bytes := by
    simp only [filled, hreceiver.used]
    omega
  obtain ⟨sb', hread, hempty⟩ := readBatch_stream hready hn hfilled hfuel out
  refine ⟨filled, sb', hstore, hread, hempty, ?_⟩
  intro out
  rw [getPdu_empty hempty]

/-- A PDU with a payload and one without, read by a buffer that they just fill. -/
theorem two_pdus_read_back :
    ∃ (sender : SocketBuffer ⟨32, by decide⟩) (filled sb' : SocketBuffer ⟨13, by decide⟩),
      addBatch [(1, [7]), (2, [])] (.new fun _ => 0) = some sender ∧
      readBatch 3 sender.pending.length ⟨0, 0⟩ filled = some ([(1, [7]), (2, [])], sb') ∧ Empty sb' := by
  let start : SocketBuffer ⟨32, by decide⟩ := .new fun _ => 0
  have hrun : (addBatch [(1, [7]), (2, [])] start).map (fun sb => sb.pending.length) = some 13 := by decide +kernel
  obtain ⟨sender, hadd, hlength⟩ := Option.map_eq_some_iff.1 hrun
  let receiver : SocketBuffer ⟨13, by decide⟩ := .new fun _ => 0
  have hreceiver : Empty receiver := ⟨rfl, rfl⟩
  obtain ⟨filled, sb', -, hread, hempty, -⟩ :=
    @readBatch_addBatch _ _ start _ ⟨rfl, rfl⟩ _ hadd receiver hreceiver (Nat.le_of_eq hlength) 3 (by decide) ⟨0, 0⟩
  exact ⟨sender, filled, sb', hadd, hread, hempty⟩

end Batches

end KSock
