import KSock.SocketBuffer
/-!
# The receiving side: `RECV_PDU_BEGIN` and `RECV_PDU_END`

Rounds of the two macros on one buffer, as the list of what they do: each `recv`
call with its result, and each entry of the body. The results come from the
environment, as do the values of the two locals, which no round initialises.

`recv` is given `GetStartS()`, so it writes where the unread bytes start, not
behind them. The theorems here hold of every run: no round leaves the array, and
the body is entered without a `GetPdu` that returned true exactly in the runs in
which a `recv` reports 0 or `SOCKET_ERROR`.
-/
open KSockLib KSockLib.Memory KSockLib.Word

namespace KSock.RecvPdu

variable {SIZE : ObjectSize}

/-- What a `recv` call comes to. -/
inductive RecvResult where
  | data (bs : List UInt8)
  | closed
  | failed
  deriving DecidableEq, Repr

namespace RecvResult

/-- What is written at the pointer `recv` was given. -/
def bytes : RecvResult → List UInt8
  | data bs => bs
  | closed => []
  | failed => []

def retval : RecvResult → Int
  | data bs => bs.length
  | closed => 0
  | failed => SOCKET_ERROR

/-- Data is at least one byte, at most what was asked for, and its length an `int`. -/
def Allowed (asked : Nat) : RecvResult → Prop
  | data bs => 1 ≤ bs.length ∧ bs.length ≤ asked ∧ bs.length < 2 ^ 31
  | closed => True
  | failed => True

instance (asked : Nat) : (r : RecvResult) → Decidable (r.Allowed asked)
  | data bs => inferInstanceAs (Decidable (1 ≤ bs.length ∧ bs.length ≤ asked ∧ bs.length < 2 ^ 31))
  | closed => isTrue trivial
  | failed => isTrue trivial

end RecvResult

/-- What a round does. A `recv` that has not returned has no result; `overrun`
is a store outside the array. -/
inductive Event (SIZE : ObjectSize) where
  | recv (sb : SocketBuffer SIZE) (result : Option RecvResult)
  | body (getPdu : Bool) (sb : SocketBuffer SIZE) (hdr : PduHeader)
  | overrun

/-- How the inner loop was left: by `GetPdu` or by a `break`, with the two
locals and the results still to come. -/
structure LoopEnd (SIZE : ObjectSize) where
  getPdu : Bool
  sb : SocketBuffer SIZE
  hdr : PduHeader
  rest : List RecvResult

/-- The inner loop of `RECV_PDU_BEGIN`. It has no end if a `recv` does not
return, as when it has nothing it may return. -/
def recvLoop (sb : SocketBuffer SIZE) (hdr : PduHeader) :
    List RecvResult → List (Event SIZE) × Option (LoopEnd SIZE)
  | [] => ([.recv sb none], none)
  | r :: rest =>
    if ¬ r.Allowed sb.getRemainingRecvSize then ([.recv sb none], none) else
    match sb.store sb.getStart r.bytes with
    | none => ([.recv sb (some r), .overrun], none)
    | some sb' =>
      if r.retval = SOCKET_ERROR ∨ r.retval = 0 then ([.recv sb (some r)], some ⟨false, sb', hdr, rest⟩) else
      match sb'.getPdu (ofInt 64 r.retval) hdr with
      | (true, sb', hdr') => ([.recv sb (some r)], some ⟨true, sb', hdr', rest⟩)
      | (false, sb', hdr') =>
        let (trace, e) := recvLoop sb' hdr' rest
        (.recv sb (some r) :: trace, e)

/-- `RECV_PDU_BEGIN`, a body that leaves the buffer alone, and `RECV_PDU_END`.
`hdr` is what the two locals hold before anything is assigned to them. -/
def recvRound (hdr : PduHeader) (sb : SocketBuffer SIZE) (results : List RecvResult) :
    List (Event SIZE) × Option (SocketBuffer SIZE × List RecvResult) :=
  if sb.getRemainingRecvSize = 0 then ([], some (sb, results)) else
  match recvLoop sb hdr results with
  | (trace, none) => (trace, none)
  | (trace, some e) =>
    match (e.sb.consume e.hdr.pduLen.toNat).2.sweep with
    | none => (trace ++ [.body e.getPdu e.sb e.hdr, .overrun], none)
    | some sb' => (trace ++ [.body e.getPdu e.sb e.hdr], some (sb', e.rest))

/-- Successive rounds. -/
def recvRounds (locals : Nat → PduHeader) : Nat → SocketBuffer SIZE → List RecvResult → List (Event SIZE)
  | 0, _, _ => []
  | n + 1, sb, results =>
    match recvRound (locals n) sb results with
    | (trace, none) => trace
    | (trace, some (sb', rest)) => trace ++ recvRounds locals n sb' rest

theorem recvRound_full {hdr : PduHeader} {sb : SocketBuffer SIZE} {results : List RecvResult}
    (hfull : sb.getRemainingRecvSize = 0) : recvRound hdr sb results = ([], some (sb, results)) := if_pos hfull

theorem recvRound_waits {hdr : PduHeader} {sb : SocketBuffer SIZE} {results : List RecvResult}
    {tr : List (Event SIZE)} (hfull : sb.getRemainingRecvSize ≠ 0) (he : recvLoop sb hdr results = (tr, none)) :
    recvRound hdr sb results = (tr, none) := by
  rw [recvRound, if_neg hfull, he]

theorem recvRound_left {hdr : PduHeader} {sb sb' : SocketBuffer SIZE} {results : List RecvResult}
    {tr : List (Event SIZE)} {e : LoopEnd SIZE} (hfull : sb.getRemainingRecvSize ≠ 0)
    (he : recvLoop sb hdr results = (tr, some e)) (hs : (e.sb.consume e.hdr.pduLen.toNat).2.sweep = some sb') :
    recvRound hdr sb results = (tr ++ [.body e.getPdu e.sb e.hdr], some (sb', e.rest)) := by
  rw [recvRound, if_neg hfull, he]
  simp only [hs]

theorem recvRounds_succ (locals : Nat → PduHeader) (n : Nat) (sb : SocketBuffer SIZE) (results : List RecvResult) :
    recvRounds locals (n + 1) sb results = (recvRound (locals n) sb results).1 ++
      (recvRound (locals n) sb results).2.elim [] fun x => recvRounds locals n x.1 x.2 := by
  rw [recvRounds]
  split
  · rename_i he
    rw [he]
    exact (List.append_nil _).symm
  · rename_i he
    rw [he]
    rfl

/-- The events of a round start with those of its loop. -/
theorem mem_recvRound {hdr : PduHeader} {sb : SocketBuffer SIZE} {results : List RecvResult} {ev : Event SIZE}
    (hfull : sb.getRemainingRecvSize ≠ 0) (h : ev ∈ (recvLoop sb hdr results).1) :
    ev ∈ (recvRound hdr sb results).1 := by
  rcases he : recvLoop sb hdr results with ⟨tr, _ | e⟩ <;> rw [he] at h
  · rwa [recvRound_waits hfull he]
  · rw [recvRound, if_neg hfull, he]
    dsimp only
    split <;> exact List.mem_append_left _ h

/-! ## What a trace shows -/

/-- The bytes `recv` has returned. -/
def received : List (Event SIZE) → List UInt8
  | [] => []
  | .recv _ (some r) :: tr => r.bytes ++ received tr
  | _ :: tr => received tr

/-- The type and the `pdu_len` bytes at `GetStart()` of each body, over the
rounds whose `GetPdu` returned true. -/
def delivered : List (Event SIZE) → List (UInt16 × List UInt8)
  | [] => []
  | .body true sb hdr :: tr => (hdr.pduType, read sb.buffer sb.getStart hdr.pduLen.toNat) :: delivered tr
  | _ :: tr => delivered tr

@[simp] theorem received_nil : received ([] : List (Event SIZE)) = [] := rfl
@[simp] theorem received_recv (sb : SocketBuffer SIZE) (r : RecvResult) (tr : List (Event SIZE)) :
    received (.recv sb (some r) :: tr) = r.bytes ++ received tr := rfl
@[simp] theorem received_waits (sb : SocketBuffer SIZE) (tr : List (Event SIZE)) :
    received (.recv sb none :: tr) = received tr := rfl
@[simp] theorem received_body (ok : Bool) (sb : SocketBuffer SIZE) (hdr : PduHeader) (tr : List (Event SIZE)) :
    received (.body ok sb hdr :: tr) = received tr := rfl

theorem received_append (tr tr' : List (Event SIZE)) : received (tr ++ tr') = received tr ++ received tr' := by
  induction tr with
  | nil => rfl
  | cons ev tr ih =>
    rcases ev with ⟨sb, _ | r⟩ | ⟨ok, sb, hdr⟩ | _
    · exact ih
    · rw [List.cons_append, received_recv, received_recv, ih, List.append_assoc]
    · exact ih
    · exact ih

@[simp] theorem delivered_recv (sb : SocketBuffer SIZE) (r : Option RecvResult) (tr : List (Event SIZE)) :
    delivered (.recv sb r :: tr) = delivered tr := rfl
@[simp] theorem delivered_body (sb : SocketBuffer SIZE) (hdr : PduHeader) (tr : List (Event SIZE)) :
    delivered (.body true sb hdr :: tr) =
      (hdr.pduType, read sb.buffer sb.getStart hdr.pduLen.toNat) :: delivered tr := rfl

/-- `recv` reported 0 or `SOCKET_ERROR`. -/
def Fails : Event SIZE → Prop
  | .recv _ (some .closed) => True
  | .recv _ (some .failed) => True
  | _ => False

theorem not_fails_body (ok : Bool) (sb : SocketBuffer SIZE) (hdr : PduHeader) : ¬ Fails (.body ok sb hdr) := not_false

/-- The body is entered after a `GetPdu` that returned true, with the header
that lies before `GetStart()`, and the payload lies between `consumed` and
`used`; and nothing is stored outside the array. -/
def Guarded : Event SIZE → Prop
  | .recv _ _ => True
  | .body ok sb hdr =>
    ok = true ∧ sb.consumed = 6 ∧ hdr = (⟨sb.buffer, sb.used, 0⟩ : SocketBuffer SIZE).header ∧
      sb.consumed + hdr.pduLen.toNat ≤ sb.used ∧ sb.used ≤ SIZE.bytes
  | .overrun => False

/-! ## `recv` results are used in order -/

/-- The bytes a loop has received, and what its results still hold. -/
theorem recvLoop_received (sb : SocketBuffer SIZE) (hdr : PduHeader) (results : List RecvResult) :
    received (recvLoop sb hdr results).1 <+: results.flatMap RecvResult.bytes ∧
      ∀ e ∈ (recvLoop sb hdr results).2,
        received (recvLoop sb hdr results).1 ++ e.rest.flatMap RecvResult.bytes = results.flatMap RecvResult.bytes := by
  induction results generalizing sb hdr with
  | nil => simp [recvLoop]
  | cons r rest ih =>
    unfold recvLoop
    split
    · simp
    split
    · simp [received]
    split
    · simp
    split
    · simp
    · rename_i sb' hdr' _
      obtain ⟨hpre, heq⟩ := ih sb' hdr'
      simp only [received_recv, List.flatMap_cons, List.append_assoc]
      exact ⟨(List.prefix_append_right_inj _).2 hpre, fun e he => by rw [heq e he]⟩

theorem recvRounds_received (locals : Nat → PduHeader) (n : Nat) (sb : SocketBuffer SIZE) (results : List RecvResult) :
    received (recvRounds locals n sb results) <+: results.flatMap RecvResult.bytes := by
  induction n generalizing sb results with
  | zero => exact List.nil_prefix
  | succ n ih =>
    rw [recvRounds_succ, received_append]
    by_cases hfull : sb.getRemainingRecvSize = 0
    · rw [recvRound_full hfull]
      exact ih sb results
    obtain ⟨hpre, heq⟩ := recvLoop_received sb (locals n) results
    rcases he : recvLoop sb (locals n) results with ⟨tr, _ | e⟩ <;> rw [he] at hpre heq
    · rw [recvRound_waits hfull he]
      simpa using hpre
    cases hs : (e.sb.consume e.hdr.pduLen.toNat).2.sweep with
    | none =>
      rw [recvRound, if_neg hfull, he]
      simpa [hs, received_append, received] using hpre
    | some sb' =>
      rw [recvRound_left hfull he hs, received_append, ← heq e rfl]
      simpa using ih sb' e.rest

/-! ## One `recv` -/

/-- The buffer when `recv` is called: nothing consumed. -/
structure Ready (sb : SocketBuffer SIZE) : Prop where
  consumed : sb.consumed = 0
  used_le : sb.used ≤ SIZE.bytes

/-- A complete frame is pending. -/
def HoldsFrame (sb : SocketBuffer SIZE) : Prop := ∃ m, frame m <+: sb.pending

instance (sb : SocketBuffer SIZE) : Decidable (HoldsFrame sb) := decidable_of_iff _ frame_prefix_iff.symm

/-- The buffer after `recv` wrote `bs` at `GetStart()` and `GetPdu` counted them. -/
def fill (sb : SocketBuffer SIZE) (bs : List UInt8) : SocketBuffer SIZE :=
  ⟨write sb.buffer 0 bs, sb.used + bs.length, 0⟩

/-- The buffer when `GetPdu` has consumed the header. -/
def pastHeader (sb : SocketBuffer SIZE) : SocketBuffer SIZE := { sb with consumed := 6 }

variable {sb : SocketBuffer SIZE}

theorem Ready.inv (h : Ready sb) : sb.Inv := ⟨by rw [h.consumed]; omega, h.used_le⟩

theorem Ready.remaining (h : Ready sb) : sb.getRemainingRecvSize = SIZE.bytes - sb.used := by
  rw [h.inv.getRemainingRecvSize_eq, h.consumed, Nat.sub_zero]

theorem Ready.fill (h : Ready sb) {bs : List UInt8} (hbs : bs.length ≤ SIZE.bytes - sb.used) : Ready (fill sb bs) :=
  ⟨rfl, by have := h.used_le; simp only [RecvPdu.fill]; omega⟩

theorem Ready.sweep (h : sb.Inv) : ∃ sb', sb.sweep = some sb' ∧ Ready sb' ∧ sb'.pending = sb.pending := by
  obtain ⟨sb', hs, hc, hu, hp⟩ := h.sweep_eq
  exact ⟨sb', hs, ⟨hc, (h.sweep_inv hs).used_le⟩, hp⟩

theorem Ready.length_pending (h : Ready sb) : sb.pending.length = sb.used := by
  rw [SocketBuffer.length_pending, h.consumed, Nat.sub_zero]

/-- The header of a buffer is that of its pending bytes. -/
theorem header_eq (h : 6 ≤ sb.used - sb.consumed) :
    sb.header = ⟨typeField sb.pending, UInt32.ofNat (lenField sb.pending)⟩ := by
  rw [SocketBuffer.header, SocketBuffer.pending, ← take_read _ _ h, typeField_take, lenField_take]

/-- `lenField` fits the 32 bits it is read into. -/
theorem pduLen_header (h : 6 ≤ sb.used - sb.consumed) : sb.header.pduLen.toNat = lenField sb.pending := by
  rw [header_eq h]
  exact Nat.mod_eq_of_lt (lenField_lt _)

theorem Ready.holdsFrame_iff (h : Ready sb) :
    HoldsFrame sb ↔ 6 ≤ sb.used ∧ 6 + sb.header.pduLen.toNat ≤ sb.used := by
  rw [HoldsFrame, frame_prefix_iff, h.length_pending]
  refine and_congr_right fun h6 => ?_
  rw [pduLen_header (by rw [h.consumed]; omega)]

/-- One `recv` of data and the `GetPdu` after it: true exactly if the buffer,
with the data written over its start, holds a frame. -/
theorem recvLoop_data (h : Ready sb) (hdr : PduHeader) {bs : List UInt8} (rest : List RecvResult)
    (hbs : (RecvResult.data bs).Allowed (SIZE.bytes - sb.used)) :
    (HoldsFrame (fill sb bs) ∧ recvLoop sb hdr (.data bs :: rest) =
        ([.recv sb (some (.data bs))], some ⟨true, pastHeader (fill sb bs), (fill sb bs).header, rest⟩)) ∨
      (¬ HoldsFrame (fill sb bs) ∧ ∃ hdr', recvLoop sb hdr (.data bs :: rest) =
        (.recv sb (some (.data bs)) :: (recvLoop (fill sb bs) hdr' rest).1, (recvLoop (fill sb bs) hdr' rest).2)) := by
  obtain ⟨hpos, hle, hint⟩ := hbs
  have hu := h.used_le
  have hf := h.fill hle
  have hstore : sb.store sb.getStart bs = some ⟨write sb.buffer 0 bs, sb.used, 0⟩ := by
    rw [SocketBuffer.getStart, h.consumed, SocketBuffer.store_eq (by omega), h.consumed]
  have hstored : (⟨write sb.buffer 0 bs, sb.used, 0⟩ : SocketBuffer SIZE).Inv := ⟨Nat.zero_le _, hu⟩
  have hheader (u : Nat) : (⟨write sb.buffer 0 bs, u, 0⟩ : SocketBuffer SIZE).header = (fill sb bs).header := rfl
  have hget := hstored.getPdu_eq bs.length hdr
  simp only [hheader, if_neg (show ¬ SIZE.bytes - sb.used < bs.length by omega)] at hget
  have hretval : ¬ ((bs.length : Int) = SOCKET_ERROR ∨ (bs.length : Int) = 0) := by
    simp only [SOCKET_ERROR]
    omega
  rw [hf.holdsFrame_iff, recvLoop, h.remaining, if_neg (not_not_intro ⟨hpos, hle, hint⟩), RecvResult.bytes, hstore]
  simp only [RecvResult.retval, if_neg hretval, ofInt_natCast (show bs.length < 2 ^ 64 by omega), hget]
  by_cases h6 : sb.used + bs.length < 6
  · right
    rw [if_pos h6]
    exact ⟨by simp only [RecvPdu.fill]; omega, hdr, rfl⟩
  by_cases hlen : sb.used + bs.length < 6 + (fill sb bs).header.pduLen.toNat
  · right
    rw [if_neg h6, if_pos hlen]
    exact ⟨by simp only [RecvPdu.fill] at hlen ⊢; omega, (fill sb bs).header, rfl⟩
  · left
    rw [if_neg h6, if_neg hlen]
    exact ⟨by simp only [RecvPdu.fill] at hlen ⊢; omega, rfl⟩

/-- A `recv` that reports 0 or `SOCKET_ERROR` ends the loop. -/
theorem recvLoop_fails (h : Ready sb) (hdr : PduHeader) {r : RecvResult} (rest : List RecvResult)
    (hr : r = .closed ∨ r = .failed) :
    recvLoop sb hdr (r :: rest) = ([.recv sb (some r)], some ⟨false, fill sb [], hdr, rest⟩) := by
  have hu := h.used_le
  have hstore : sb.store sb.getStart [] = some (fill sb []) := by
    rw [SocketBuffer.getStart, h.consumed, SocketBuffer.store_eq (by simp), h.consumed]
    rfl
  rcases hr with rfl | rfl <;>
    simp [recvLoop, RecvResult.Allowed, RecvResult.bytes, RecvResult.retval, hstore]

/-! ## Every run -/

/-- A loop makes `recv` calls only. If it ends, `GetPdu` has returned true
exactly if none of them failed, and then the body finds what it should. -/
structure LoopSpec (trace : List (Event SIZE)) (e : Option (LoopEnd SIZE)) : Prop where
  recvs : ∀ ev ∈ trace, Guarded ev
  waits : e = none → ∀ ev ∈ trace, ¬ Fails ev
  inv : ∀ e' ∈ e, e'.sb.Inv
  getPdu : ∀ e' ∈ e, e'.getPdu = true ↔ ∀ ev ∈ trace, ¬ Fails ev
  guarded : ∀ e' ∈ e, e'.getPdu = true → Guarded (.body true e'.sb e'.hdr)

theorem LoopSpec.cons {trace : List (Event SIZE)} {e : Option (LoopEnd SIZE)} (h : LoopSpec trace e) (bs : List UInt8) :
    LoopSpec (.recv sb (some (.data bs)) :: trace) e where
  recvs := List.forall_mem_cons.2 ⟨trivial, h.recvs⟩
  waits he := List.forall_mem_cons.2 ⟨not_false, h.waits he⟩
  inv := h.inv
  getPdu e' he := by
    rw [h.getPdu e' he, List.forall_mem_cons]
    exact (and_iff_right not_false).symm
  guarded := h.guarded

theorem recvLoop_spec (h : Ready sb) (hdr : PduHeader) (results : List RecvResult) :
    LoopSpec (recvLoop sb hdr results).1 (recvLoop sb hdr results).2 := by
  have hnone : LoopSpec [.recv sb none] none := ⟨by simp [Guarded], by simp [Fails], by simp, by simp, by simp⟩
  induction results generalizing sb hdr with
  | nil => exact hnone
  | cons r rest ih =>
    by_cases hr : r.Allowed (SIZE.bytes - sb.used)
    swap
    · rw [recvLoop, h.remaining, if_pos hr]
      exact hnone
    cases r with
    | closed | failed =>
      rw [recvLoop_fails h hdr rest (by simp)]
      have hinv : (fill sb []).Inv := (h.fill (Nat.zero_le _)).inv
      exact ⟨by simp [Guarded], by simp, by simpa using hinv, by simp [Fails], by simp⟩
    | data bs =>
      rcases recvLoop_data h hdr rest hr with ⟨hframe, he⟩ | ⟨-, hdr', he⟩
      · rw [he]
        have hf := h.fill hr.2.1
        obtain ⟨h6, hlen⟩ := hf.holdsFrame_iff.1 hframe
        refine ⟨by simp [Guarded], by simp, ?_, by simp [Fails], ?_⟩
        · rintro _ ⟨⟩
          exact ⟨h6, hf.used_le⟩
        · rintro _ ⟨⟩ -
          exact ⟨rfl, rfl, rfl, hlen, hf.used_le⟩
      · rw [he]
        exact (ih (h.fill hr.2.1) hdr' ⟨by simp [Guarded], by simp [Fails], by simp, by simp, by simp⟩).cons bs

/-- What one round does is right exactly if no `recv` of it fails; whatever it
did, the next one finds the buffer ready. -/
theorem recvRound_spec (h : Ready sb) (hdr : PduHeader) (results : List RecvResult) :
    ((∀ ev ∈ (recvRound hdr sb results).1, Guarded ev) ↔ ∀ ev ∈ (recvRound hdr sb results).1, ¬ Fails ev) ∧
      ∀ x ∈ (recvRound hdr sb results).2, Ready x.1 := by
  by_cases hfull : sb.getRemainingRecvSize = 0
  · rw [recvRound_full hfull]
    exact ⟨by simp, by rintro _ ⟨⟩; exact h⟩
  have hspec := recvLoop_spec h hdr results
  rcases he : recvLoop sb hdr results with ⟨trace, _ | e⟩ <;> rw [he] at hspec
  · rw [recvRound_waits hfull he]
    exact ⟨iff_of_true hspec.recvs (hspec.waits rfl), by simp⟩
  · have hinv := hspec.inv e rfl
    obtain ⟨sb', hs, hready, -⟩ := Ready.sweep (hinv.consume_inv e.hdr.pduLen.toNat)
    rw [recvRound_left hfull he hs]
    refine ⟨?_, by rintro _ ⟨⟩; exact hready⟩
    simp only [List.forall_mem_append, List.mem_singleton, forall_eq, not_fails_body, not_false_eq_true, and_true]
    refine Iff.trans ?_ (hspec.getPdu e rfl)
    constructor
    · rintro ⟨-, hok, -⟩
      exact hok
    · intro hok
      refine ⟨hspec.recvs, ?_⟩
      rw [hok]
      exact hspec.guarded e rfl hok

/-- Every event of a run is guarded exactly if no `recv` of it fails. -/
theorem recvRounds_guarded_iff (locals : Nat → PduHeader) (n : Nat) (h : Ready sb) (results : List RecvResult) :
    (∀ ev ∈ recvRounds locals n sb results, Guarded ev) ↔ ∀ ev ∈ recvRounds locals n sb results, ¬ Fails ev := by
  induction n generalizing sb results with
  | zero => simp [recvRounds]
  | succ n ih =>
    obtain ⟨hround, hready⟩ := recvRound_spec h (locals n) results
    rw [recvRounds_succ, List.forall_mem_append, List.forall_mem_append]
    refine and_congr hround ?_
    cases hx : (recvRound (locals n) sb results).2 with
    | none => simp
    | some x => exact ih (hready x hx) x.2

end KSock.RecvPdu
