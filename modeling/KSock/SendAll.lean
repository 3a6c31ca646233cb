import KSock.Lib.Run
import KSock.Lib.Pipe
import KSock.SocketBuffer
/-!
# The sending side: `AddPdu` and `SEND_ALL`

A sender appends frames with `AddPdu` and drains the buffer with `SEND_ALL`,
whose `send` calls may take fewer bytes than offered or fail. We show that the
buffer is a pipe from the accepted frames to the wire: what `send` took,
followed by what is pending, is those frames one after another, at every moment
of every run; and that every `SEND_ALL` ends.
-/
open KSockLib KSockLib.Memory KSockLib.Word

namespace KSock.SendAll

variable {SIZE : ObjectSize}

/-- What `send` returns for `offered` bytes: 0, `SOCKET_ERROR`, or how many it
took, which its `int` can hold. -/
def Allowed (offered : Nat) (r : Int) : Prop :=
  r = 0 ∨ r = SOCKET_ERROR ∨ (1 ≤ r ∧ r ≤ offered ∧ r < 2 ^ 31)

/-- Where a `SEND_ALL` stands: a `send` has not returned yet, or the loop was
left through its condition or one of its two `break`s. -/
inductive Exit where
  | running
  | sendFailed
  | consumeFailed
  | allConsumed
  deriving DecidableEq, Repr

/-- A `SEND_ALL` under way or over: the bytes sent so far on the connection and
what its own `send` calls returned. -/
structure Drain (SIZE : ObjectSize) where
  exit : Exit
  sb : SocketBuffer SIZE
  wire : List UInt8
  results : List Int

/-- The loop of `SEND_ALL` up to its `fuel`-th `send`. The `k`-th `send` returns
`send k n` for `n` bytes offered, and takes the first that many of them. -/
def sendLoop (send : Nat → Nat → Int) : Nat → Nat → SocketBuffer SIZE → List UInt8 → Drain SIZE
  | 0, _, sb, wire => ⟨.running, sb, wire, []⟩
  | fuel + 1, k, sb, wire =>
    let offered := sb.getRemainingSendSize
    let iResult := send k offered
    let wire := wire ++ (read sb.buffer sb.getStart offered).take iResult.toNat
    if iResult = SOCKET_ERROR ∨ iResult = 0 then ⟨.sendFailed, sb, wire, [iResult]⟩ else
    match sb.consume (ofInt 64 iResult) with
    | (false, sb) => ⟨.consumeFailed, sb, wire, [iResult]⟩
    | (true, sb) =>
      if !sb.allConsumed then
        let rest := sendLoop send fuel (k + 1) sb wire
        { rest with results := iResult :: rest.results }
      else ⟨.allConsumed, sb, wire, [iResult]⟩

/-- `SEND_ALL`, up to its `fuel`-th `send`. -/
def sendAll (send : Nat → Nat → Int) (fuel : Nat) (sb : SocketBuffer SIZE) (wire : List UInt8) :
    Option (Drain SIZE) :=
  if sb.getRemainingSendSize > 0 then
    let d := sendLoop send fuel 0 sb wire
    if d.exit = .running then some d
    else d.sb.sweep.map fun sb => { d with sb := sb }
  else some ⟨.allConsumed, sb, wire, []⟩

/-! ## Runs -/

/-- A serializer that writes and returns the size it announces, below 2^32. -/
structure Exact (bs : BaseSerializer) : Prop where
  writes : bs.serialized.length = bs.getSerializedSize.toNat
  returns : bs.serialize = bs.getSerializedSize
  small : bs.getSerializedSize.toNat < 2 ^ 32

/-- The PDU such a serializer stands for. -/
def Exact.pdu {bs : BaseSerializer} (h : Exact bs) : Pdu := ⟨bs.getPduType, bs.serialized, h.writes ▸ h.small⟩

inductive Call where
  | addPdu (bs : BaseSerializer) (exact : Exact bs)
  | sendAll (send : Nat → Nat → Int) (allowed : ∀ k n, 0 < n → Allowed n (send k n)) (fuel : Nat)

/-- The buffer, what `send` has taken so far and the frames of the `AddPdu`
calls that returned true. `midSend` is set while a `send` has not returned. -/
structure Sender (SIZE : ObjectSize) where
  sb : SocketBuffer SIZE
  wire : List UInt8
  accepted : List Pdu
  midSend : Bool

def start (memory : Nat → UInt8) : Sender SIZE := ⟨.new memory, [], [], false⟩

def step (s : Sender SIZE) : Call → Option (Sender SIZE)
  | .addPdu bs h =>
    if s.midSend then none
    else (s.sb.addPdu bs).map fun r =>
      { s with sb := r.2, accepted := if r.1 then s.accepted ++ [h.pdu] else s.accepted }
  | .sendAll send _ fuel =>
    if s.midSend then none
    else (sendAll send fuel s.sb s.wire).map fun d =>
      { s with sb := d.sb, wire := d.wire, midSend := d.exit == .running }

/-! ## The buffer is a pipe -/

/-- The pipe's ends are the wire and the pending bytes. -/
structure Mirrors (p : Pipe UInt8) (sb : SocketBuffer SIZE) (wire : List UInt8) : Prop where
  inv : sb.Inv
  left : p.left = wire
  inside : p.inside = sb.pending

variable {sb : SocketBuffer SIZE} {p : Pipe UInt8} {wire : List UInt8}

/-- An `AddPdu` with such a serializer appends the frame or changes nothing. -/
theorem addPdu_exact (h : sb.Inv) {bs : BaseSerializer} (hb : Exact bs) :
    sb.addPdu bs = some (false, sb) ∨
      ∃ sb', sb.addPdu bs = some (true, sb') ∧ sb'.Inv ∧ sb'.pending = sb.pending ++ frame hb.pdu := by
  have hc := h.consumed_le
  have hlow : bs.getSerializedSize.toUInt32.toNat = bs.serialized.length := by
    rw [hb.writes]
    exact Nat.mod_eq_of_lt hb.small
  have hret : bs.serialize.toNat = bs.serialized.length := by rw [hb.returns, hb.writes]
  rw [SocketBuffer.addPdu_eq h.used_le, hlow, hret]
  by_cases hfit : SIZE.bytes ≤ sb.used + 6 + bs.serialized.length
  · exact .inl (if_pos hfit)
  right
  rw [if_neg hfit, if_neg (by omega)]
  simp only [ne_eq, not_true, if_false]
  refine ⟨_, rfl, ⟨by simp only; omega, by simp only; omega⟩, ?_⟩
  have hw := write_write_append sb.buffer sb.used (headerBytes bs.getPduType bs.serialized.length) bs.serialized
  have hr := read_write_append sb.buffer sb.consumed (sb.used - sb.consumed) (frame hb.pdu)
  rw [length_headerBytes] at hw
  rw [length_frame, show sb.consumed + (sb.used - sb.consumed) = sb.used by omega] at hr
  simp only [SocketBuffer.pending, hw]
  rw [← hr]
  congr 1
  simp only [Exact.pdu]
  omega

/-- A `send` that takes `n` bytes moves them from the buffer to the wire. -/
theorem Mirrors.take (h : Mirrors p sb wire) {n : Nat} (hn : n ≤ sb.used - sb.consumed) :
    Mirrors (p.take n) (⟨sb.buffer, sb.used, sb.consumed + n⟩ : SocketBuffer SIZE) (wire ++ sb.pending.take n) where
  inv := ⟨by have := h.inv.consumed_le; simp only; omega, h.inv.used_le⟩
  left := by rw [Pipe.take_left, h.left, h.inside]
  inside := by
    rw [Pipe.take_inside, h.inside, SocketBuffer.pending, drop_read _ _ hn, SocketBuffer.pending]
    simp only [Nat.sub_sub]

theorem Mirrors.sweep (h : Mirrors p sb wire) :
    ∃ sb', sb.sweep = some sb' ∧ Mirrors p sb' wire := by
  obtain ⟨sb', hs, -, -, hp⟩ := h.inv.sweep_eq
  exact ⟨sb', hs, h.inv.sweep_inv hs, h.left, by rw [hp, h.inside]⟩

/-- What the loop has done after some of its `send` calls: the pipe has only
been read from; the loop cannot have failed to consume; it is over once there
have been as many calls as pending bytes; and it is left with bytes pending
only through a failed `send`. -/
structure Drained (p : Pipe UInt8) (fuel pending : Nat) (d : Drain SIZE) : Prop where
  mirrors : ∃ q : Pipe UInt8, q.entered = p.entered ∧ Mirrors q d.sb d.wire
  consumes : d.exit ≠ .consumeFailed
  ends : pending ≤ fuel → d.exit ≠ .running
  empties : (∀ r ∈ d.results, r ≠ SOCKET_ERROR ∧ r ≠ 0) → d.exit ≠ .running → d.sb.pending = []

theorem sendLoop_drained {send : Nat → Nat → Int} (hsend : ∀ k n, 0 < n → Allowed n (send k n)) (fuel k : Nat)
    (h : Mirrors p sb wire) (hpos : sb.consumed < sb.used) :
    Drained p fuel (sb.used - sb.consumed) (sendLoop send fuel k sb wire) := by
  induction fuel generalizing k p sb wire with
  | zero =>
    exact ⟨⟨p, rfl, h⟩, by simp [sendLoop], fun hle => by omega, fun _ hr => absurd rfl hr⟩
  | succ fuel ih =>
    have hu := h.inv.used_lt
    have hoff : sb.getRemainingSendSize = sb.used - sb.consumed := h.inv.getUsed_eq
    unfold sendLoop
    simp only [hoff]
    have hall := hsend k (sb.used - sb.consumed) (by omega)
    generalize send k (sb.used - sb.consumed) = r at hall ⊢
    by_cases hfail : r = SOCKET_ERROR ∨ r = 0
    · have hz : r.toNat = 0 := by rcases hfail with rfl | rfl <;> rfl
      rw [if_pos hfail, hz, List.take_zero, List.append_nil]
      refine ⟨⟨p, rfl, h⟩, by simp, by simp, ?_⟩
      intro hall _
      have := hall r (by simp)
      exact absurd hfail (by simp [this])
    · rw [if_neg hfail]
      obtain ⟨n, rfl⟩ : ∃ n : Nat, r = n := ⟨r.toNat, by rcases hall with rfl | rfl | h <;> simp_all; omega⟩
      have hn : 1 ≤ n ∧ n ≤ sb.used - sb.consumed := by
        rcases hall with hr | hr | hr
        · exact absurd (.inr hr) hfail
        · exact absurd (.inl hr) hfail
        · omega
      have hm := h.take hn.2
      rw [Int.toNat_natCast, ofInt_natCast (by omega), h.inv.consume_eq (by have := h.inv.consumed_le; omega),
        if_neg (by omega)]
      dsimp only
      by_cases hdone : sb.used = sb.consumed + n
      · rw [if_neg (by simp [SocketBuffer.allConsumed, hdone])]
        refine ⟨⟨p.take n, rfl, hm⟩, by simp, by simp, fun _ _ => ?_⟩
        simp [SocketBuffer.pending, hdone]
      · rw [if_pos (by simp [SocketBuffer.allConsumed, hdone])]
        have hrest := ih (k + 1) hm (by simp only; omega)
        obtain ⟨q, hq, hmq⟩ := hrest.mirrors
        refine ⟨⟨q, hq, hmq⟩, hrest.consumes, fun hle => hrest.ends (by simp only; omega), ?_⟩
        intro hres hrun
        exact hrest.empties (fun r' hr' => hres r' (List.mem_cons_of_mem _ hr')) hrun

/-- The same for the whole macro: it ends at the latest after as many `send`
calls as there were bytes pending. -/
theorem sendAll_drained {send : Nat → Nat → Int} (hsend : ∀ k n, 0 < n → Allowed n (send k n)) (fuel : Nat)
    (h : Mirrors p sb wire) :
    ∃ d, sendAll send fuel sb wire = some d ∧ Drained p fuel sb.pending.length d := by
  have hoff : sb.getRemainingSendSize = sb.used - sb.consumed := h.inv.getUsed_eq
  rw [sendAll, hoff, SocketBuffer.length_pending]
  by_cases hpos : sb.used - sb.consumed > 0
  · rw [if_pos hpos]
    have hd := sendLoop_drained hsend fuel 0 h (by omega)
    by_cases hrun : (sendLoop send fuel 0 sb wire).exit = .running
    · exact ⟨_, if_pos hrun, hd⟩
    · obtain ⟨q, hq, hm⟩ := hd.mirrors
      obtain ⟨sb', hs, hm'⟩ := hm.sweep
      refine ⟨{ sendLoop send fuel 0 sb wire with sb := sb' }, by dsimp only; rw [if_neg hrun, hs]; rfl,
        ⟨q, hq, hm'⟩, hd.consumes, fun _ => hrun, fun hres _ => ?_⟩
      rw [← hm'.inside, hm.inside]
      exact hd.empties hres hrun
  · rw [if_neg hpos]
    have hnil : sb.pending = [] := List.eq_nil_of_length_eq_zero (by rw [SocketBuffer.length_pending]; omega)
    exact ⟨_, rfl, ⟨p, rfl, h⟩, by simp, by simp, fun _ _ => hnil⟩

/-- The sender's buffer is a pipe that was given the accepted frames. -/
def Carries (s : Sender SIZE) : Prop :=
  ∃ p : Pipe UInt8, p.entered = framing.stream s.accepted ∧ Mirrors p s.sb s.wire

theorem start_carries (memory : Nat → UInt8) : Carries (start memory : Sender SIZE) :=
  ⟨.empty, rfl, SocketBuffer.new_inv memory, rfl, rfl⟩

theorem step_carries (s : Sender SIZE) (c : Call) (s' : Sender SIZE) (h : Carries s) (hs : step s c = some s') :
    Carries s' := by
  obtain ⟨p, hp, hm⟩ := h
  cases c with
  | addPdu bs hb =>
    cases hmid : s.midSend with
    | true => simp [step, hmid] at hs
    | false =>
      rcases addPdu_exact hm.inv hb with ha | ⟨sb', ha, hi, hpend⟩
      · simp only [step, hmid, Bool.false_eq_true, if_false, ha, Option.map_some, Option.some.injEq] at hs
        subst hs
        exact ⟨p, hp, hm⟩
      · simp only [step, hmid, Bool.false_eq_true, if_false, ha, Option.map_some, if_true, Option.some.injEq] at hs
        subst hs
        refine ⟨p.put (frame hb.pdu), ?_, hi, hm.left, ?_⟩
        · simp [hp]
        · rw [Pipe.put_inside, hm.inside, hpend]
  | sendAll send hsend fuel =>
    cases hmid : s.midSend with
    | true => simp [step, hmid] at hs
    | false =>
      obtain ⟨d, hd, hdr⟩ := sendAll_drained hsend fuel hm
      simp only [step, hmid, Bool.false_eq_true, if_false, hd, Option.map_some, Option.some.injEq] at hs
      subst hs
      obtain ⟨q, hq, hmq⟩ := hdr.mirrors
      exact ⟨q, hq.trans hp, hmq⟩

/-- In every run the bytes sent followed by the pending ones are the accepted
frames in order; and from every state a run reaches between calls, `SEND_ALL`
ends after at most as many sends as there are bytes pending, and leaves none if
no send of it fails. -/
theorem sends_frames_in_order (SIZE : ObjectSize) (memory : Nat → UInt8) (calls : List Call) (s : Sender SIZE)
    (hs : Run.exec step (start memory) calls = some s) :
    s.wire ++ s.sb.pending = framing.stream s.accepted ∧
      (s.midSend = false → ∀ send : Nat → Nat → Int, (∀ k n, 0 < n → Allowed n (send k n)) →
        ∀ fuel, s.sb.pending.length ≤ fuel → ∃ d, sendAll send fuel s.sb s.wire = some d ∧ d.exit ≠ .running ∧
          ((∀ r ∈ d.results, r ≠ SOCKET_ERROR ∧ r ≠ 0) → d.sb.pending = [])) := by
  obtain ⟨p, hp, hm⟩ := Run.exec_inv step_carries (start_carries memory) hs
  refine ⟨by rw [← hm.left, ← hm.inside, p.law, hp], ?_⟩
  intro _ send hsend fuel hfuel
  obtain ⟨d, hd, hdr⟩ := sendAll_drained hsend fuel hm
  have hends := hdr.ends hfuel
  exact ⟨d, hd, hends, fun hres => hdr.empties hres hends⟩

/-- A PDU of type 7 with a two-byte payload. -/
def twoBytes : BaseSerializer := ⟨7, 2, [0xab, 0xcd], 2⟩

theorem twoBytes_exact : Exact twoBytes := ⟨by decide, rfl, by decide⟩

/-- A `send` that takes one byte and then fails. -/
def sendOnce (k _ : Nat) : Int := if k = 0 then 1 else 0

theorem sendOnce_allowed (k n : Nat) (hn : 0 < n) : Allowed n (sendOnce k n) := by
  unfold sendOnce
  split
  · exact .inr (.inr ⟨by omega, by omega, by omega⟩)
  · exact .inl rfl

/-- A PDU, one byte of it sent before the connection stalls, and the PDU again:
fifteen bytes are pending, and the next `SEND_ALL` drains them one by one. -/
theorem stalled_then_drained :
    ∃ s : Sender ⟨32, by decide⟩, Run.exec step (start fun _ => 0)
        [.addPdu twoBytes twoBytes_exact, .sendAll sendOnce sendOnce_allowed 2, .addPdu twoBytes twoBytes_exact] =
        some s ∧
      s.wire.length = 1 ∧ s.sb.pending.length = 15 ∧ s.wire ++ s.sb.pending = framing.stream s.accepted ∧
      ∃ d, sendAll (fun _ _ => 1) 15 s.sb s.wire = some d ∧ d.exit ≠ .running := by
  let run := Run.exec step (start fun _ => 0 : Sender ⟨32, by decide⟩)
    [.addPdu twoBytes twoBytes_exact, .sendAll sendOnce sendOnce_allowed 2, .addPdu twoBytes twoBytes_exact]
  have hrun : run.map (fun s => (s.wire.length, s.sb.pending.length, s.midSend)) = some (1, 15, false) := by
    decide +kernel
  obtain ⟨s, hs, hshape⟩ := Option.map_eq_some_iff.1 hrun
  simp only [Prod.mk.injEq] at hshape
  obtain ⟨hwire, hpending, hmid⟩ := hshape
  obtain ⟨hstream, hdrain⟩ := sends_frames_in_order ⟨32, by decide⟩ (fun _ => 0) _ s hs
  obtain ⟨d, hd, hends, -⟩ := hdrain hmid (fun _ _ => 1)
    (fun _ n hn => .inr (.inr ⟨by omega, by omega, by omega⟩)) 15 (by omega)
  exact ⟨s, hs, hwire, hpending, hstream, d, hd, hends⟩

end KSock.SendAll
