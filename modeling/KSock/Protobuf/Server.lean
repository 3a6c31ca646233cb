import KSock.Protobuf.Serializers
/-!
# The server of `driver-protobuf-c-tcp.cpp`

The loop receives a PDU, unpacks it, packs a reply and sends it. We set it
against `answer`, which says what a PDU is answered with and knows of no buffer,
and show that in every run, whatever `recv` brings and `send` takes, the bytes
sent are the frames of the answers to the PDUs that the loop was handed.
-/
open KSockLib KSockLib.Memory KSockLib.Word KSockLib.Varint KSockLib.Wire

namespace KSock.Protobuf.Server

open RecvPdu SendAll Batches

/-- `SocketBuffer<1024>`. -/
def capacity : ObjectSize := ⟨1024, by decide⟩

abbrev Buffer := SocketBuffer capacity

def ascii (s : String) : List UInt8 := s.toList.map fun c => UInt8.ofNat c.toNat

/-! ## The switch -/

/-- `AddPdu` of a serializer with this type and message. `Serialize` is called
when the header has been added. -/
def addMessage (sb : Buffer) (pduType : UInt16) (msg : ProtobufCMessage) : Option (Bool × Buffer) := do
  sb.addPdu (← protobufSerializer pduType msg fun i => sb.buffer (sb.getEnd + 6 + i))

/-- What the cases have in common: `ok` is what `Deserialize` returns, and if
that is true what `AddPdu` returns. -/
def deserialized {α : Type} (out : Outcome α) (sbSend : Buffer) (reply : α → Option (Bool × Buffer)) :
    Option (Bool × Buffer) :=
  match out with
  | .fault => none
  | .fail => some (false, sbSend)
  | .ok a => reply a

/-- `ok` and `sb_send` after the switch; `buf` is what lies at `sb_recv.GetStart()`. -/
def serve (pduType : UInt16) (pduLen : UInt32) (buf : List UInt8) (sbSend : Buffer) : Option (Bool × Buffer) :=
  match pduType.toNat with
  | 1 =>
    deserialized (SomethingWithUINTs.deserialize pduLen.toNat buf) sbSend fun swu =>
      let swus : SomethingWithUINTsSerializer := {}
      let swus := if swu.hasId then swus.setId (swu.id + 1) else swus
      addMessage sbSend swus.getPduType swus.message
  | 2 =>
    deserialized (SomethingMore.deserialize pduLen.toNat buf) sbSend fun sm => do
      let sms : SomethingMoreSerializer := {}
      -- `smd.sm->uints` is followed whether or not it is NULL
      let uints ← sm.uints
      let sms := if uints.hasId then sms.setId (uints.id + 1) else sms
      let sms := ((sms.setErrorCode 200).setIpAddress 0xCCCCCCCC).setPortNum 0xDDDDDDDD
      addMessage sbSend sms.getPduType sms.message
  | 3 =>
    deserialized (EvenMore.deserialize pduLen.toNat buf) sbSend fun _ =>
      let ems : EvenMoreSerializer := {}
      let swus := SomethingWithUINTsSerializer.setId {} 0xDEADDEAD
      let ems := (ems.setS (ascii "Hi userspace!")).addUints swus
      addMessage sbSend ems.getPduType ems.message
  | _ => some (false, sbSend)

/-! ## The loop -/

/-- What is left to the environment in a round: what the two locals hold before
they are assigned to, and what `send` returns. -/
structure Env where
  locals : PduHeader
  send : Nat → Nat → Int
  allowed : ∀ k n, 0 < n → Allowed n (send k n)

structure State where
  sbSend : Buffer
  sbRecv : Buffer
  wire : List UInt8

/-- Where the loop stands: at its end for another round, behind it, in a `recv`
or `send` that has not returned, or nowhere. -/
inductive Exit where
  | again
  | left
  | waits
  | faults
  deriving DecidableEq, Repr

/-- `asked` lists what the switch was given; `rest` are the results still to come. -/
structure Progress where
  exit : Exit
  asked : List (UInt16 × List UInt8)
  state : State
  rest : List RecvResult

def isOverrun : Event capacity → Bool
  | .overrun => true
  | _ => false

/-- The result of the last `recv`. -/
def lastRecv : List (Event capacity) → Int
  | [] => 0
  | [.recv _ (some r)] => r.retval
  | _ :: trace => lastRecv trace

/-- The loop's body and its condition. `fuel` bounds the `send` calls. -/
def round (env : Env) (fuel : Nat) (s : State) (results : List RecvResult) : Progress :=
  -- `RECV_PDU_BEGIN` is left at once, with `ok` still false
  if s.sbRecv.getRemainingRecvSize = 0 then ⟨.left, [], s, results⟩ else
  match recvLoop s.sbRecv env.locals results with
  | (trace, none) => ⟨if trace.any isOverrun then .faults else .waits, [], s, []⟩
  | (trace, some e) =>
    let buf := read e.sb.buffer e.sb.getStart e.hdr.pduLen.toNat
    let asked := [(e.hdr.pduType, buf)]
    match serve e.hdr.pduType e.hdr.pduLen buf s.sbSend with
    | none => ⟨.faults, asked, s, e.rest⟩
    | some (ok, sbSend) =>
      match (e.sb.consume e.hdr.pduLen.toNat).2.sweep with
      | none => ⟨.faults, asked, s, e.rest⟩
      | some sbRecv =>
        if !ok then ⟨.left, asked, ⟨sbSend, sbRecv, s.wire⟩, e.rest⟩ else
        match sendAll env.send fuel sbSend s.wire with
        | none => ⟨.faults, asked, s, e.rest⟩
        | some d =>
          let iResult := (d.results.getLast?).getD (lastRecv trace)
          let exit := if d.exit = .running then .waits
            else if iResult = SOCKET_ERROR ∨ iResult = 0 then .left
            else if iResult > 0 then .again else .left
          ⟨exit, asked, ⟨d.sb, sbRecv, d.wire⟩, e.rest⟩

/-- At most `n` rounds. -/
def rounds (env : Nat → Env) (fuel : Nat) : Nat → State → List RecvResult → Progress
  | 0, s, results => ⟨.again, [], s, results⟩
  | n + 1, s, results =>
    let p := round (env n) fuel s results
    if p.exit = .again then
      let p' := rounds env fuel n p.state p.rest
      { p' with asked := p.asked ++ p'.asked }
    else p

/-! ## What a PDU is answered with -/

/-- The replies there are. An id comes back incremented. -/
inductive Reply where
  | uints (id : Option UInt32)
  | more (id : Option UInt32)
  | evenMore
  deriving DecidableEq, Repr

inductive Answer where
  | crashes
  | refuses
  | replies (r : Reply)
  deriving DecidableEq, Repr

def uintsWithId (id : Option UInt32) : SomethingWithUINTs :=
  { hasId := id.isSome, id := id.getD 0 }

namespace Reply

def pduType : Reply → UInt16
  | uints _ => 1
  | more _ => 2
  | evenMore => 3

def message : Reply → ProtobufCMessage
  | uints id => (uintsWithId id).message
  | more id => SomethingMore.message ⟨true, 200, some { uintsWithId id with
      hasIpAddress := true, ipAddress := 0xCCCCCCCC, hasPortNum := true, portNum := 0xDDDDDDDD }⟩
  | evenMore => EvenMore.message { uints := [uintsWithId (some 0xDEADDEAD)], s := some (ascii "Hi userspace!") }

def payload (r : Reply) : List UInt8 := messageBytes exampleDescriptors r.message

end Reply

/-- The id that a request's structure asks for. -/
def nextId (swu : SomethingWithUINTs) : Option UInt32 := if swu.hasId then some (swu.id + 1) else none

def answer (pduType : UInt16) (payload : List UInt8) : Answer :=
  match pduType.toNat with
  | 1 => match decoded 0 SomethingWithUINTs.ofMessage payload with
    | none => .refuses
    | some swu => .replies (.uints (nextId swu))
  | 2 => match decoded 1 SomethingMore.ofMessage payload with
    | none => .refuses
    | some sm => match sm.uints with
      | none => .crashes
      | some swu => .replies (.more (nextId swu))
  | 3 => match decoded 2 EvenMore.ofMessage payload with
    | none => .refuses
    | some _ => .replies .evenMore
  | _ => .refuses

/-! ## The switch answers -/

theorem Reply.sound (r : Reply) : MessageSound exampleDescriptors r.message := by
  cases r with
  | uints id => exact SomethingWithUINTs.sound _
  | more id => exact SomethingMore.sound _
  | evenMore => exact EvenMore.sound _

theorem Reply.length_le (r : Reply) : r.payload.length ≤ 100 := by
  cases r with
  | uints id => exact (SomethingWithUINTs.length_le _).trans (by decide)
  | more id => exact (SomethingMore.length_le _).trans (by decide)
  | evenMore => exact (EvenMore.length_le _).trans (by decide)

def Reply.pdu (r : Reply) : Pdu := ⟨r.pduType, r.payload, Nat.lt_of_le_of_lt r.length_le (by decide)⟩

/-- A frame that fits is appended. -/
theorem addPdu_fits {SIZE : ObjectSize} {sb : SocketBuffer SIZE} (h : sb.Inv) (m : Pdu)
    (hfits : sb.used + 6 + m.payload.length < SIZE.bytes) :
    ∃ sb', sb.addPdu (serializer m.pduType m.payload) = some (true, sb') ∧ sb'.Inv ∧
      sb'.pending = sb.pending ++ frame m := by
  have hexact := serializer_exact m.pduType m.fits
  have hsize : (serializer m.pduType m.payload).getSerializedSize.toUInt32.toNat = m.payload.length := by
    rw [UInt64.toNat_toUInt32, ← hexact.writes]
    exact Nat.mod_eq_of_lt m.fits
  have hreturns : (serializer m.pduType m.payload).serialize.toNat = m.payload.length := hexact.writes.symm
  have hwrites : (serializer m.pduType m.payload).serialized.length = m.payload.length := rfl
  rcases addPdu_exact h hexact with hcall | hcall
  · rw [SocketBuffer.addPdu_eq h.used_le, hsize, hreturns, hwrites, if_neg (by omega), if_neg (by omega)] at hcall
    simp at hcall
  · exact hcall

/-- A message that fits into an empty buffer is packed into a frame. -/
theorem addMessage_fits {sb : Buffer} (h : Empty sb) (m : Pdu) {msg : ProtobufCMessage}
    (hsound : MessageSound exampleDescriptors msg) (hpayload : m.payload = messageBytes exampleDescriptors msg)
    (hfits : 6 + m.payload.length < capacity.bytes) :
    ∃ sb', addMessage sb m.pduType msg = some (true, sb') ∧ sb'.Inv ∧ sb'.pending = frame m := by
  have hroom : sb.used + 6 + m.payload.length < capacity.bytes := by
    rw [h.used]
    omega
  obtain ⟨sb', hcall, hinv, hpending⟩ := addPdu_fits h.ready.inv m hroom
  refine ⟨sb', ?_, hinv, ?_⟩
  · rw [addMessage, protobufSerializer_eq hsound (hpayload ▸ m.fits), ← hpayload]
    exact hcall
  · rw [hpending, h.pending]
    rfl

theorem addMessage_eq {sb : Buffer} (h : Empty sb) (r : Reply) :
    ∃ sb', addMessage sb r.pduType r.message = some (true, sb') ∧ sb'.Inv ∧ sb'.pending = frame r.pdu :=
  addMessage_fits h r.pdu r.sound rfl (Nat.lt_of_le_of_lt (Nat.add_le_add_left r.length_le 6) (by decide))

theorem deserialized_total {α : Type} (o : Option α) (sbSend : Buffer) (reply : α → Option (Bool × Buffer)) :
    deserialized (Outcome.total o) sbSend reply = o.elim (some (false, sbSend)) reply := by
  cases o <;> rfl

/-- What the switch does with a payload whose length `pdu_len` is. -/
theorem serve_cases {sbSend : Buffer} (h : Empty sbSend) (pduType : UInt16) {pduLen : UInt32} {payload : List UInt8}
    (hlen : payload.length = pduLen.toNat) :
    (answer pduType payload = .crashes ∧ serve pduType pduLen payload sbSend = none) ∨
      (answer pduType payload = .refuses ∧ serve pduType pduLen payload sbSend = some (false, sbSend)) ∨
      ∃ r sb', answer pduType payload = .replies r ∧ serve pduType pduLen payload sbSend = some (true, sb') ∧
        sb'.Inv ∧ sb'.pending = frame r.pdu := by
  have hshort : payload.length < 2 ^ 32 := hlen ▸ pduLen.toNat_lt
  have huints := deserialize_eq 0 SomethingWithUINTs.isSome_ofMessage [] hshort
  have hmore := deserialize_eq 1 SomethingMore.isSome_ofMessage [] hshort
  have hevenMore := deserialize_eq 2 EvenMore.isSome_ofMessage [] hshort
  rw [List.append_nil] at huints hmore hevenMore
  unfold answer serve
  rw [← hlen, SomethingWithUINTs.deserialize, SomethingMore.deserialize, EvenMore.deserialize]
  split
  · rw [huints, deserialized_total]
    cases decoded 0 SomethingWithUINTs.ofMessage payload with
    | none => exact .inr (.inl ⟨rfl, rfl⟩)
    | some swu =>
      obtain ⟨sb', hcall, hsb'⟩ := addMessage_eq h (.uints (nextId swu))
      refine .inr (.inr ⟨.uints (nextId swu), sb', rfl, ?_, hsb'⟩)
      rw [← hcall]
      rcases swu with ⟨_ | _, _⟩ <;> rfl
  · rw [hmore, deserialized_total]
    rcases decoded 1 SomethingMore.ofMessage payload with _ | ⟨hasErrorCode, errorCode, _ | swu⟩
    · exact .inr (.inl ⟨rfl, rfl⟩)
    · exact .inl ⟨rfl, rfl⟩
    · obtain ⟨sb', hcall, hsb'⟩ := addMessage_eq h (.more (nextId swu))
      refine .inr (.inr ⟨.more (nextId swu), sb', rfl, ?_, hsb'⟩)
      rw [← hcall]
      cases hid : swu.hasId <;>
        simp [hid, nextId, uintsWithId, Reply.pduType, Reply.message, SomethingMoreSerializer.setId,
          SomethingMoreSerializer.setErrorCode, SomethingMoreSerializer.setIpAddress,
          SomethingMoreSerializer.setPortNum, SomethingMoreSerializer.getPduType, SomethingMoreSerializer.message,
          SomethingWithUINTsSerializer.setId, SomethingWithUINTsSerializer.setIpAddress,
          SomethingWithUINTsSerializer.setPortNum]
  · rw [hevenMore, deserialized_total]
    cases decoded 2 EvenMore.ofMessage payload with
    | none => exact .inr (.inl ⟨rfl, rfl⟩)
    | some em =>
      obtain ⟨sb', hcall, hsb'⟩ := addMessage_eq h .evenMore
      exact .inr (.inr ⟨.evenMore, sb', rfl, hcall, hsb'⟩)
  · exact .inr (.inl ⟨rfl, rfl⟩)

/-! ## One round -/

/-- A loop that is over: its last `send` failed, or none did. -/
theorem sendLoop_results {SIZE : ObjectSize} {send : Nat → Nat → Int} (hsend : ∀ k n, 0 < n → Allowed n (send k n))
    (fuel k : Nat) {sb : SocketBuffer SIZE} (h : sb.Inv) (hpos : sb.consumed < sb.used) (wire : List UInt8)
    (hover : (sendLoop send fuel k sb wire).exit ≠ .running) :
    ∃ r, (sendLoop send fuel k sb wire).results.getLast? = some r ∧
      (((r = SOCKET_ERROR ∨ r = 0) ∧ ∃ k n, 0 < n ∧ send k n = r) ∨
        0 < r ∧ ∀ r ∈ (sendLoop send fuel k sb wire).results, r ≠ SOCKET_ERROR ∧ r ≠ 0) := by
  induction fuel generalizing k sb wire with
  | zero => exact absurd rfl hover
  | succ fuel ih =>
    have hu := h.used_lt
    have hall := hsend k (sb.used - sb.consumed) (by omega)
    unfold sendLoop at hover ⊢
    simp only [show sb.getRemainingSendSize = sb.used - sb.consumed from h.getUsed_eq] at hover ⊢
    generalize hr : send k (sb.used - sb.consumed) = r at hall hover ⊢
    by_cases hfail : r = SOCKET_ERROR ∨ r = 0
    · rw [if_pos hfail]
      exact ⟨r, rfl, .inl ⟨hfail, k, _, by omega, hr⟩⟩
    have hpositive : 1 ≤ r ∧ r ≤ (sb.used - sb.consumed : Nat) := by
      rcases hall with hr | hr | hr
      · exact absurd (.inr hr) hfail
      · exact absurd (.inl hr) hfail
      · exact ⟨hr.1, hr.2.1⟩
    have hgood : r ≠ SOCKET_ERROR ∧ r ≠ 0 := not_or.1 hfail
    obtain ⟨n, rfl⟩ : ∃ n : Nat, r = n := ⟨r.toNat, by omega⟩
    rw [if_neg hfail, ofInt_natCast (by omega), h.consume_eq (by have := h.consumed_le; omega), if_neg (by omega)]
      at hover ⊢
    dsimp only at hover ⊢
    split at hover
    · rename_i hrest
      rw [if_pos hrest]
      have hinv : (⟨sb.buffer, sb.used, sb.consumed + n⟩ : SocketBuffer SIZE).Inv :=
        ⟨by simp only; omega, h.used_le⟩
      simp only [SocketBuffer.allConsumed, Bool.not_eq_true', beq_eq_false_iff_ne] at hrest
      obtain ⟨r', hlast, hr'⟩ := ih (k + 1) hinv (by simp only; omega) _ hover
      refine ⟨r', ?_, hr'.imp_right fun hrest => ⟨hrest.1, List.forall_mem_cons.2 ⟨hgood, hrest.2⟩⟩⟩
      dsimp only
      rw [List.getLast?_cons, hlast]
      rfl
    · rename_i hdone
      rw [if_neg hdone]
      exact ⟨n, rfl, .inr ⟨by omega, List.forall_mem_singleton.2 hgood⟩⟩

/-- `SEND_ALL` moves bytes to the wire. It ends if there is fuel for each byte,
and if its last `send` has not failed the buffer is empty. -/
theorem sendAll_cases (env : Env) (fuel : Nat) {sb : Buffer} (h : sb.Inv) (hpos : sb.pending ≠ []) (wire : List UInt8) :
    ∃ d, sendAll env.send fuel sb wire = some d ∧ d.wire ++ d.sb.pending = wire ++ sb.pending ∧
      (d.exit = .running ∧ fuel < sb.pending.length ∨ d.exit ≠ .running ∧ ∃ r, d.results.getLast? = some r ∧
        (((r = SOCKET_ERROR ∨ r = 0) ∧ ∃ k n, 0 < n ∧ env.send k n = r) ∨ 0 < r ∧ Empty d.sb)) := by
  let pipe : Pipe UInt8 := ⟨wire ++ sb.pending, wire, sb.pending, rfl⟩
  have hmirrors : Mirrors pipe sb wire := ⟨h, rfl, rfl⟩
  obtain ⟨d, hd, hdrained⟩ := sendAll_drained env.allowed fuel hmirrors
  have hends := hdrained.ends
  obtain ⟨q, hq, hmq⟩ := hdrained.mirrors
  refine ⟨d, hd, ?_, ?_⟩
  · rw [← hmq.left, ← hmq.inside, q.law, hq]
  have hlen : sb.pending.length = sb.used - sb.consumed := SocketBuffer.length_pending sb
  have hposlen : 0 < sb.pending.length := List.length_pos_iff.2 hpos
  have hremaining : sb.getRemainingSendSize > 0 := by
    rw [SocketBuffer.getRemainingSendSize, h.getUsed_eq]
    omega
  rw [sendAll, if_pos hremaining] at hd
  dsimp only at hd
  by_cases hrun : (sendLoop env.send fuel 0 sb wire).exit = .running
  · rw [if_pos hrun] at hd
    cases hd
    exact .inl ⟨hrun, Nat.lt_of_not_le fun hle => hends hle hrun⟩
  rw [if_neg hrun] at hd
  obtain ⟨swept, hswept, rfl⟩ := Option.map_eq_some_iff.1 hd
  obtain ⟨r, hlast, hr⟩ := sendLoop_results env.allowed fuel 0 h (by omega) wire hrun
  refine .inr ⟨hrun, r, hlast, hr.imp_right fun hgood => ⟨hgood.1, ?_⟩⟩
  obtain ⟨_, -, hsent⟩ := (sendLoop_drained env.allowed fuel 0 hmirrors (by omega)).mirrors
  obtain ⟨sb', hs, hconsumed, -, -⟩ := hsent.inv.sweep_eq
  obtain rfl : sb' = swept := Option.some.inj (hs.symm.trans hswept)
  have hempty : sb'.pending = [] := hdrained.empties hgood.2 hrun
  have hused := congrArg List.length hempty
  rw [SocketBuffer.length_pending, hconsumed] at hused
  exact ⟨hused, hconsumed⟩

/-- The loop's end before a round: everything has been sent. -/
structure Idle (s : State) : Prop where
  sent : Empty s.sbSend
  ready : Ready s.sbRecv

/-- What has been sent and what is still to be sent. -/
def State.out (s : State) : List UInt8 := s.wire ++ s.sbSend.pending

/-- A round that is handed nothing, or one PDU that it crashes at, refuses or
answers. If no `send` fails, another one follows the answer. -/
inductive Round (env : Env) (fuel : Nat) (s : State) : Progress → Prop where
  | nothing {exit : Exit} {rest : List RecvResult} (hexit : exit = .waits ∨ exit = .left) :
      Round env fuel s ⟨exit, [], s, rest⟩
  | crash {pduType : UInt16} {payload : List UInt8} {rest : List RecvResult} (h : answer pduType payload = .crashes) :
      Round env fuel s ⟨.faults, [(pduType, payload)], s, rest⟩
  | refusal {pduType : UInt16} {payload : List UInt8} {s' : State} {rest : List RecvResult}
      (h : answer pduType payload = .refuses) (hsend : s'.sbSend = s.sbSend) (hwire : s'.wire = s.wire) :
      Round env fuel s ⟨.left, [(pduType, payload)], s', rest⟩
  | reply {pduType : UInt16} {payload : List UInt8} {r : Reply} {exit : Exit} {s' : State} {rest : List RecvResult}
      (h : answer pduType payload = .replies r) (hout : s'.out = s.out ++ frame r.pdu) (hfaults : exit ≠ .faults)
      (hidle : exit = .again → Idle s')
      (hsends : (∀ k n, 0 < n → 0 < env.send k n) → capacity.bytes ≤ fuel → exit = .again) :
      Round env fuel s ⟨exit, [(pduType, payload)], s', rest⟩

theorem not_overrun {trace : List (Event capacity)} (h : ∀ ev ∈ trace, Guarded ev) : trace.any isOverrun = false := by
  rw [List.any_eq_false]
  intro ev hev
  cases ev with
  | overrun => exact (h _ hev).elim
  | _ => exact Bool.false_ne_true

theorem round_cases (env : Env) (fuel : Nat) {s : State} (h : Idle s) (results : List RecvResult) :
    Round env fuel s (round env fuel s results) := by
  unfold round
  split
  · exact .nothing (.inr rfl)
  have hspec := recvLoop_spec h.ready env.locals results
  rcases hloop : recvLoop s.sbRecv env.locals results with ⟨trace, _ | e⟩ <;> rw [hloop] at hspec
  · dsimp only
    rw [not_overrun hspec.recvs]
    exact .nothing (.inl rfl)
  dsimp only
  obtain ⟨sbRecv, hsweep, hready, -⟩ := Ready.sweep ((hspec.inv e rfl).consume_inv e.hdr.pduLen.toNat)
  rcases serve_cases h.sent e.hdr.pduType (length_read e.sb.buffer e.sb.getStart e.hdr.pduLen.toNat) with
    ⟨hanswer, hserve⟩ | ⟨hanswer, hserve⟩ | ⟨r, sbSend, hanswer, hserve, hinv, hpending⟩
  · rw [hserve]
    exact .crash hanswer
  · rw [hserve]
    dsimp only
    rw [hsweep]
    exact .refusal hanswer rfl rfl
  · rw [hserve]
    dsimp only
    rw [hsweep]
    have hpos : sbSend.pending ≠ [] := by
      rw [hpending]
      exact framing.pos r.pdu
    obtain ⟨d, hd, hout, hexit⟩ := sendAll_cases env fuel hinv hpos s.wire
    dsimp only
    rw [hd]
    have hreply : (⟨d.sb, sbRecv, d.wire⟩ : State).out = s.out ++ frame r.pdu := by
      rw [State.out, State.out, h.sent.pending, hout, hpending, List.append_nil]
    simp only [Bool.not_true, Bool.false_eq_true, if_false]
    refine .reply hanswer hreply ?_ ?_ ?_
    · split_ifs <;> exact Exit.noConfusion
    · intro hagain
      rcases hexit with ⟨hrunning, -⟩ | ⟨-, iResult, hlast, ⟨hfailed, -⟩ | ⟨-, hsent⟩⟩
      · rw [if_pos hrunning] at hagain
        cases hagain
      · rw [hlast, Option.getD_some, if_pos hfailed] at hagain
        split_ifs at hagain
      · exact ⟨hsent, hready⟩
    · intro hsends hfuel
      rcases hexit with ⟨-, hshort⟩ | ⟨hover, iResult, hlast, ⟨hfailed, k, n, hn, hsend⟩ | ⟨hgood, -⟩⟩
      · have hlen := r.length_le
        have hmax : capacity.bytes = 1024 := rfl
        have hframe : (frame r.pdu).length = 6 + r.payload.length := length_frame r.pdu
        rw [hpending, hframe] at hshort
        omega
      · have hpositive := hsends k n hn
        rw [hsend] at hpositive
        rcases hfailed with rfl | rfl <;> cases hpositive
      · rw [if_neg hover, hlast, Option.getD_some, if_neg, if_pos hgood]
        rintro (rfl | rfl) <;> cases hgood

/-! ## Every run -/

/-- How a run ends with the answer to the last PDU it was handed. -/
def Ends (exit : Exit) (last : List Answer) : Prop :=
  last = [] ∧ exit ≠ .faults ∨ last = [.crashes] ∧ exit = .faults ∨ last = [.refuses] ∧ exit = .left

/-- In every run the bytes sent, and those that a `send` has not taken, are the
frames of the answers to what the switch was given; the server crashes and
refuses where it is to, and is idle before every further round. -/
theorem rounds_answer (env : Nat → Env) (fuel n : Nat) {s : State} (h : Idle s) (results : List RecvResult) :
    ∃ (replies : List Reply) (last : List Answer),
      (rounds env fuel n s results).asked.map (fun a => answer a.1 a.2) = replies.map Answer.replies ++ last ∧
      Ends (rounds env fuel n s results).exit last ∧
      (rounds env fuel n s results).state.out = s.out ++ framing.stream (replies.map Reply.pdu) ∧
      ((rounds env fuel n s results).exit = .again → Idle (rounds env fuel n s results).state) := by
  induction n generalizing s results with
  | zero => exact ⟨[], [], rfl, .inl ⟨rfl, Exit.noConfusion⟩, (List.append_nil _).symm, fun _ => h⟩
  | succ n ih =>
    have hround := round_cases (env n) fuel h results
    rw [rounds]
    generalize round (env n) fuel s results = p at hround
    cases hround with
    | @nothing exit rest hexit =>
      have hstop : exit ≠ .again ∧ exit ≠ .faults := by rcases hexit with rfl | rfl <;> decide
      rw [if_neg hstop.1]
      exact ⟨[], [], rfl, .inl ⟨rfl, hstop.2⟩, (List.append_nil _).symm, fun hagain => absurd hagain hstop.1⟩
    | crash hanswer =>
      rw [if_neg Exit.noConfusion]
      exact ⟨[], [.crashes], by simp [hanswer], .inr (.inl ⟨rfl, rfl⟩), by simp, fun hagain => by cases hagain⟩
    | refusal hanswer hsend hwire =>
      rw [if_neg Exit.noConfusion]
      exact ⟨[], [.refuses], by simp [hanswer], .inr (.inr ⟨rfl, rfl⟩), by simp [State.out, hsend, hwire],
        fun hagain => by cases hagain⟩
    | @reply pduType payload r exit s' rest hanswer hout hfaults hidle _ =>
      by_cases hagain : exit = .again
      · rw [if_pos hagain]
        obtain ⟨replies, last, hasked, hends, hrest, hnext⟩ := ih (hidle hagain) rest
        refine ⟨r :: replies, last, ?_, hends, ?_, hnext⟩
        · simp [hanswer, hasked]
        · simp [hrest, hout]
      · rw [if_neg hagain]
        exact ⟨[r], [], by simp [hanswer], .inl ⟨rfl, hfaults⟩, by simp [hout], fun h => absurd h hagain⟩

/-- Everything is sent at once. -/
def sendsAll (locals : PduHeader) : Env where
  locals := locals
  send _ n := (min n (2 ^ 31 - 1) : Nat)
  allowed _ _ _ := .inr (.inr ⟨by omega, by omega, by omega⟩)

def start : State := ⟨.new fun _ => 0, .new fun _ => 0, []⟩

theorem start_idle : Idle start := ⟨⟨rfl, rfl⟩, new_ready _⟩

/-- The connection is closed, and the two locals say what they said before. -/
theorem rounds_answer_example :
    (rounds (fun _ => sendsAll ⟨1, 0⟩) 1024 1 start [.closed]).asked = [(1, [])] ∧
    ∃ (replies : List Reply) (last : List Answer),
      (rounds (fun _ => sendsAll ⟨1, 0⟩) 1024 1 start [.closed]).asked.map (fun a => answer a.1 a.2) =
        replies.map Answer.replies ++ last ∧
      Ends (rounds (fun _ => sendsAll ⟨1, 0⟩) 1024 1 start [.closed]).exit last ∧
      (rounds (fun _ => sendsAll ⟨1, 0⟩) 1024 1 start [.closed]).state.out =
        start.out ++ framing.stream (replies.map Reply.pdu) ∧
      ((rounds (fun _ => sendsAll ⟨1, 0⟩) 1024 1 start [.closed]).exit = .again →
        Idle (rounds (fun _ => sendsAll ⟨1, 0⟩) 1024 1 start [.closed]).state) :=
  ⟨by decide +kernel, rounds_answer (fun _ => sendsAll ⟨1, 0⟩) 1024 1 start_idle [.closed]⟩

/-! ## Frame by frame -/

/-- The replies to a list of PDUs up to the first that gets none, and how the
loop stands then. -/
def session : List Pdu → List Reply × Exit
  | [] => ([], .waits)
  | m :: pdus =>
    match answer m.pduType m.payload with
    | .crashes => ([], .faults)
    | .refuses => ([], .left)
    | .replies r => (r :: (session pdus).1, (session pdus).2)

/-- One `recv` brings a whole frame into an empty buffer. -/
theorem recvLoop_frame {sb : Buffer} (h : Ready sb) (hempty : sb.used = 0) (hdr : PduHeader) {m : Pdu}
    (hfits : (frame m).length ≤ capacity.bytes) (rest : List RecvResult) :
    sb.getRemainingRecvSize ≠ 0 ∧ ∃ trace e, recvLoop sb hdr (.data (frame m) :: rest) = (trace, some e) ∧
      e.rest = rest ∧ Hands m [] e.sb e.hdr := by
  have hmax : capacity.bytes = 1024 := rfl
  have hlen : (frame m).length = 6 + m.payload.length := length_frame m
  have hallowed : (RecvResult.data (frame m)).Allowed (capacity.bytes - sb.used) := ⟨by omega, by omega, by omega⟩
  have hpending := fill_pending hempty (frame m)
  have hholds : HoldsFrame (fill sb (frame m)) := ⟨m, [], by rw [List.append_nil, hpending]⟩
  have hloop := (recvLoop_data h hdr rest hallowed).resolve_right fun hnone => hnone.1 hholds
  refine ⟨?_, _, _, hloop.2, rfl, hands_of_frame (h.fill hallowed.2.1) (by rw [hpending, List.append_nil])⟩
  rw [h.remaining]
  omega

/-- A round that receives one whole frame into an empty buffer is handed it. -/
theorem round_frame (env : Env) (fuel : Nat) {s : State} (h : Idle s) (hempty : s.sbRecv.used = 0) {m : Pdu}
    (hfits : (frame m).length ≤ capacity.bytes) (rest : List RecvResult) :
    (round env fuel s (.data (frame m) :: rest)).asked = [(m.pduType, m.payload)] ∧
      (round env fuel s (.data (frame m) :: rest)).rest = rest ∧
      ((round env fuel s (.data (frame m) :: rest)).exit = .again →
        (round env fuel s (.data (frame m) :: rest)).state.sbRecv.used = 0) := by
  obtain ⟨hroom, trace, e, hloop, hrest, hands⟩ := recvLoop_frame h.ready hempty env.locals hfits rest
  obtain ⟨sbRecv, hsweep, hswept, hnil⟩ := hands.finish
  have htype : e.hdr.pduType = m.pduType := by rw [hands.header]
  rw [round, if_neg hroom, hloop]
  dsimp only
  rw [hands.payload, htype]
  split
  · exact ⟨rfl, hrest, fun hagain => by cases hagain⟩
  · rw [hsweep]
    dsimp only
    split_ifs
    · exact ⟨rfl, hrest, fun hagain => by cases hagain⟩
    · split
      · exact ⟨rfl, hrest, fun hagain => by cases hagain⟩
      · exact ⟨rfl, hrest, fun _ => hswept.pending_nil.1 hnil⟩

theorem round_waits (env : Env) (fuel : Nat) {s : State} (h : Idle s) (hempty : s.sbRecv.used = 0) :
    round env fuel s [] = ⟨.waits, [], s, []⟩ := by
  have hroom : s.sbRecv.getRemainingRecvSize ≠ 0 := by
    rw [h.ready.remaining, hempty]
    decide
  rw [round, if_neg hroom]
  rfl

theorem State.out_of_sent {s : State} (h : Empty s.sbSend) : s.out = s.wire := by
  rw [out, h.pending, List.append_nil]

/-- What a round has done, by the answer to what it was handed. -/
theorem Round.of_asked {env : Env} {fuel : Nat} {s : State} {p : Progress} (h : Round env fuel s p) {pduType : UInt16}
    {payload : List UInt8} (hasked : p.asked = [(pduType, payload)]) :
    (answer pduType payload = .crashes → p.exit = .faults ∧ p.state.wire = s.wire) ∧
      (answer pduType payload = .refuses → p.exit = .left ∧ p.state.wire = s.wire) ∧
      ∀ r, answer pduType payload = .replies r → p.state.out = s.out ++ frame r.pdu ∧
        (p.exit = .again → Idle p.state) ∧
        ((∀ k n, 0 < n → 0 < env.send k n) → capacity.bytes ≤ fuel → p.exit = .again) := by
  cases h with
  | nothing hexit => cases hasked
  | crash hanswer =>
    cases hasked
    simp [hanswer]
  | refusal hanswer hsend hwire =>
    cases hasked
    simp [hanswer, hwire]
  | reply hanswer hout hfaults hidle hsends =>
    cases hasked
    simp only [hanswer, reduceCtorEq, false_implies, true_and, Answer.replies.injEq]
    rintro _ rfl
    exact ⟨hout, hidle, hsends⟩

/-- Where no `send` fails, a frame that is answered is followed by another round. -/
theorem round_replies (env : Env) {fuel : Nat} (hfuel : capacity.bytes ≤ fuel)
    (hsends : ∀ k n, 0 < n → 0 < env.send k n) {s : State} (h : Idle s) (hempty : s.sbRecv.used = 0) {m : Pdu}
    (hfits : (frame m).length ≤ capacity.bytes) (rest : List RecvResult) {r : Reply}
    (hanswer : answer m.pduType m.payload = .replies r) :
    ∃ s', round env fuel s (.data (frame m) :: rest) = ⟨.again, [(m.pduType, m.payload)], s', rest⟩ ∧ Idle s' ∧
      s'.sbRecv.used = 0 ∧ s'.wire = s.wire ++ frame r.pdu := by
  obtain ⟨hasked, hrest, hswept⟩ := round_frame env fuel h hempty hfits rest
  obtain ⟨-, -, hreplies⟩ := (round_cases env fuel h (.data (frame m) :: rest)).of_asked hasked
  obtain ⟨hout, hidle, hagain⟩ := hreplies r hanswer
  generalize round env fuel s _ = p at *
  obtain ⟨exit, asked, s', rest'⟩ := p
  obtain rfl : exit = .again := hagain hsends hfuel
  obtain rfl : asked = _ := hasked
  obtain rfl : rest' = rest := hrest
  have hnext : Idle s' := hidle rfl
  rw [State.out_of_sent hnext.sent, State.out_of_sent h.sent] at hout
  exact ⟨s', rfl, hnext, hswept rfl, hout⟩

/-- Where each frame arrives by itself in a buffer that is empty, and no `send`
fails, the bytes sent are those of `session`, and the loop stands where it says. -/
theorem rounds_session (env : Nat → Env) {fuel : Nat} (hfuel : capacity.bytes ≤ fuel)
    (hsends : ∀ i k n, 0 < n → 0 < (env i).send k n) {s : State} (h : Idle s) (hempty : s.sbRecv.used = 0)
    {pdus : List Pdu} (hfits : ∀ m ∈ pdus, (frame m).length ≤ capacity.bytes) {n : Nat} (hn : pdus.length < n) :
    (rounds env fuel n s (pdus.map fun m => .data (frame m))).exit = (session pdus).2 ∧
      (rounds env fuel n s (pdus.map fun m => .data (frame m))).state.wire =
        s.wire ++ framing.stream ((session pdus).1.map Reply.pdu) := by
  induction n generalizing s pdus with
  | zero => cases hn
  | succ n ih =>
    rw [rounds]
    cases pdus with
    | nil =>
      rw [List.map_nil, round_waits (env n) fuel h hempty, if_neg Exit.noConfusion]
      exact ⟨rfl, (List.append_nil _).symm⟩
    | cons m pdus =>
      rw [List.forall_mem_cons] at hfits
      rw [List.length_cons] at hn
      obtain ⟨hasked, -, -⟩ := round_frame (env n) fuel h hempty hfits.1 (pdus.map fun m => .data (frame m))
      obtain ⟨hcrash, hrefuse, -⟩ := (round_cases (env n) fuel h _).of_asked hasked
      rw [List.map_cons, session]
      cases hanswer : answer m.pduType m.payload with
      | crashes =>
        obtain ⟨hexit, hwire⟩ := hcrash hanswer
        rw [if_neg (by rw [hexit]; exact Exit.noConfusion)]
        exact ⟨hexit, hwire.trans (List.append_nil _).symm⟩
      | refuses =>
        obtain ⟨hexit, hwire⟩ := hrefuse hanswer
        rw [if_neg (by rw [hexit]; exact Exit.noConfusion)]
        exact ⟨hexit, hwire.trans (List.append_nil _).symm⟩
      | replies r =>
        obtain ⟨s', hreplies, hidle, hswept, hwire⟩ := round_replies (env n) hfuel (hsends n) h hempty hfits.1
          (pdus.map fun m => .data (frame m)) hanswer
        obtain ⟨hexit, hwires⟩ := ih hidle hswept hfits.2 (Nat.lt_of_succ_lt_succ hn)
        rw [hreplies, if_pos rfl]
        exact ⟨hexit, by simp [hwires, hwire]⟩

/-- An id, and then a message without `uints`. -/
def crashing : List Pdu := [⟨1, [8, 41], by decide⟩, ⟨2, [], by decide⟩]

theorem rounds_session_example :
    (rounds (fun _ => sendsAll ⟨0, 0⟩) 1024 3 start (crashing.map fun m => .data (frame m))).exit = .faults ∧
      (rounds (fun _ => sendsAll ⟨0, 0⟩) 1024 3 start (crashing.map fun m => .data (frame m))).state.wire =
        [] ++ framing.stream [(Reply.uints (some 42)).pdu] := by
  have hsession : session crashing = ([.uints (some 42)], .faults) := by decide +kernel
  have hsends : ∀ _ k n : Nat, 0 < n → 0 < (sendsAll ⟨0, 0⟩).send k n := fun _ _ n hn => by
    simp only [sendsAll]
    omega
  have hrun := @rounds_session (fun _ => sendsAll ⟨0, 0⟩) 1024 (by decide) hsends start start_idle rfl crashing
    (by decide) 3 (by decide)
  rwa [hsession] at hrun

end KSock.Protobuf.Server
