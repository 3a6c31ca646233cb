import KSock.Lib.Run
import KSock.Protobuf.Server
/-!
# The client of `userspace_client_protobuf.cpp`, and the two together

In each iteration the client sends a `SomethingMore`, waits for the reply, sends
an `EvenMore` and waits again. We run it against the server with messages in
flight between them, the parties moving in any order: every run is in step, none
gets stuck before the last iteration, and the replies that are printed are those
to the requests.

The network is taken to be kind: a `send` takes what it is offered, and a `recv`
returns what one `send` took.
-/
open KSockLib KSockLib.Memory KSockLib.Word KSockLib.Varint KSockLib.Wire

namespace KSock.Protobuf.Conversation

open RecvPdu SendAll Batches Server

/-! ## Requests -/

def moreRequest (id : UInt32) : SomethingMoreSerializer :=
  let sms : SomethingMoreSerializer := {}
  (((sms.setErrorCode 200).setId id).setIpAddress 0xAAAAAAAA).setPortNum 0xBBBBBBBB

/-- `name` and `value` are what lies where the freed blocks were. -/
def evenMoreRequest (name value : List UInt8) : EvenMoreSerializer :=
  let ems := (EvenMoreSerializer.new 254 name value).setS (ascii "This is a zero-terminated String!")
  let ems := ems.addUints (SomethingWithUINTsSerializer.setId {} 0xdeadc0de)
  let ems := ems.addUints (SomethingWithUINTsSerializer.setIpAddress {} 0xdeadbeef)
  ems.addUints (SomethingWithUINTsSerializer.setPortNum {} 0xcafecafe)

/-- The lines that `wprintf` writes for a PDU. -/
inductive Line where
  | ids (id ipAddress portNum : UInt32)
  | evenMore (enumValue : UInt32) (s : Option (List UInt8))
  deriving DecidableEq, Repr

/-- The first switch. -/
def printMore (pduType : UInt16) (pduLen : UInt32) (buf : List UInt8) : Option (List Line) :=
  if pduType ≠ 2 then some [] else
  match SomethingMore.deserialize pduLen.toNat buf with
  | .fault => none
  | .fail => some []
  | .ok sm =>
    match sm.uints with
    | none => some []
    | some swu =>
      if swu.hasId && swu.hasIpAddress && swu.hasPortNum then some [.ids swu.id swu.ipAddress swu.portNum]
      else some []

/-- The second switch. -/
def printEvenMore (pduType : UInt16) (pduLen : UInt32) (buf : List UInt8) : Option (List Line) :=
  if pduType ≠ 3 then some [] else
  match EvenMore.deserialize pduLen.toNat buf with
  | .fault => none
  | .fail => some []
  | .ok em => some [.evenMore em.enumValue em.s]

/-! ## The loop -/

/-- What is left to the environment: where `start_id` starts, the memory that the
buffers of an iteration and the freed blocks are in, and the unassigned locals. -/
structure Setting where
  startId : UInt32
  memory : Nat → Nat → UInt8
  freed : Nat → Fin 8 → UInt8
  locals : Nat → PduHeader

/-- A client that has had this many replies, two in an iteration. It is `awaiting`
between a `SEND_ALL` and the `RECV_PDU_BEGIN` after it. -/
structure Client where
  replies : Nat
  awaiting : Bool
  sbSend : Buffer
  sbRecv : Buffer
  printed : List Line

/-- The PDU that is sent next. -/
def request (c : Setting) (replies : Nat) : UInt16 × ProtobufCMessage :=
  if replies % 2 = 0 then
    let sms := moreRequest (c.startId + UInt32.ofNat (replies / 2))
    (sms.getPduType, sms.message)
  else
    let freed := List.ofFn (c.freed (replies / 2))
    let ems := evenMoreRequest (freed.take 4) (freed.drop 4)
    (ems.getPduType, ems.message)

/-- `AddPdu` and `SEND_ALL`, if the loop is not left after either: what is sent. -/
def send (env : Env) (client : Client) (pdu : UInt16 × ProtobufCMessage) : Option (Client × List UInt8) := do
  let (ok, sbSend) ← addMessage client.sbSend pdu.1 pdu.2
  if !ok then none
  let d ← sendAll env.send capacity.bytes sbSend []
  if d.exit = .running then none
  let iResult ← d.results.getLast?
  if iResult = SOCKET_ERROR ∨ iResult = 0 then none
  return ({ client with sbSend := d.sb, awaiting := true }, d.wire)

/-- `RECV_PDU_BEGIN`, the switch and `RECV_PDU_END`. -/
def receive (locals : PduHeader) (client : Client) (results : List RecvResult) : Option (Client × List RecvResult) := do
  let next := { client with replies := client.replies + 1, awaiting := false }
  if client.sbRecv.getRemainingRecvSize = 0 then return (next, results)
  let e ← (recvLoop client.sbRecv locals results).2
  let print := if client.replies % 2 = 0 then printMore else printEvenMore
  let lines ← print e.hdr.pduType e.hdr.pduLen (read e.sb.buffer e.sb.getStart e.hdr.pduLen.toNat)
  let sbRecv ← (e.sb.consume e.hdr.pduLen.toNat).2.sweep
  return ({ next with sbRecv := sbRecv, printed := client.printed ++ lines }, e.rest)

/-! ## Client and server -/

/-- What is in flight are the results of the `recv` calls to come. -/
structure System where
  client : Client
  server : State
  toServer : List RecvResult
  toClient : List RecvResult

inductive Party where
  | client
  | server
  deriving DecidableEq, Repr

/-- An iteration has buffers of its own. -/
def construct (c : Setting) (client : Client) : Client :=
  if client.replies % 2 = 0 then
    { client with sbSend := .new (c.memory client.replies), sbRecv := .new (c.memory client.replies) }
  else client

/-- One step of a party, if it is not over and nothing it waits for is missing.
The loop of the client makes `n` iterations. -/
def step (c : Setting) (n : Nat) (s : System) : Party → Option System
  | .client => do
    let k := s.client.replies
    if s.client.awaiting then
      let (client, toClient) ← receive (c.locals k) s.client s.toClient
      return { s with client := client, toClient := toClient }
    if k = 2 * n then none
    let (client, bytes) ← send (sendsAll (c.locals k)) (construct c s.client) (request c k)
    return { s with client := client, toServer := s.toServer ++ [.data bytes] }
  | .server => do
    let p := round (sendsAll (c.locals s.client.replies)) capacity.bytes { s.server with wire := [] } s.toServer
    if p.exit ≠ .again then none
    return { s with server := p.state, toServer := p.rest, toClient := s.toClient ++ [.data p.state.wire] }

def start (c : Setting) : System :=
  ⟨⟨0, false, .new (c.memory 0), .new (c.memory 0), []⟩, ⟨.new (c.memory 0), .new (c.memory 0), []⟩, [], []⟩

/-! ## The requests are answered -/

def startedId (c : Setting) (k : Nat) : UInt32 := c.startId + UInt32.ofNat (k / 2)

/-- The reply that the request number `k` is to get. -/
def reply (c : Setting) (k : Nat) : Reply := if k % 2 = 0 then .more (some (startedId c k + 1)) else .evenMore

/-- The line that is to be printed for it. -/
def line (c : Setting) (k : Nat) : Line :=
  if k % 2 = 0 then .ids (startedId c k + 1) 0xCCCCCCCC 0xDDDDDDDD
  else .evenMore 254 (some (ascii "Hi userspace!"))

theorem request_even (c : Setting) {k : Nat} (hk : k % 2 = 0) :
    request c k = (2, SomethingMore.message ⟨true, 200, some ⟨true, startedId c k, true, 0xAAAAAAAA, true, 0xBBBBBBBB⟩⟩) := by
  simp [request, hk, startedId, moreRequest, SomethingMoreSerializer.setId,
    SomethingMoreSerializer.setErrorCode, SomethingMoreSerializer.setIpAddress,
    SomethingMoreSerializer.setPortNum, SomethingMoreSerializer.getPduType, SomethingMoreSerializer.message,
    SomethingWithUINTsSerializer.setId, SomethingWithUINTsSerializer.setIpAddress,
    SomethingWithUINTsSerializer.setPortNum]

theorem request_odd (c : Setting) {k : Nat} (hk : k % 2 ≠ 0) :
    ∃ em : EvenMore, request c k = (3, em.message) ∧ em.uints.length = 3 ∧ em.name.length = 4 ∧ em.value.length = 4 ∧
      (em.s.getD []).length = 33 := by
  refine ⟨_, by rw [request, if_neg hk]; rfl, rfl, ?_, ?_, ?_⟩
  · simp [evenMoreRequest, EvenMoreSerializer.addUints, EvenMoreSerializer.setS, EvenMoreSerializer.new]
  · simp [evenMoreRequest, EvenMoreSerializer.addUints, EvenMoreSerializer.setS, EvenMoreSerializer.new]
  · exact (by decide : (ascii "This is a zero-terminated String!").length = 33)

theorem request_sound (c : Setting) (k : Nat) : MessageSound exampleDescriptors (request c k).2 ∧
    (messageBytes exampleDescriptors (request c k).2).length ≤ 200 := by
  by_cases hk : k % 2 = 0
  · rw [request_even c hk]
    exact ⟨SomethingMore.sound _, (SomethingMore.length_le _).trans (by decide)⟩
  · obtain ⟨em, hrequest, huints, hname, hvalue, hs⟩ := request_odd c hk
    rw [hrequest]
    exact ⟨em.sound, em.length_le.trans (by omega)⟩

def requestPdu (c : Setting) (k : Nat) : Pdu :=
  ⟨(request c k).1, messageBytes exampleDescriptors (request c k).2,
    Nat.lt_of_le_of_lt (request_sound c k).2 (by decide)⟩

theorem answer_request (c : Setting) (k : Nat) :
    answer (requestPdu c k).pduType (requestPdu c k).payload = .replies (reply c k) := by
  by_cases hk : k % 2 = 0
  · simp only [requestPdu, request_even c hk, reply, if_pos hk, answer, SomethingMore.decoded_message]
    rfl
  · obtain ⟨em, hrequest, huints, hname, hvalue, hs⟩ := request_odd c hk
    have hlen := em.length_le
    have hroom : (messageBytes exampleDescriptors em.message).length ≤ 2 * maxMembers :=
      Nat.le_trans (m := 200) (by omega) (by decide)
    simp only [requestPdu, hrequest, reply, if_neg hk, answer, em.decoded_message hroom]
    rfl

/-- A reply is printed as its line. -/
theorem print_reply (c : Setting) (k : Nat) {pduLen : UInt32} (hlen : pduLen.toNat = (reply c k).payload.length) :
    (if k % 2 = 0 then printMore else printEvenMore) (reply c k).pduType pduLen (reply c k).payload =
      some [line c k] := by
  by_cases hk : k % 2 = 0
  · have hreply : reply c k = .more (some (startedId c k + 1)) := if_pos hk
    rw [if_pos hk, hreply, Reply.pduType, printMore, if_neg (not_not.2 rfl), hlen, hreply, Reply.payload, Reply.message,
      SomethingMore.deserialize_message, line, if_pos hk]
    rfl
  · have hreply : reply c k = .evenMore := if_neg hk
    have hroom : (messageBytes exampleDescriptors Reply.evenMore.message).length ≤ 2 * maxMembers :=
      Reply.evenMore.length_le.trans (by decide)
    rw [if_neg hk, hreply, Reply.pduType, printEvenMore, if_neg (not_not.2 rfl), hlen, hreply, Reply.payload, Reply.message,
      EvenMore.deserialize_message _ hroom, line, if_neg hk]
    rfl

/-! ## Each step -/

theorem sendsAll_sends (locals : PduHeader) (k n : Nat) (hn : 0 < n) : 0 < (sendsAll locals).send k n := by
  simp only [sendsAll]
  omega

/-- The frame is on its way and the buffer is empty again. -/
theorem send_eq (locals : PduHeader) {client : Client} (h : Empty client.sbSend) (c : Setting) (k : Nat) :
    ∃ sbSend, send (sendsAll locals) client (request c k) =
      some (⟨client.replies, true, sbSend, client.sbRecv, client.printed⟩, frame (requestPdu c k)) ∧ Empty sbSend := by
  obtain ⟨hsound, hlen⟩ := request_sound c k
  have hroom : 6 + (requestPdu c k).payload.length < capacity.bytes :=
    Nat.lt_of_le_of_lt (Nat.add_le_add_left hlen 6) (by decide)
  obtain ⟨sb, hadd, hinv, hpending⟩ := addMessage_fits h (requestPdu c k) hsound rfl hroom
  have hpos : sb.pending ≠ [] := by
    rw [hpending]
    exact framing.pos (requestPdu c k)
  obtain ⟨d, hd, hout, hexit⟩ := sendAll_cases (sendsAll locals) capacity.bytes hinv hpos []
  rcases hexit with ⟨-, hshort⟩ | ⟨hover, iResult, hlast, ⟨hfailed, i, n, hn, hsend⟩ | ⟨hgood, hsent⟩⟩
  · rw [hpending, length_frame] at hshort
    omega
  · have hpositive := sendsAll_sends locals i n hn
    rw [hsend] at hpositive
    rcases hfailed with rfl | rfl <;> cases hpositive
  · have hgood' : ¬(iResult = SOCKET_ERROR ∨ iResult = 0) := by
      rintro (rfl | rfl) <;> cases hgood
    rw [hsent.pending, List.append_nil, List.nil_append, hpending] at hout
    refine ⟨d.sb, ?_, hsent⟩
    have hadd' : addMessage client.sbSend (request c k).1 (request c k).2 = some (true, sb) := hadd
    simp [send, hadd', hd, hover, hlast, hgood', hout]

/-- The line is printed and the buffer is empty again. -/
theorem receive_eq (locals : PduHeader) {client : Client} (h : Empty client.sbRecv) (c : Setting)
    (rest : List RecvResult) :
    ∃ sbRecv, receive locals client (.data (frame (reply c client.replies).pdu) :: rest) =
      some (⟨client.replies + 1, false, client.sbSend, sbRecv, client.printed ++ [line c client.replies]⟩, rest) ∧
      Empty sbRecv := by
  have hfits : (frame (reply c client.replies).pdu).length ≤ capacity.bytes := by
    rw [length_frame]
    exact (Nat.add_le_add_left (Reply.length_le _) 6).trans (by decide)
  obtain ⟨hroom, trace, e, hloop, hrest, hands⟩ := recvLoop_frame h.ready h.used locals hfits rest
  obtain ⟨sbRecv, hsweep, hready, hnil⟩ := hands.finish
  have htype : e.hdr.pduType = (reply c client.replies).pduType := by rw [hands.header]; rfl
  have hpayload : read e.sb.buffer e.sb.getStart e.hdr.pduLen.toNat = (reply c client.replies).payload := hands.payload
  have hprint := print_reply c client.replies hands.pduLen
  refine ⟨sbRecv, ?_, hready.pending_nil.1 hnil, hready.consumed⟩
  rw [receive, if_neg hroom, hloop]
  simp only [htype, hpayload, hprint, hsweep, hrest, Option.bind_eq_bind, Option.bind_some, Option.pure_def]

/-! ## Runs -/

/-- What holds between two steps, after `k` replies. -/
structure Between (c : Setting) (k : Nat) (awaiting : Bool) (client : Client) (server : State) : Prop where
  replies : client.replies = k
  awaiting : client.awaiting = awaiting
  sent : Empty client.sbSend
  received : Empty client.sbRecv
  printed : client.printed = (List.range k).map (line c)
  idle : Idle server
  empty : server.sbRecv.used = 0

/-- The system after so many steps: three for each reply. -/
inductive Turn (c : Setting) : Nat → System → Prop where
  | free {k : Nat} {client : Client} {server : State} (h : Between c k false client server) :
      Turn c (3 * k) ⟨client, server, [], []⟩
  | asked {k : Nat} {client : Client} {server : State} (h : Between c k true client server) :
      Turn c (3 * k + 1) ⟨client, server, [.data (frame (requestPdu c k))], []⟩
  | answered {k : Nat} {client : Client} {server : State} (h : Between c k true client server) :
      Turn c (3 * k + 2) ⟨client, server, [], [.data (frame (reply c k).pdu)]⟩

variable {c : Setting} {n : Nat}

theorem start_turn (c : Setting) : Turn c 0 (start c) :=
  .free (k := 0) ⟨rfl, rfl, ⟨rfl, rfl⟩, ⟨rfl, rfl⟩, rfl, ⟨⟨rfl, rfl⟩, new_ready _⟩, rfl⟩

/-- Nothing is in flight to the server. -/
theorem server_waits {k : Nat} {awaiting : Bool} {client : Client} {server : State}
    (h : Between c k awaiting client server) (toClient : List RecvResult) :
    step c n ⟨client, server, [], toClient⟩ .server = none := by
  have hidle : Idle { server with wire := [] } := ⟨h.idle.sent, h.idle.ready⟩
  simp [step, round_waits (sendsAll (c.locals client.replies)) capacity.bytes hidle h.empty]

/-- A reply is waited for, and none is in flight. -/
theorem client_waits {k : Nat} {client : Client} {server : State} (h : Between c k true client server)
    (toServer : List RecvResult) : step c n ⟨client, server, toServer, []⟩ .client = none := by
  have hroom : client.sbRecv.getRemainingRecvSize ≠ 0 := by
    rw [h.received.ready.remaining, h.received.used]
    decide
  simp [step, h.awaiting, receive, hroom, recvLoop]

theorem client_asks {k : Nat} {client : Client} {server : State} (h : Between c k false client server)
    (hk : k ≠ 2 * n) :
    ∃ client', step c n ⟨client, server, [], []⟩ .client =
        some ⟨client', server, [.data (frame (requestPdu c k))], []⟩ ∧ Between c k true client' server := by
  obtain rfl := h.replies
  have hbuffers : Empty (construct c client).sbSend ∧ Empty (construct c client).sbRecv := by
    unfold construct
    split
    · exact ⟨⟨rfl, rfl⟩, ⟨rfl, rfl⟩⟩
    · exact ⟨h.sent, h.received⟩
  have hkept : (construct c client).replies = client.replies ∧ (construct c client).printed = client.printed := by
    unfold construct
    split <;> exact ⟨rfl, rfl⟩
  obtain ⟨sbSend, hsend, hsent⟩ := send_eq (c.locals client.replies) hbuffers.1 c client.replies
  refine ⟨⟨(construct c client).replies, true, sbSend, (construct c client).sbRecv, (construct c client).printed⟩, ?_,
    hkept.1, rfl, hsent, hbuffers.2, hkept.2.trans h.printed, h.idle, h.empty⟩
  simp [step, h.awaiting, hk, hsend]

theorem client_ends {client : Client} {server : State} (h : Between c (2 * n) false client server) :
    step c n ⟨client, server, [], []⟩ .client = none := by
  simp [step, h.awaiting, h.replies]

theorem server_answers {k : Nat} {client : Client} {server : State} (h : Between c k true client server) :
    ∃ server', step c n ⟨client, server, [.data (frame (requestPdu c k))], []⟩ .server =
        some ⟨client, server', [], [.data (frame (reply c k).pdu)]⟩ ∧ Between c k true client server' := by
  have hidle : Idle { server with wire := [] } := ⟨h.idle.sent, h.idle.ready⟩
  have hfits : (frame (requestPdu c k)).length ≤ capacity.bytes := by
    rw [length_frame]
    exact (Nat.add_le_add_left (request_sound c k).2 6).trans (by decide)
  obtain ⟨s', hround, hidle', hempty, hwire⟩ := round_replies (sendsAll (c.locals client.replies)) (Nat.le_refl _)
    (sendsAll_sends _) hidle h.empty hfits [] (answer_request c k)
  refine ⟨s', ?_, h.replies, h.awaiting, h.sent, h.received, h.printed, hidle', hempty⟩
  simp [step, hround, hwire]

theorem client_reads {k : Nat} {client : Client} {server : State} (h : Between c k true client server) :
    ∃ client', step c n ⟨client, server, [], [.data (frame (reply c k).pdu)]⟩ .client =
        some ⟨client', server, [], []⟩ ∧ Between c (k + 1) false client' server := by
  obtain rfl := h.replies
  obtain ⟨sbRecv, hreceive, hempty⟩ := receive_eq (c.locals client.replies) h.received c []
  refine ⟨⟨client.replies + 1, false, client.sbSend, sbRecv, client.printed ++ [line c client.replies]⟩, ?_, rfl, rfl,
    h.sent, hempty, ?_, h.idle, h.empty⟩
  · simp [step, h.awaiting, hreceive]
  · simp [h.printed, List.range_succ]

/-- One party can move, and the step leads on; after the last reply none can. -/
theorem turn_step {i : Nat} {s : System} (h : Turn c i s) (hi : i ≤ 6 * n) :
    (i = 6 * n ∧ ∀ party, step c n s party = none) ∨
      i < 6 * n ∧ (∃ party, (step c n s party).isSome) ∧ ∀ party s', step c n s party = some s' → Turn c (i + 1) s' := by
  cases h with
  | @free k client server h =>
    by_cases hk : k = 2 * n
    · subst hk
      refine .inl ⟨by omega, fun party => ?_⟩
      cases party with
      | client => exact client_ends h
      | server => exact server_waits h []
    · obtain ⟨client', hstep, hbetween⟩ := client_asks h hk
      refine .inr ⟨by omega, ⟨.client, by rw [hstep]; rfl⟩, fun party s' hs => ?_⟩
      cases party with
      | client =>
        rw [hstep] at hs
        cases hs
        exact .asked hbetween
      | server =>
        rw [server_waits h []] at hs
        cases hs
  | asked h =>
    obtain ⟨server', hstep, hbetween⟩ := server_answers (n := n) h
    refine .inr ⟨by omega, ⟨.server, by rw [hstep]; rfl⟩, fun party s' hs => ?_⟩
    cases party with
    | client =>
      rw [client_waits h _] at hs
      cases hs
    | server =>
      rw [hstep] at hs
      cases hs
      exact .answered hbetween
  | answered h =>
    obtain ⟨client', hstep, hbetween⟩ := client_reads (n := n) h
    refine .inr ⟨by omega, ⟨.client, by rw [hstep]; rfl⟩, fun party s' hs => ?_⟩
    cases party with
    | client =>
      rw [hstep] at hs
      cases hs
      exact .free hbetween
    | server =>
      rw [server_waits h _] at hs
      cases hs

theorem exec_turn {i : Nat} {s t : System} (h : Turn c i s) (hi : i ≤ 6 * n) {parties : List Party}
    (hrun : Run.exec (step c n) s parties = some t) : Turn c (i + parties.length) t ∧ i + parties.length ≤ 6 * n := by
  induction parties generalizing i s with
  | nil =>
    cases hrun
    exact ⟨h, hi⟩
  | cons party parties ih =>
    obtain ⟨s', hs, hrun⟩ := Option.bind_eq_some_iff.1 hrun
    rcases turn_step h hi with ⟨-, hstuck⟩ | ⟨hlt, -, hnext⟩
    · rw [hstuck party] at hs
      cases hs
    · have hrest := ih (hnext party s' hs) hlt hrun
      rwa [List.length_cons, show i + (parties.length + 1) = i + 1 + parties.length by omega]

/-- In every run of client and server each reply is printed before the next
request is sent, with the id that was sent incremented; no run is stuck before
the last iteration, and none goes on after it. -/
theorem conversation (c : Setting) (n : Nat) (parties : List Party) {s : System}
    (hrun : Run.exec (step c n) (start c) parties = some s) :
    parties.length ≤ 6 * n ∧ s.client.printed = (List.range (parties.length / 3)).map (line c) ∧
      (parties.length < 6 * n → ∃ party, (step c n s party).isSome) := by
  obtain ⟨h, hle⟩ := exec_turn (start_turn c) (Nat.zero_le _) hrun
  rw [Nat.zero_add] at h hle
  refine ⟨hle, ?_, fun hlt => ?_⟩
  · generalize parties.length = i at h
    cases h with
    | free h => rw [h.printed, Nat.mul_div_cancel_left _ (by decide)]
    | @asked k _ _ h => rw [h.printed, show (3 * k + 1) / 3 = k by omega]
    | @answered k _ _ h => rw [h.printed, show (3 * k + 2) / 3 = k by omega]
  · rcases turn_step h hle with ⟨hend, -⟩ | ⟨-, hmoves, -⟩
    · omega
    · exact hmoves

def setting : Setting := ⟨0x12345678, fun _ _ => 0xcc, fun _ _ => 0xdd, fun _ => ⟨0, 0⟩⟩

/-- One iteration. -/
theorem conversation_example : ∃ s, Run.exec (step setting 1) (start setting)
      [.client, .server, .client, .client, .server, .client] = some s ∧
    6 ≤ 6 * 1 ∧
    s.client.printed = [.ids 0x12345679 0xCCCCCCCC 0xDDDDDDDD, .evenMore 254 (some (ascii "Hi userspace!"))] ∧
    (6 < 6 * 1 → ∃ party, (step setting 1 s party).isSome) := by
  have hsome : (Run.exec (step setting 1) (start setting)
      [.client, .server, .client, .client, .server, .client]).isSome = true := by decide +kernel
  obtain ⟨s, hs⟩ := Option.isSome_iff_exists.1 hsome
  obtain ⟨hle, hprinted, hmoves⟩ := conversation setting 1 _ hs
  exact ⟨s, hs, hle, hprinted, hmoves⟩

end KSock.Protobuf.Conversation
