import KSock.Descriptors
import KSock.Dispatch
import KSock.Lib.Memory
/-!
# Datagrams in both directions

A datagram socket between a program and the network: what arrives waits in a
queue for `WskReceiveFrom`, and what `WskSendTo` is given is transmitted. The
program calls `sendto` and `recvfrom` in any order, with any buffers.

`recvfrom` ends in `WskSendTo`. So it transmits what lies in the caller's buffer
and takes nothing from the queue; runs without it transmit exactly what `sendto`
was given, as long as its length has 32 bits and the provider does not refuse it.
-/
open KSockLib KSockLib.Memory Outcome

namespace KSock.Datagrams

/-- The bytes of a datagram and the address of the other end. -/
structure Datagram where
  bytes : List UInt8
  address : SOCKADDR
  deriving DecidableEq, Repr

/-- The BSD layer, the program's memory (bytes, and the `sockaddr` structures by
address), the datagrams that have arrived and those that were transmitted. -/
structure Link where
  bsd : Bsd
  memory : Nat → UInt8
  sockaddrs : Nat → SOCKADDR
  incoming : List Datagram
  transmitted : List Datagram

namespace Link

/-- The provider completes with the status the environment chooses and the count
of bytes it has moved. Nothing can be received while the queue is empty. -/
def complete (l : Link) (call : WskCall) (c : Completion) : Completion :=
  match call with
  | .WskSendTo Buffer _ _ => { c with io := ⟨c.io.Status, Buffer.Length.toNat⟩ }
  | .WskReceiveFrom Buffer _ _ =>
    match l.incoming with
    | [] => { c with io := ⟨STATUS_UNSUCCESSFUL, 0⟩ }
    | d :: _ => { c with io := ⟨c.io.Status, min d.bytes.length Buffer.Length.toNat⟩ }
  | _ => c

def env (l : Link) (E : Env) : Env :=
  { E with provider := fun log target call => l.complete call (E.provider log target call) }

/-- What a request does to memory and the network: nothing if it fails. -/
def perform (l : Link) (r : Request) : Link :=
  match r.call with
  | .WskSendTo Buffer _ RemoteAddress =>
    if r.ran = some .WskSendTo ∧ ntSuccess r.io.Status = true then
      { l with transmitted := l.transmitted ++
          [⟨read l.memory Buffer.Buffer Buffer.Length.toNat, l.sockaddrs RemoteAddress⟩] }
    else l
  | .WskReceiveFrom Buffer _ RemoteAddress =>
    if r.ran = some .WskReceiveFrom ∧ ntSuccess r.io.Status = true then
      match l.incoming with
      | [] => l
      | d :: rest =>
        { l with
          memory := write l.memory Buffer.Buffer (d.bytes.take Buffer.Length.toNat)
          sockaddrs := Function.update l.sockaddrs RemoteAddress d.address
          incoming := rest }
    else l
  | _ => l

/-- After a call that has led to `b`: its requests have been performed. -/
def after (l : Link) (b : Bsd) : Link :=
  (b.world.log.drop l.bsd.world.log.length).foldl perform { l with bsd := b }

end Link

/-- What happens on a datagram socket: the program's calls, its changes to its
memory, and arrivals. -/
inductive Event where
  | sendto (buf : Nat) (len : UInt64) (flags : Int) (destAddr : Nat)
  | recvfrom (buf : Nat) (len : UInt64) (flags : Int) (srcAddr : Nat)
  | writes (memory : Nat → UInt8) (sockaddrs : Nat → SOCKADDR)
  | arrives (d : Datagram)

/-- What a call returns, and the link after it. -/
def call (E : Env) (fd : Int) (l : Link) : Event → Option (Int × Link)
  | .sendto buf len flags destAddr =>
    (l.bsd.sendto (l.env E) fd buf len flags destAddr).value.map fun r => (r.1, l.after r.2)
  | .recvfrom buf len flags srcAddr =>
    (l.bsd.recvfrom (l.env E) fd buf len flags srcAddr).value.map fun r => (r.1, l.after r.2)
  | .writes memory sockaddrs => some (0, { l with memory := memory, sockaddrs := sockaddrs })
  | .arrives d => some (0, { l with incoming := l.incoming ++ [d] })

def step (E : Env) (fd : Int) (l : Link) (ev : Event) : Option Link := (call E fd l ev).map (·.2)

/-- The datagrams passed to `sendto`. -/
def passed (l : Link) : Event → List Datagram
  | .sendto buf len _ destAddr => [⟨read l.memory buf len.toNat, l.sockaddrs destAddr⟩]
  | _ => []

/-- What a `recvfrom` that made the request `r` is to have done: if `r`
succeeded, the first datagram has moved from the queue to the caller. -/
def Receives (l : Link) (buf : Nat) (len : UInt64) (srcAddr : Nat) (r : Request) (ret : Int) (l' : Link) : Prop :=
  r.call.fn = some .WskReceiveFrom ∧ (ntSuccess r.io.Status = true → ∃ d rest, l.incoming = d :: rest ∧
    l'.incoming = rest ∧ read l'.memory buf (d.bytes.take len.toNat).length = d.bytes.take len.toNat ∧
    l'.sockaddrs srcAddr = d.address ∧ ret = (d.bytes.take len.toNat).length)

/-- An event returns and transmits what is passed to it by a `sendto`, nothing
else; and a `recvfrom` makes one request, which receives. -/
def Sound (E : Env) (fd : Int) (l : Link) (ev : Event) : Prop :=
  ∃ ret l', call E fd l ev = some (ret, l') ∧ l'.transmitted = l.transmitted ++ passed l ev ∧
    match ev with
    | .recvfrom buf len _ srcAddr =>
      ∃ r, l'.bsd.world.log = l.bsd.world.log ++ [r] ∧ Receives l buf len srcAddr r ret l'
    | _ => True

/-- The provider accepts what a `sendto` asks of it. -/
def Accepts (E : Env) (fd : Int) (l : Link) (buf : Nat) (len : UInt64) (flags : Int) (destAddr : Nat) : Prop :=
  ∀ s ∈ l.bsd.socketOf (.sendto fd buf len flags destAddr), ntSuccess (E.provider l.bsd.world.log (s.via .datagram)
    (.WskSendTo ⟨buf, 0, len.toUInt32.toUInt64⟩ (UInt32.ofInt flags) destAddr)).io.Status = true

/-- The event is no `recvfrom`, nor a `sendto` of 2^32 bytes or more or one that
the provider refuses. -/
def Meets (E : Env) (fd : Int) (l : Link) : Event → Prop
  | .sendto buf len flags destAddr => len.toNat < 2 ^ 32 ∧ Accepts E fd l buf len flags destAddr
  | .recvfrom _ _ _ _ => False
  | _ => True

instance (E : Env) (fd : Int) (l : Link) : DecidablePred (Meets E fd l)
  | .sendto _ len _ _ => inferInstanceAs (Decidable (len.toNat < 2 ^ 32 ∧ ∀ s ∈ _, _ = true))
  | .recvfrom _ _ _ _ => isFalse not_false
  | .writes _ _ => isTrue trivial
  | .arrives _ => isTrue trivial

/-! ## One call -/

/-- The descriptor is that of a datagram socket with no request in flight. -/
def IsDatagram (fd : Int) (l : Link) : Prop :=
  ∃ p s id, l.bsd.socketAt fd = some p ∧ l.bsd.world.sockets p = some s ∧ s.WskDispatch = .datagram ∧
    s.AsyncContext.Idle id

variable {E : Env} {fd : Int} {l : Link}

/-- `sendto` makes one request, which transmits as many bytes as the low 32 bits
of the length say, unless the provider refuses it. -/
theorem sendto_transmits (h : IsDatagram fd l) (buf : Nat) (len : UInt64) (flags : Int) (a : Nat) :
    ∃ ret b' r, l.bsd.sendto (l.env E) fd buf len flags a = returns (ret, b') ∧
      b'.world.log = l.bsd.world.log ++ [r] ∧ r.call.fn = some .WskSendTo ∧
      (ntSuccess r.io.Status = true ↔ Accepts E fd l buf len flags a) ∧
      (l.after b').transmitted = l.transmitted ++ (if ntSuccess r.io.Status then
        [⟨read l.memory buf (len.toNat % 2 ^ 32), l.sockaddrs a⟩] else []) ∧
      (l.after b').bsd = b' ∧ IsDatagram fd (l.after b') := by
  obtain ⟨p, s, id, hp, hs, hkind, hidle⟩ := h
  have hfn : s.Supports (Ks.sendRecvUdpFn true) := by
    rw [KSOCKET.Supports, hkind]
    decide
  obtain ⟨io, ctx, w₁, hcall, hserved⟩ :=
    Ks.ksSendRecvUdp_spec (l.env E) hs hidle buf len.toUInt32 (UInt32.ofInt flags) a true hfn
  obtain ⟨ctx₀, -, hlog⟩ := hserved.log
  let call : WskCall := .WskSendTo ⟨buf, 0, len.toUInt32.toUInt64⟩ (UInt32.ofInt flags) a
  let b' : Bsd := { l.bsd with world := w₁.store p { s with AsyncContext := ctx } }
  let r : Request := ⟨⟨call, s.via .datagram, ctx₀⟩, io⟩
  have hlog' : b'.world.log = l.bsd.world.log ++ [r] := hlog
  have hran : r.ran = some .WskSendTo := hserved.ran ctx₀
  have hstatus : io.Status = (E.provider l.bsd.world.log (s.via .datagram) call).io.Status := by
    rw [hserved.provider.1, Ks.serve_status]
    rfl
  have haccepts : ntSuccess io.Status = true ↔ Accepts E fd l buf len flags a := by
    have hsocket : l.bsd.socketOf (.sendto fd buf len flags a) = some s := by
      simp [Bsd.socketOf, BsdCall.sockfd, hp, hs]
    simp [Accepts, hsocket, hstatus, call]
  have hlength : len.toUInt32.toUInt64.toNat = len.toNat % 2 ^ 32 := rfl
  have hafter : l.after b' = { l with
      bsd := b'
      transmitted := l.transmitted ++ (if ntSuccess io.Status then
        [⟨read l.memory buf (len.toNat % 2 ^ 32), l.sockaddrs a⟩] else []) } := by
    rw [Link.after, hlog', List.drop_left, List.foldl_cons, List.foldl_nil]
    unfold Link.perform
    simp only [hran, true_and, r, call, hlength]
    cases ntSuccess io.Status <;> simp
  have hret : l.bsd.sendto (l.env E) fd buf len flags a = returns (l.bsd.ofLength (io.Status,
      if ntSuccess io.Status then UInt32.ofNat io.Information else len.toUInt32,
      w₁.store p { s with AsyncContext := ctx })) := by
    simp only [Bsd.sendto, hp, Ks.ksSendTo, hcall, ofOption_some, returns_bind, pure_eq]
  refine ⟨_, b', r, hret, hlog', rfl, haccepts, by rw [hafter], by rw [hafter], p, { s with AsyncContext := ctx }, id,
    ?_, ?_, hkind, hserved.completed.idle⟩
  · rw [hafter]
    exact hp
  · rw [hafter]
    simp [b', World.store]

/-- `recvfrom` does what `sendto` does. -/
theorem recvfrom_eq_sendto (b : Bsd) (buf : Nat) (len : UInt64) (flags : Int) (a : Nat) :
    b.recvfrom E fd buf len flags a = b.sendto E fd buf len flags a := rfl

/-- From a datagram socket, an event is sound exactly if it is no `recvfrom`, its
length has 32 bits and the provider accepts it. -/
theorem sound_iff_meets (h : IsDatagram fd l) (ev : Event) : Sound E fd l ev ↔ Meets E fd l ev := by
  cases ev with
  | sendto buf len flags a =>
    obtain ⟨ret, b', r, hcall, -, -, haccepts, htransmitted, -⟩ := @sendto_transmits E fd l h buf len flags a
    have hret : call E fd l (.sendto buf len flags a) = some (ret, l.after b') := by rw [call, hcall]; rfl
    constructor
    · rintro ⟨ret', l', hret', htransmitted', -⟩
      obtain ⟨rfl, rfl⟩ := Prod.mk.inj (Option.some.inj (hret.symm.trans hret'))
      rw [htransmitted, List.append_cancel_left_eq, passed] at htransmitted'
      cases hok : ntSuccess r.io.Status with
      | false =>
        -- nothing was transmitted
        rw [hok, if_neg Bool.false_ne_true] at htransmitted'
        cases htransmitted'
      | true =>
        rw [hok, if_pos rfl, List.cons.injEq, Datagram.mk.injEq] at htransmitted'
        have hlen := congrArg List.length htransmitted'.1.1
        rw [length_read, length_read] at hlen
        refine ⟨?_, haccepts.1 hok⟩
        rw [← hlen]
        exact Nat.mod_lt _ (by decide)
    · rintro ⟨hsmall, hok⟩
      refine ⟨ret, l.after b', hret, ?_, trivial⟩
      rw [htransmitted, if_pos (haccepts.2 hok), Nat.mod_eq_of_lt hsmall]
      rfl
  | recvfrom buf len flags a =>
    obtain ⟨ret, b', r, hcall, hlog, hfn, -, -, hbsd, -⟩ := @sendto_transmits E fd l h buf len flags a
    have hret : call E fd l (.recvfrom buf len flags a) = some (ret, l.after b') := by
      rw [call, recvfrom_eq_sendto, hcall]
      rfl
    refine iff_of_false ?_ not_false
    rintro ⟨ret', l', hret', -, r', hlog', hreceives, -⟩
    obtain ⟨rfl, rfl⟩ := Prod.mk.inj (Option.some.inj (hret.symm.trans hret'))
    rw [hbsd, hlog, List.append_cancel_left_eq, List.cons.injEq] at hlog'
    rw [← hlog'.1, hfn] at hreceives
    cases hreceives
  | writes memory sockaddrs => exact iff_of_true ⟨0, _, rfl, (List.append_nil _).symm, trivial⟩ trivial
  | arrives d => exact iff_of_true ⟨0, _, rfl, (List.append_nil _).symm, trivial⟩ trivial

/-- Whatever happens, the socket stays one. -/
theorem step_isDatagram (h : IsDatagram fd l) (ev : Event) {l' : Link} (hs : step E fd l ev = some l') :
    IsDatagram fd l' := by
  cases ev with
  | sendto buf len flags a | recvfrom buf len flags a =>
    obtain ⟨ret, b', r, hcall, -, -, -, -, -, hkept⟩ := @sendto_transmits E fd l h buf len flags a
    have hstep : some (l.after b') = some l' := by
      rw [← hs, step, call]
      first | rw [hcall] | rw [recvfrom_eq_sendto, hcall]
      rfl
    exact Option.some.inj hstep ▸ hkept
  | writes memory sockaddrs =>
    cases hs
    exact h
  | arrives d =>
    cases hs
    exact h

/-- What `socket_datagram` makes is a datagram socket. -/
theorem isDatagram_of_socketDatagram {domain type protocol : Int} {i : Fin SOCKETFD_MAX} {b' : Bsd}
    (hcall : l.bsd.socketDatagram E domain type protocol = some ((i.val : Int), b')) :
    IsDatagram i.val { l with bsd := b' } := by
  obtain ⟨Status, o, w', heq, -, hcases⟩ := Ks.ksCreateSocket_spec E l.bsd.world (UInt32.ofInt domain)
    (UInt16.ofInt type) (UInt32.ofInt protocol) WSK_FLAG_DATAGRAM_SOCKET
  have hinstall : l.bsd.install (Status, o, w') = some ((i.val : Int), b') := by
    rw [← hcall, Bsd.socketDatagram, Ks.ksCreateDatagramSocket, heq]
    rfl
  unfold Bsd.install at hinstall
  rcases hcases with ⟨-, hok, -⟩ | ⟨q, s, id, rfl, hok, hsockets, hkind, hidle, -⟩
  · simp only [hok, Bool.false_eq_true, if_false, Option.some.injEq, Prod.mk.injEq] at hinstall
    omega
  · simp only [hok, if_true, Option.bind_eq_bind, Option.bind_some, Option.pure_def, Option.some.injEq,
      Prod.mk.injEq] at hinstall
    obtain ⟨hi, rfl⟩ := hinstall
    have hslot : Bsd.toSocketfd l.bsd.KsIndex = i := Fin.ext (by omega)
    refine ⟨q, s, id, ?_, by simp [hsockets], hkind, hidle⟩
    simp [Bsd.socketAt, Bsd.History.fromSocketfd_val, hslot]

/-! ## Runs -/

/-- On every datagram socket, whatever the provider does: each event of a run is
sound exactly if none is a `recvfrom` or a `sendto` of 2^32 bytes or more or one
that is refused; and a run of such events transmits the datagrams passed to
`sendto`, in order. -/
theorem transmits_what_is_passed (E : Env) (fd : Int) (start : Link) (h : IsDatagram fd start) (events : List Event) :
    ((∀ x ∈ Run.visits (step E fd) start events, Sound E fd x.1 x.2) ↔
        ∀ x ∈ Run.visits (step E fd) start events, Meets E fd x.1 x.2) ∧
      ∀ l, Run.exec (step E fd) start events = some l → (∀ x ∈ Run.visits (step E fd) start events, Meets E fd x.1 x.2) →
        l.transmitted =
          start.transmitted ++ (Run.visits (step E fd) start events).flatMap fun x => passed x.1 x.2 := by
  constructor
  · exact Run.visits_iff (G := Meets E fd) (fun l ev hl => sound_iff_meets hl ev)
      (fun l ev l' hl _ hs => step_isDatagram hl ev hs) h events
  · intro l hexec hmeets
    refine Run.exec_appends (I := IsDatagram fd) (G := Meets E fd) ?_ h hmeets hexec
    intro l ev l' hl hev hs
    refine ⟨step_isDatagram hl ev hs, ?_⟩
    obtain ⟨ret, l₁, hcall, htransmitted, -⟩ := (sound_iff_meets (E := E) hl ev).2 hev
    obtain rfl : l₁ = l' := by
      rw [step, hcall] at hs
      exact Option.some.inj hs
    exact htransmitted

/-- A link with the datagram socket 0, and memory that holds the addresses of its cells. -/
def fresh (b : Bsd) : Link := ⟨b, fun k => UInt8.ofNat k, fun _ => ⟨AF_INET, 53, 0⟩, [], []⟩

/-- Two datagrams go out, with an arrival between them. -/
theorem two_sent :
    ∃ b l, Bsd.init.socketDatagram .obliging 2 2 17 = some (0, b) ∧
      Run.exec (step .obliging 0) (fresh b) [.sendto 64 3 0 0, .arrives ⟨[9], ⟨2, 7, 1⟩⟩, .sendto 65 2 0 8] = some l ∧
      l.transmitted = [⟨[64, 65, 66], ⟨AF_INET, 53, 0⟩⟩, ⟨[65, 66], ⟨AF_INET, 53, 0⟩⟩] := by
  let events : List Event := [.sendto 64 3 0 0, .arrives ⟨[9], ⟨2, 7, 1⟩⟩, .sendto 65 2 0 8]
  have hrun : (Bsd.init.socketDatagram .obliging 2 2 17).bind (fun r =>
      (Run.exec (step .obliging 0) (fresh r.2) events).map fun _ =>
        (r.1, (Run.visits (step .obliging 0) (fresh r.2) events).flatMap fun x => passed x.1 x.2)) =
      some (0, [⟨[64, 65, 66], ⟨AF_INET, 53, 0⟩⟩, ⟨[65, 66], ⟨AF_INET, 53, 0⟩⟩]) := by decide +kernel
  obtain ⟨⟨ret, b⟩, hsocket, h⟩ := Option.bind_eq_some_iff.1 hrun
  obtain ⟨l, hexec, h⟩ := Option.map_eq_some_iff.1 h
  obtain ⟨rfl, hpassed⟩ := Prod.mk.inj h
  have hdatagram : IsDatagram 0 (fresh b) :=
    @isDatagram_of_socketDatagram .obliging (fresh .init) 2 2 17 ⟨0, by decide⟩ b hsocket
  have hmeets : ∀ x ∈ Run.visits (step .obliging 0) (fresh b) events, Meets .obliging 0 x.1 x.2 := by
    intro x hx
    have hmem := Run.mem_of_visits hx
    simp only [events, List.mem_cons, List.not_mem_nil, or_false] at hmem
    -- this provider refuses nothing
    rcases hmem with he | he | he <;> rw [he]
    · exact ⟨by decide, fun _ _ => rfl⟩
    · trivial
    · exact ⟨by decide, fun _ _ => rfl⟩
  have htransmitted := (transmits_what_is_passed .obliging 0 (fresh b) hdatagram events).2 l hexec hmeets
  rw [hpassed] at htransmitted
  exact ⟨b, l, hsocket, hexec, htransmitted⟩

/-- A datagram has arrived. `recvfrom` with the buffer at 64 sends the eight
bytes that lie there, and the datagram stays where it is. -/
theorem recvfrom_transmits :
    ∃ b l l', Bsd.init.socketDatagram .obliging 2 2 17 = some (0, b) ∧ IsDatagram 0 l ∧
      l = { fresh b with incoming := [⟨[9], ⟨2, 7, 1⟩⟩] } ∧ call .obliging 0 l (.recvfrom 64 8 0 0) = some (8, l') ∧
      l'.transmitted = [⟨[64, 65, 66, 67, 68, 69, 70, 71], ⟨AF_INET, 53, 0⟩⟩] ∧
      l'.incoming = [⟨[9], ⟨2, 7, 1⟩⟩] ∧ ¬Sound .obliging 0 l (.recvfrom 64 8 0 0) := by
  have hrun : (Bsd.init.socketDatagram .obliging 2 2 17).bind (fun r =>
      (call .obliging 0 { fresh r.2 with incoming := [⟨[9], ⟨2, 7, 1⟩⟩] } (.recvfrom 64 8 0 0)).map fun r' =>
        (r.1, r'.1, r'.2.transmitted, r'.2.incoming)) =
      some (0, 8, [⟨[64, 65, 66, 67, 68, 69, 70, 71], ⟨AF_INET, 53, 0⟩⟩], [⟨[9], ⟨2, 7, 1⟩⟩]) := by decide +kernel
  obtain ⟨⟨ret, b⟩, hsocket, h⟩ := Option.bind_eq_some_iff.1 hrun
  obtain ⟨⟨ret', l'⟩, hcall, h⟩ := Option.map_eq_some_iff.1 h
  obtain ⟨rfl, rfl, htransmitted, hincoming⟩ : _ ∧ _ ∧ _ ∧ _ := by simpa only [Prod.mk.injEq] using h
  let l : Link := { fresh b with incoming := [⟨[9], ⟨2, 7, 1⟩⟩] }
  have hdatagram : IsDatagram 0 l := @isDatagram_of_socketDatagram .obliging
    { fresh .init with incoming := [⟨[9], ⟨2, 7, 1⟩⟩] } 2 2 17 ⟨0, by decide⟩ b hsocket
  refine ⟨b, l, l', hsocket, hdatagram, rfl, hcall, htransmitted, hincoming, ?_⟩
  rintro ⟨ret, l₁, hcall', hkept, -⟩
  obtain ⟨-, rfl⟩ := Prod.mk.inj (Option.some.inj (hcall.symm.trans hcall'))
  rw [htransmitted] at hkept
  cases hkept

end KSock.Datagrams
