import KSock.Lib.Run
import KSock.Requests
/-!
# One IRP for all requests of a socket

A socket has one IRP and one event, and every call on it uses them again. We
show that this is sound however the provider times its completions: a function
is called with a clean context, a call returns when its requests are complete,
and what it returns comes from its own last request.

The invariant between calls is `Holds`: the socket's IRP is not in flight. The
event may well be signalled then; the reset that starts each request makes up
for it.
-/
open KSockLib Outcome

namespace KSock.Ks

open AsyncContext

variable {E : Env} {w w' : World} {p id : Nat}

/-- The address is that of a `KSOCKET` whose IRP is `id`, which is idle. -/
structure Holds (w : World) (p id : Nat) : Prop where
  block : p ∈ w.pool.live
  irp : id ∈ w.irps.live
  socket : ∃ s, w.sockets p = some s ∧ s.AsyncContext.Idle id

/-- The calls a program makes on one socket. -/
inductive KsCall where
  | bind (LocalAddress : SOCKADDR)
  | connect (RemoteAddress : SOCKADDR)
  | accept
  | send (Buffer : Nat) (Length Flags : UInt32)
  | recv (Buffer : Nat) (Length Flags : UInt32)
  | sendTo (Buffer : Nat) (Length Flags : UInt32) (RemoteAddress : Nat)
  | recvFrom (Buffer : Nat) (Length Flags : UInt32) (RemoteAddress : Nat)
  | close
  deriving DecidableEq, Repr

/-- The status a call returns and its out-parameters, if it has them. -/
structure KsResult where
  Status : NTSTATUS
  Length : Option UInt32
  NewSocket : Option Nat
  deriving DecidableEq, Repr

/-- The requests a call is made for, in order. -/
def KsCall.calls : KsCall → List WskCall
  | bind a => [.WskBind a]
  | connect a => [.WskBind ⟨AF_INET, 0, INADDR_ANY⟩, .WskConnect a]
  | accept => [.WskAccept]
  | send b n f => [.WskSend ⟨b, 0, n.toUInt64⟩ f]
  | recv b n f => [.WskReceive ⟨b, 0, n.toUInt64⟩ f]
  | sendTo b n f a => [.WskSendTo ⟨b, 0, n.toUInt64⟩ f a]
  | recvFrom b n f a => [.WskReceiveFrom ⟨b, 0, n.toUInt64⟩ f a]
  | close => [.WskCloseSocket]

/-- The functions it names. -/
def KsCall.names (c : KsCall) : List WskFn := c.calls.filterMap WskCall.fn

/-- The table of the socket has all of them. -/
def Supported (p : Nat) (w : World) (c : KsCall) : Prop := ∀ s ∈ w.sockets p, ∀ fn ∈ c.names, s.Supports fn

instance (p : Nat) (w : World) (c : KsCall) : Decidable (Supported p w c) := inferInstanceAs (Decidable (∀ s ∈ _, _))

def ksCall (E : Env) (p : Nat) (w : World) : KsCall → Outcome Stray (KsResult × World)
  | .bind a => do let r ← ksBind E w p a; return (⟨r.1, none, none⟩, r.2)
  | .connect a => do let r ← ksConnect E w p a; return (⟨r.1, none, none⟩, r.2)
  | .accept => do let r ← ksAccept E w p; return (⟨r.1, none, r.2.1⟩, r.2.2)
  | .send b n f => do let r ← ksSend E w p b n f; return (⟨r.1, some r.2.1, none⟩, r.2.2)
  | .recv b n f => do let r ← ksRecv E w p b n f; return (⟨r.1, some r.2.1, none⟩, r.2.2)
  | .sendTo b n f a => do let r ← ksSendTo E w p b n f a; return (⟨r.1, some r.2.1, none⟩, r.2.2)
  | .recvFrom b n f a => do let r ← ksRecvFrom E w p b n f a; return (⟨r.1, some r.2.1, none⟩, r.2.2)
  | .close => do let r ← ksCloseSocket E w p; return (⟨r.1, none, none⟩, r.2)

def step (E : Env) (p : Nat) (w : World) (c : KsCall) : Option World := (ksCall E p w c).value.map (·.2)

/-- `KsSend` and `KsRecv` are one function. -/
theorem ksCall_sendRecv (b : Nat) (n f : UInt32) (Send : Bool) :
    ksCall E p w (if Send then .send b n f else .recv b n f) =
      (ksSendRecv E w p b n f Send >>= fun r => returns (⟨r.1, some r.2.1, none⟩, r.2.2)) := by
  cases Send <;> rfl

/-- So are `KsSendTo` and `KsRecvFrom`. -/
theorem ksCall_sendRecvUdp (b : Nat) (n f : UInt32) (a : Nat) (Send : Bool) :
    ksCall E p w (if Send then .sendTo b n f a else .recvFrom b n f a) =
      (ksSendRecvUdp E w p b n f a Send >>= fun r => returns (⟨r.1, some r.2.1, none⟩, r.2.2)) := by
  cases Send <;> rfl

/-- The requests a call has made: the ones it is made for, but those after one
that has failed. -/
structure Made (c : KsCall) (requests : List Request) (last : Request) : Prop where
  first : (requests ++ [last]).map (·.call) <+: c.calls
  succeeded : ∀ r ∈ requests, ntSuccess r.io.Status = true
  all : ntSuccess last.io.Status = true → (requests ++ [last]).map (·.call) = c.calls

/-- The result is what the request that completed with `io` gives: its status,
on success its count of bytes, or a socket made for the accepted one. Only if the
pool is exhausted, that status is replaced. -/
def Uses (E : Env) (w w' : World) (io : IoStatusBlock) (r : KsResult) : KsCall → Prop
  | .bind _ | .connect _ | .close => r = ⟨io.Status, none, none⟩
  | .send _ n _ | .recv _ n _ | .sendTo _ n _ _ | .recvFrom _ n _ _ =>
    r = ⟨io.Status, some (if ntSuccess io.Status then UInt32.ofNat io.Information else n), none⟩
  | .accept =>
    if ntSuccess io.Status then
      if (w.pool.alloc E.pool).1 = none then r = ⟨STATUS_INSUFFICIENT_RESOURCES, none, none⟩
      else ∃ q s, r = ⟨io.Status, none, some q⟩ ∧ w'.sockets q = some s ∧ s.WskSocket = io.Information
    else r = ⟨io.Status, none, none⟩

/-- A call returns. It has made its requests; what they ran took for its IRP that
of the socket, which was clean, and it is idle again; and the call uses what the
last of them completed with. -/
def Disciplined (E : Env) (p id : Nat) (w : World) (c : KsCall) : Prop :=
  ∃ r w' requests last, ksCall E p w c = returns (r, w') ∧ w'.log = w.log ++ (requests ++ [last]) ∧
    Made c requests last ∧ (∀ q ∈ requests ++ [last], ∃ ctx, q.irp = some ctx ∧ ctx.Clean id) ∧
    Uses E w w' last.io r c ∧ (c ≠ .close → Holds w' p id)

/-! ## The calls -/

/-- After a request on the socket. -/
theorem Holds.store (h : Holds w p id) {s : KSOCKET} {target : Target} {call : WskCall} {io : IoStatusBlock}
    {ctx : AsyncContext} (hserved : Served E w target call id io ctx w') :
    Holds (w'.store p { s with AsyncContext := ctx }) p id where
  block := by rw [World.store, hserved.pool]; exact h.block
  irp := by rw [World.store, hserved.irps]; exact h.irp
  socket := ⟨{ s with AsyncContext := ctx }, by simp [World.store], hserved.completed.idle⟩

/-- The function that was named takes the IRP it was passed. -/
theorem irp_of_ran {a : Ask} (h : a.ran = a.call.fn) : a.irp = some a.context := by
  rw [Ask.irp, h, if_pos rfl]

theorem Served.request {target : Target} {call : WskCall} {io : IoStatusBlock} {ctx : AsyncContext}
    (h : Served E w target call id io ctx w') : ∃ r : Request, r.call = call ∧ r.io = io ∧ w'.log = w.log ++ [r] ∧
      ∃ ctx₀, r.irp = some ctx₀ ∧ ctx₀.Clean id := by
  obtain ⟨ctx₀, hclean, hlog⟩ := h.log
  exact ⟨_, rfl, rfl, hlog, ctx₀, irp_of_ran (h.ran ctx₀), hclean⟩

/-- A call that has made the one request it is made for. -/
theorem Disciplined.single {c : KsCall} {target : Target} {call : WskCall} {io : IoStatusBlock} {ctx : AsyncContext}
    {w₁ : World} {r : KsResult} (hserved : Served E w target call id io ctx w₁)
    (hcall : ksCall E p w c = returns (r, w')) (hlog : w'.log = w₁.log) (hcalls : c.calls = [call])
    (huses : Uses E w w' io r c)
    (hholds : c ≠ .close → Holds w' p id) : Disciplined E p id w c := by
  obtain ⟨last, hcallEq, rfl, hlast, hirp⟩ := hserved.request
  have hmade : Made c [] last :=
    ⟨by simp [hcalls, hcallEq], by simp, fun _ => by simp [hcalls, hcallEq]⟩
  exact ⟨r, w', [], last, hcall, hlog.trans hlast, hmade, by simpa using hirp, huses, hholds⟩

/-- What a call on an opened socket comes to. -/
def Ends (E : Env) (p id : Nat) (w : World) (c : KsCall) : Prop :=
  Disciplined E p id w c ∨ ¬Supported p w c ∧ ∃ x, ksCall E p w c = astray x

/-- It goes astray for want of a function that it names. -/
theorem Ends.astray {c : KsCall} {s : KSOCKET} (hs : w.sockets p = some s) {fn : WskFn} (hmem : fn ∈ c.names)
    (hfn : ¬s.Supports fn) {x : Stray} (hcall : ksCall E p w c = astray x) : Ends E p id w c :=
  .inr ⟨fun hsupported => hfn (hsupported s hs fn hmem), x, hcall⟩

theorem bind_ends (h : Holds w p id) (a : SOCKADDR) : Ends E p id w (.bind a) := by
  obtain ⟨s, hs, hidle⟩ := h.socket
  by_cases hfn : s.Supports .WskBind
  · obtain ⟨io, ctx, w₁, heq, hserved⟩ := ksBind_spec E hs hidle hfn a
    have hcall : ksCall E p w (.bind a) =
        returns (⟨io.Status, none, none⟩, w₁.store p { s with AsyncContext := ctx }) := by
      rw [ksCall, heq]
      rfl
    exact .inl (.single hserved hcall rfl rfl rfl fun _ => h.store hserved)
  · obtain ⟨ctx₀, -, heq⟩ := ksBind_strays E hs hidle hfn a
    exact .astray hs (List.mem_singleton.2 rfl) hfn (by rw [ksCall, heq]; rfl)

theorem connect_ends (h : Holds w p id) (a : SOCKADDR) : Ends E p id w (.connect a) := by
  obtain ⟨s, hs, hidle⟩ := h.socket
  by_cases hfn : s.Supports .WskBind
  swap
  · obtain ⟨ctx₀, -, heq⟩ := ksConnect_strays E hs hidle hfn a
    exact .astray hs (by simp [KsCall.names, KsCall.calls, WskCall.fn]) hfn (by rw [ksCall, heq]; rfl)
  obtain ⟨io, ctx, w₁, hserved, hcases⟩ := ksConnect_spec E hs hidle hfn a
  obtain ⟨first, hfirst, rfl, hlog, hirp⟩ := hserved.request
  rcases hcases with ⟨hok, heq⟩ | ⟨hok, -, io', ctx', w₂, hserved', heq⟩ | ⟨-, hconnect, ctx₀, -, heq⟩
  · -- the bind fails, and nothing more is asked for
    have hmade : Made (.connect a) [] first :=
      ⟨by simp [KsCall.calls, hfirst], by simp, by simp [hok]⟩
    have hcall : ksCall E p w (.connect a) =
        returns (⟨first.io.Status, none, none⟩, w₁.store p { s with AsyncContext := ctx }) := by
      rw [ksCall, heq]
      rfl
    exact .inl ⟨_, _, [], first, hcall, hlog, hmade, by simpa using hirp, rfl, fun _ => h.store hserved⟩
  · -- the second request finds the IRP as the first one has left it, with the event as it may be
    obtain ⟨last, hlast, rfl, hlog', hirp'⟩ := hserved'.request
    have hmade : Made (.connect a) [first] last :=
      ⟨by simp [KsCall.calls, hfirst, hlast], by simp [hok], fun _ => by simp [KsCall.calls, hfirst, hlast]⟩
    have h₁ : Holds w₁ p id := ⟨hserved.pool ▸ h.block, hserved.irps ▸ h.irp, s, hserved.sockets ▸ hs, hidle⟩
    have hcall : ksCall E p w (.connect a) =
        returns (⟨last.io.Status, none, none⟩, w₂.store p { s with AsyncContext := ctx' }) := by
      rw [ksCall, heq]
      rfl
    refine .inl ⟨_, _, [first], last, hcall, ?_, hmade, by simp [hirp, hirp'], rfl, fun _ => h₁.store hserved'⟩
    rw [World.store, hlog', hlog, List.append_assoc]
  · -- the table has `WskBind` and lacks `WskConnect`
    exact .astray hs (by simp [KsCall.names, KsCall.calls, WskCall.fn]) hconnect (by rw [ksCall, heq]; rfl)

theorem sendRecv_ends (h : Holds w p id) (b : Nat) (n f : UInt32) (Send : Bool) :
    Ends E p id w (if Send then .send b n f else .recv b n f) := by
  obtain ⟨s, hs, hidle⟩ := h.socket
  by_cases hfn : s.Supports (sendRecvFn Send)
  · obtain ⟨io, ctx, w₁, heq, hserved⟩ := ksSendRecv_spec E hs hidle b n f Send hfn
    have hcall : ksCall E p w (if Send then .send b n f else .recv b n f) =
        returns (⟨io.Status, some (if ntSuccess io.Status then UInt32.ofNat io.Information else n), none⟩,
          w₁.store p { s with AsyncContext := ctx }) := by
      rw [ksCall_sendRecv, heq]
      rfl
    refine .inl (.single hserved hcall rfl ?_ ?_ fun _ => h.store hserved) <;> cases Send <;> rfl
  · obtain ⟨ctx₀, -, heq⟩ := ksSendRecv_strays E hs hidle b n f Send hfn
    have hcall : ksCall E p w (if Send then .send b n f else .recv b n f) =
        Outcome.astray ⟨w, sendRecvCall b n f Send, s.via .connection, ctx₀⟩ := by
      rw [ksCall_sendRecv, heq]
      rfl
    have hmem : sendRecvFn Send ∈ (if Send then KsCall.send b n f else KsCall.recv b n f).names := by
      cases Send <;> exact List.mem_singleton.2 rfl
    exact .astray hs hmem hfn hcall

theorem sendRecvUdp_ends (h : Holds w p id) (b : Nat) (n f : UInt32) (a : Nat) (Send : Bool) :
    Ends E p id w (if Send then .sendTo b n f a else .recvFrom b n f a) := by
  obtain ⟨s, hs, hidle⟩ := h.socket
  by_cases hfn : s.Supports (sendRecvUdpFn Send)
  · obtain ⟨io, ctx, w₁, heq, hserved⟩ := ksSendRecvUdp_spec E hs hidle b n f a Send hfn
    have hcall : ksCall E p w (if Send then .sendTo b n f a else .recvFrom b n f a) =
        returns (⟨io.Status, some (if ntSuccess io.Status then UInt32.ofNat io.Information else n), none⟩,
          w₁.store p { s with AsyncContext := ctx }) := by
      rw [ksCall_sendRecvUdp, heq]
      rfl
    refine .inl (.single hserved hcall rfl ?_ ?_ fun _ => h.store hserved) <;> cases Send <;> rfl
  · obtain ⟨ctx₀, -, heq⟩ := ksSendRecvUdp_strays E hs hidle b n f a Send hfn
    have hcall : ksCall E p w (if Send then .sendTo b n f a else .recvFrom b n f a) =
        Outcome.astray ⟨w, sendRecvUdpCall b n f a Send, s.via .datagram, ctx₀⟩ := by
      rw [ksCall_sendRecvUdp, heq]
      rfl
    have hmem : sendRecvUdpFn Send ∈ (if Send then KsCall.sendTo b n f a else KsCall.recvFrom b n f a).names := by
      cases Send <;> exact List.mem_singleton.2 rfl
    exact .astray hs hmem hfn hcall

theorem close_ends (h : Holds w p id) : Ends E p id w .close := by
  obtain ⟨s, hs, hidle⟩ := h.socket
  obtain ⟨io, ctx, w₁, hserved, heq⟩ := ksCloseSocket_spec E hs hidle h.irp h.block
  have hcall : ksCall E p w .close = returns (⟨io.Status, none, none⟩, discard w₁ p id) := by
    rw [ksCall, heq]
    rfl
  exact .inl (.single hserved hcall rfl rfl rfl fun hc => absurd rfl hc)

/-- The `KSOCKET` of an accepted socket is not that of the listening one. -/
theorem Holds.adopt (h : Holds w p id) {q WskSocket : Nat} {pool : Heap} (hq : q ∉ w.pool.live)
    (hpool : pool.live = insert q w.pool.live) : Holds (adopt E w pool q WskSocket) p id where
  block := by
    rw [Ks.adopt, hpool]
    exact Finset.mem_insert_of_mem h.block
  irp := allocate_live E.irp w.irps h.irp
  socket := by
    have hne : p ≠ q := by
      rintro rfl
      exact hq h.block
    obtain ⟨s, hs, hidle⟩ := h.socket
    exact ⟨s, by simpa [Ks.adopt, hne] using hs, hidle⟩

theorem accept_ends (h : Holds w p id) : Ends E p id w .accept := by
  obtain ⟨s, hs, hidle⟩ := h.socket
  by_cases hfn : s.Supports .WskAccept
  swap
  · obtain ⟨ctx₀, -, heq⟩ := ksAccept_strays E hs hidle hfn
    exact .astray hs (List.mem_singleton.2 rfl) hfn (by rw [ksCall, heq]; rfl)
  obtain ⟨io, ctx, w₁, hserved, ⟨hok, heq⟩ | ⟨hok, pool, halloc, heq⟩ | ⟨hok, q, pool, halloc, heq⟩⟩ :=
    ksAccept_spec E hs hidle hfn
  all_goals
    have hafter := h.store (s := s) hserved
    left
  · have hcall : ksCall E p w .accept =
        returns (⟨io.Status, none, none⟩, w₁.store p { s with AsyncContext := ctx }) := by
      rw [ksCall, heq]
      rfl
    exact .single hserved hcall rfl rfl (by simp [Uses, hok]) fun _ => hafter
  · -- the pool is exhausted after the request has succeeded
    have hcall : ksCall E p w .accept = returns (⟨STATUS_INSUFFICIENT_RESOURCES, none, none⟩,
        { w₁.store p { s with AsyncContext := ctx } with pool := pool }) := by
      rw [ksCall, heq]
      rfl
    have hholds : Holds { w₁.store p { s with AsyncContext := ctx } with pool := pool } p id :=
      ⟨by rw [Heap.alloc_none halloc]; exact h.block, hafter.irp, hafter.socket⟩
    exact .single hserved hcall rfl rfl (by simp [Uses, hok, halloc]) fun _ => hholds
  · obtain ⟨hq, hpool⟩ := Heap.alloc_some halloc
    rw [← hserved.pool] at hq hpool
    have hcall : ksCall E p w .accept = returns (⟨io.Status, none, some q⟩,
        adopt E (w₁.store p { s with AsyncContext := ctx }) pool q io.Information) := by
      rw [ksCall, heq]
      rfl
    exact .single hserved hcall rfl rfl (by simp [Uses, hok, halloc, adopt]) fun _ => hafter.adopt hq hpool

/-! ## Runs -/

theorem ends (h : Holds w p id) (c : KsCall) : Ends E p id w c := by
  cases c with
  | bind a => exact bind_ends h a
  | connect a => exact connect_ends h a
  | accept => exact accept_ends h
  | send b n f => exact sendRecv_ends h b n f true
  | recv b n f => exact sendRecv_ends h b n f false
  | sendTo b n f a => exact sendRecvUdp_ends h b n f a true
  | recvFrom b n f a => exact sendRecvUdp_ends h b n f a false
  | close => exact close_ends h

end KSock.Ks
