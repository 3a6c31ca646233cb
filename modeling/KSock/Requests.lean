import KSock.Ks
/-!
# What the `Ks` functions do

For each function of `Ks.lean` that calls through a socket's table: on a socket
whose IRP is idle and whose table has the function that is named it returns, and
this is what it has requested, returned and left behind; on any other one it goes
astray there. All of this rests on `request_served` and `request_strays`, the
three steps reset, call and wait.
-/
open KSockLib Outcome

namespace KSock.Ks

open AsyncContext

variable {E : Env} {w w' : World} {p id : Nat} {s : KSOCKET}

/-- A request was made with a clean context and is complete. -/
structure Served (E : Env) (w : World) (target : Target) (call : WskCall) (id : Nat) (io : IoStatusBlock)
    (ctx : AsyncContext) (w' : World) : Prop where
  ran (ctx₀ : AsyncContext) : (⟨call, target, ctx₀⟩ : Ask).ran = call.fn
  log : ∃ ctx₀ : AsyncContext, ctx₀.Clean id ∧ w'.log = w.log ++ [⟨⟨call, target, ctx₀⟩, io⟩]
  completed : ctx.Completed id io
  pool : w'.pool = w.pool
  irps : w'.irps = w.irps
  sockets : w'.sockets = w.sockets
  provider : io = (w.serve E target call (E.provider w.log target call).io).1 ∧
    w'.wskSockets = (w.serve E target call (E.provider w.log target call).io).2.wskSockets ∧
    w'.dispatch = (w.serve E target call (E.provider w.log target call).io).2.dispatch

/-- What a call of the provider leaves alone. -/
theorem serve_frame (E : Env) (w : World) (target : Target) (call : WskCall) (io : IoStatusBlock) :
    (w.serve E target call io).2.pool = w.pool ∧ (w.serve E target call io).2.irps = w.irps ∧
      (w.serve E target call io).2.sockets = w.sockets := by
  unfold World.serve
  split
  · split <;> exact ⟨rfl, rfl, rfl⟩
  · exact ⟨rfl, rfl, rfl⟩

/-- The provider's status is that of the environment. -/
theorem serve_status (E : Env) (w : World) (target : Target) (call : WskCall) (io : IoStatusBlock) :
    (w.serve E target call io).1.Status = io.Status := by
  unfold World.serve
  split
  · split <;> rfl
  · rfl

/-- Call and wait, with a clean context. -/
theorem runs_served (E : Env) (w : World) {ctx : AsyncContext} (hclean : ctx.Clean id) (target : Target)
    (call : WskCall) (hran : ∀ ctx₀, (⟨call, target, ctx₀⟩ : Ask).ran = call.fn) :
    ∃ Status ctx₁ w' ctx₂ io, w.request E ctx target call = some (Status, ctx₁, w') ∧
      ctx₁.kspAsyncContextWaitForCompletion Status = some (io.Status, ctx₂) ∧
      Served E w target call id io ctx₂ w' := by
  let c := E.provider w.log target call
  let r := w.serve E target call c.io
  obtain ⟨Status, ctx₁, ctx₂, hrequest, hwait, hdone⟩ := request_completes hclean ⟨c.timing, r.1⟩
  obtain ⟨hpool, hirps, hsockets⟩ := serve_frame E w target call c.io
  refine ⟨Status, ctx₁, { r.2 with log := w.log ++ [⟨⟨call, target, ctx⟩, r.1⟩] }, ctx₂, r.1, ?_, hwait,
    ⟨hran, ⟨ctx, hclean, rfl⟩, hdone, hpool, hirps, hsockets, rfl, rfl, rfl⟩⟩
  rw [World.request, hrequest]
  rfl

/-- The call for the function is one that `ksocket.c` makes through the view. -/
def Site (view : SocketKind) (call : WskCall) (fn : WskFn) : Prop := (view, fn) ∈ sites ∧ call.fn = some fn

/-- What it runs is what has the function's place in the socket's table: the
function exactly if the table has it. -/
theorem Site.ran {view : SocketKind} {call : WskCall} {fn : WskFn} (h : Site view call fn) (s : KSOCKET)
    (ctx : AsyncContext) :
    (⟨call, s.via view, ctx⟩ : Ask).ran = reached s.WskDispatch view fn ∧
      ((⟨call, s.via view, ctx⟩ : Ask).ran = call.fn ↔ s.Supports fn) := by
  have hran : (⟨call, s.via view, ctx⟩ : Ask).ran = reached s.WskDispatch view fn := by
    simp [Ask.ran, KSOCKET.via, h.2]
  exact ⟨hran, by rw [hran, h.2]; exact reached_iff h.1 s.WskDispatch⟩

/-- Reset, call and wait: the three steps of every request on a socket. -/
theorem request_served (E : Env) (w : World) {view : SocketKind} {call : WskCall} {fn : WskFn}
    (hsite : Site view call fn) (hfn : s.Supports fn) {ctx : AsyncContext} (hidle : ctx.Idle id) :
    ∃ ctx₀ Status ctx₁ w' ctx₂ io, ctx.kspAsyncContextReset = some ctx₀ ∧
      w.invoke E ctx₀ (s.via view) call = returns (Status, ctx₁, w') ∧
      ctx₁.kspAsyncContextWaitForCompletion Status = some (io.Status, ctx₂) ∧
      Served E w (s.via view) call id io ctx₂ w' := by
  obtain ⟨ctx₀, hreset, hclean⟩ := reset_clean hidle
  have hran (ctx₀ : AsyncContext) : (⟨call, s.via view, ctx₀⟩ : Ask).ran = call.fn := (hsite.ran s ctx₀).2.2 hfn
  obtain ⟨Status, ctx₁, w', ctx₂, io, hrequest, hwait, hserved⟩ := runs_served E w hclean _ _ hran
  refine ⟨ctx₀, Status, ctx₁, w', ctx₂, io, hreset, ?_, hwait, hserved⟩
  rw [World.invoke, if_pos (hran ctx₀), hrequest, ofOption_some]

/-- Reset and call, where the socket's table lacks the function. -/
theorem request_strays (E : Env) (w : World) {view : SocketKind} {call : WskCall} {fn : WskFn}
    (hsite : Site view call fn) (hfn : ¬s.Supports fn) {ctx : AsyncContext} (hidle : ctx.Idle id) :
    ∃ ctx₀ : AsyncContext, ctx.kspAsyncContextReset = some ctx₀ ∧ ctx₀.Clean id ∧
      w.invoke E ctx₀ (s.via view) call = astray ⟨w, call, s.via view, ctx₀⟩ := by
  obtain ⟨ctx₀, hreset, hclean⟩ := reset_clean hidle
  refine ⟨ctx₀, hreset, hclean, ?_⟩
  rw [World.invoke, if_neg fun hran => hfn ((hsite.ran s ctx₀).2.1 hran)]

/-! ## Requests on a socket -/

theorem bind_site (a : SOCKADDR) : Site .listen (.WskBind a) .WskBind := ⟨by decide, rfl⟩
theorem connect_bind_site (a : SOCKADDR) : Site .connection (.WskBind a) .WskBind := ⟨by decide, rfl⟩
theorem connect_site (a : SOCKADDR) : Site .connection (.WskConnect a) .WskConnect := ⟨by decide, rfl⟩
theorem accept_site : Site .listen .WskAccept .WskAccept := ⟨by decide, rfl⟩
theorem close_site : Site .connection .WskCloseSocket .WskCloseSocket := ⟨by decide, rfl⟩

theorem ksBind_spec (E : Env) (hs : w.sockets p = some s) (hidle : s.AsyncContext.Idle id)
    (hfn : s.Supports .WskBind) (a : SOCKADDR) :
    ∃ io ctx w₁, ksBind E w p a = returns (io.Status, w₁.store p { s with AsyncContext := ctx }) ∧
      Served E w (s.via .listen) (.WskBind a) id io ctx w₁ := by
  obtain ⟨ctx₀, Status, ctx₁, w₁, ctx₂, io, hreset, hinvoke, hwait, hserved⟩ :=
    request_served E w (bind_site a) hfn hidle
  exact ⟨io, ctx₂, w₁, by simp [ksBind, hs, hreset, hinvoke, hwait], hserved⟩

theorem ksBind_strays (E : Env) (hs : w.sockets p = some s) (hidle : s.AsyncContext.Idle id)
    (hfn : ¬s.Supports .WskBind) (a : SOCKADDR) :
    ∃ ctx₀ : AsyncContext, ctx₀.Clean id ∧ ksBind E w p a = astray ⟨w, .WskBind a, s.via .listen, ctx₀⟩ := by
  obtain ⟨ctx₀, hreset, hclean, hinvoke⟩ := request_strays E w (bind_site a) hfn hidle
  exact ⟨ctx₀, hclean, by simp [ksBind, hs, hreset, hinvoke]⟩

/-- `KsConnect` ends with its first request if that fails. -/
theorem ksConnect_spec (E : Env) (hs : w.sockets p = some s) (hidle : s.AsyncContext.Idle id)
    (hfn : s.Supports .WskBind) (a : SOCKADDR) :
    ∃ io ctx w₁, Served E w (s.via .connection) (.WskBind ⟨AF_INET, 0, INADDR_ANY⟩) id io ctx w₁ ∧
      ((ntSuccess io.Status = false ∧
          ksConnect E w p a = returns (io.Status, w₁.store p { s with AsyncContext := ctx })) ∨
        (ntSuccess io.Status = true ∧ s.Supports .WskConnect ∧ ∃ io' ctx' w₂,
          Served E w₁ (s.via .connection) (.WskConnect a) id io' ctx' w₂ ∧
          ksConnect E w p a = returns (io'.Status, w₂.store p { s with AsyncContext := ctx' })) ∨
        (ntSuccess io.Status = true ∧ ¬s.Supports .WskConnect ∧ ∃ ctx₀ : AsyncContext, ctx₀.Clean id ∧
          ksConnect E w p a = astray ⟨w₁, .WskConnect a, s.via .connection, ctx₀⟩)) := by
  obtain ⟨ctx₀, Status, ctx₁, w₁, ctx₂, io, hreset, hinvoke, hwait, hserved⟩ :=
    request_served E w (connect_bind_site ⟨AF_INET, 0, INADDR_ANY⟩) hfn hidle
  refine ⟨io, ctx₂, w₁, hserved, ?_⟩
  cases hok : ntSuccess io.Status with
  | false => exact .inl ⟨rfl, by simp [ksConnect, hs, hreset, hinvoke, hwait, hok]⟩
  | true =>
    right
    by_cases hconnect : s.Supports .WskConnect
    · obtain ⟨ctx₀', Status', ctx₁', w₂, ctx₂', io', hreset', hinvoke', hwait', hserved'⟩ :=
        request_served E w₁ (connect_site a) hconnect hserved.completed.idle
      refine .inl ⟨rfl, hconnect, io', ctx₂', w₂, hserved', ?_⟩
      simp [ksConnect, hs, hreset, hinvoke, hwait, hok, hreset', hinvoke', hwait']
    · obtain ⟨ctx₀', hreset', hclean', hinvoke'⟩ :=
        request_strays E w₁ (connect_site a) hconnect hserved.completed.idle
      refine .inr ⟨rfl, hconnect, ctx₀', hclean', ?_⟩
      simp [ksConnect, hs, hreset, hinvoke, hwait, hok, hreset', hinvoke']

theorem ksConnect_strays (E : Env) (hs : w.sockets p = some s) (hidle : s.AsyncContext.Idle id)
    (hfn : ¬s.Supports .WskBind) (a : SOCKADDR) :
    ∃ ctx₀ : AsyncContext, ctx₀.Clean id ∧
      ksConnect E w p a = astray ⟨w, .WskBind ⟨AF_INET, 0, INADDR_ANY⟩, s.via .connection, ctx₀⟩ := by
  obtain ⟨ctx₀, hreset, hclean, hinvoke⟩ :=
    request_strays E w (connect_bind_site ⟨AF_INET, 0, INADDR_ANY⟩) hfn hidle
  exact ⟨ctx₀, hclean, by simp [ksConnect, hs, hreset, hinvoke]⟩

/-- The count of bytes comes from the request that has completed. -/
theorem transferred_eq {ctx : AsyncContext} {io : IoStatusBlock} (h : ctx.Completed id io) (n : UInt32) :
    transferred io.Status ctx n = some (if ntSuccess io.Status then UInt32.ofNat io.Information else n) := by
  obtain ⟨irp, hirp, -, -, hio⟩ := h
  by_cases hok : ntSuccess io.Status = true <;> simp [transferred, hok, hirp, hio]

/-- The request of `KsSendRecv`. -/
def sendRecvCall (Buffer : Nat) (Length Flags : UInt32) (Send : Bool) : WskCall :=
  if Send then .WskSend ⟨Buffer, 0, Length.toUInt64⟩ Flags else .WskReceive ⟨Buffer, 0, Length.toUInt64⟩ Flags

def sendRecvFn (Send : Bool) : WskFn := if Send then .WskSend else .WskReceive

theorem sendRecv_site (b : Nat) (n f : UInt32) (Send : Bool) :
    Site .connection (sendRecvCall b n f Send) (sendRecvFn Send) := by
  cases Send <;> exact ⟨by decide, rfl⟩

theorem ksSendRecv_spec (E : Env) (hs : w.sockets p = some s) (hidle : s.AsyncContext.Idle id) (b : Nat)
    (n f : UInt32) (Send : Bool) (hfn : s.Supports (sendRecvFn Send)) :
    ∃ io ctx w₁, ksSendRecv E w p b n f Send =
        returns (io.Status, if ntSuccess io.Status then UInt32.ofNat io.Information else n,
          w₁.store p { s with AsyncContext := ctx }) ∧
      Served E w (s.via .connection) (sendRecvCall b n f Send) id io ctx w₁ := by
  obtain ⟨ctx₀, Status, ctx₁, w₁, ctx₂, io, hreset, hinvoke, hwait, hserved⟩ :=
    request_served E w (sendRecv_site b n f Send) hfn hidle
  rw [sendRecvCall] at hinvoke
  refine ⟨io, ctx₂, w₁, ?_, hserved⟩
  simp [ksSendRecv, hs, hreset, hinvoke, hwait, transferred_eq hserved.completed]

theorem ksSendRecv_strays (E : Env) (hs : w.sockets p = some s) (hidle : s.AsyncContext.Idle id) (b : Nat)
    (n f : UInt32) (Send : Bool) (hfn : ¬s.Supports (sendRecvFn Send)) :
    ∃ ctx₀ : AsyncContext, ctx₀.Clean id ∧
      ksSendRecv E w p b n f Send = astray ⟨w, sendRecvCall b n f Send, s.via .connection, ctx₀⟩ := by
  obtain ⟨ctx₀, hreset, hclean, hinvoke⟩ := request_strays E w (sendRecv_site b n f Send) hfn hidle
  rw [sendRecvCall] at hinvoke
  exact ⟨ctx₀, hclean, by simp [ksSendRecv, sendRecvCall, hs, hreset, hinvoke]⟩

/-- The request of `KsSendRecvUdp`. -/
def sendRecvUdpCall (Buffer : Nat) (Length Flags : UInt32) (RemoteAddress : Nat) (Send : Bool) : WskCall :=
  if Send then .WskSendTo ⟨Buffer, 0, Length.toUInt64⟩ Flags RemoteAddress
  else .WskReceiveFrom ⟨Buffer, 0, Length.toUInt64⟩ Flags RemoteAddress

def sendRecvUdpFn (Send : Bool) : WskFn := if Send then .WskSendTo else .WskReceiveFrom

theorem sendRecvUdp_site (b : Nat) (n f : UInt32) (a : Nat) (Send : Bool) :
    Site .datagram (sendRecvUdpCall b n f a Send) (sendRecvUdpFn Send) := by
  cases Send <;> exact ⟨by decide, rfl⟩

theorem ksSendRecvUdp_spec (E : Env) (hs : w.sockets p = some s) (hidle : s.AsyncContext.Idle id) (b : Nat)
    (n f : UInt32) (a : Nat) (Send : Bool) (hfn : s.Supports (sendRecvUdpFn Send)) :
    ∃ io ctx w₁, ksSendRecvUdp E w p b n f a Send =
        returns (io.Status, if ntSuccess io.Status then UInt32.ofNat io.Information else n,
          w₁.store p { s with AsyncContext := ctx }) ∧
      Served E w (s.via .datagram) (sendRecvUdpCall b n f a Send) id io ctx w₁ := by
  obtain ⟨ctx₀, Status, ctx₁, w₁, ctx₂, io, hreset, hinvoke, hwait, hserved⟩ :=
    request_served E w (sendRecvUdp_site b n f a Send) hfn hidle
  rw [sendRecvUdpCall] at hinvoke
  refine ⟨io, ctx₂, w₁, ?_, hserved⟩
  simp [ksSendRecvUdp, hs, hreset, hinvoke, hwait, transferred_eq hserved.completed]

theorem ksSendRecvUdp_strays (E : Env) (hs : w.sockets p = some s) (hidle : s.AsyncContext.Idle id) (b : Nat)
    (n f : UInt32) (a : Nat) (Send : Bool) (hfn : ¬s.Supports (sendRecvUdpFn Send)) :
    ∃ ctx₀ : AsyncContext, ctx₀.Clean id ∧
      ksSendRecvUdp E w p b n f a Send = astray ⟨w, sendRecvUdpCall b n f a Send, s.via .datagram, ctx₀⟩ := by
  obtain ⟨ctx₀, hreset, hclean, hinvoke⟩ := request_strays E w (sendRecvUdp_site b n f a Send) hfn hidle
  rw [sendRecvUdpCall] at hinvoke
  exact ⟨ctx₀, hclean, by simp [ksSendRecvUdp, sendRecvUdpCall, hs, hreset, hinvoke]⟩

/-- The `KSOCKET` at `p` and its IRP are freed. -/
def discard (w : World) (p id : Nat) : World :=
  { w with
    irps := { w.irps with live := w.irps.live.erase id }
    pool := { w.pool with live := w.pool.live.erase p }
    sockets := Function.update w.sockets p none }

/-- Every table has `WskCloseSocket`. -/
theorem supports_close (s : KSOCKET) : s.Supports .WskCloseSocket := by
  unfold KSOCKET.Supports
  cases s.WskDispatch <;> decide

/-- `KsCloseSocket` frees everything whatever the request's status. -/
theorem ksCloseSocket_spec (E : Env) (hs : w.sockets p = some s) (hidle : s.AsyncContext.Idle id)
    (hid : id ∈ w.irps.live) (hp : p ∈ w.pool.live) :
    ∃ io ctx w₁, Served E w (s.via .connection) .WskCloseSocket id io ctx w₁ ∧
      ksCloseSocket E w p = returns (io.Status, discard w₁ p id) := by
  obtain ⟨ctx₀, Status, ctx₁, w₁, ctx₂, io, hreset, hinvoke, hwait, hserved⟩ :=
    request_served E w close_site (supports_close s) hidle
  obtain ⟨irp, hirp, hirpid, hflight, -⟩ := hserved.completed
  rw [← hserved.irps] at hid
  rw [← hserved.pool] at hp
  have hfree : ctx₂.kspAsyncContextFree w₁.irps = some { w₁.irps with live := w₁.irps.live.erase id } := by
    simp [kspAsyncContextFree, hirp, hflight, hirpid, Heap.free_live hid]
  exact ⟨io, ctx₂, w₁, hserved,
    by simp [ksCloseSocket, hs, hreset, hinvoke, hwait, hfree, Heap.free_live hp, discard]⟩

/-! ## New sockets -/

/-- A `KSOCKET` for an accepted socket is set up in the new block `q`, with or
without an IRP. -/
def adopt (E : Env) (w : World) (pool : Heap) (q WskSocket : Nat) : World :=
  let a := kspAsyncContextAllocate E.irp w.irps
  { w with
    pool := pool
    irps := a.2.2
    sockets := Function.update w.sockets q (some ⟨WskSocket, w.dispatch WskSocket, a.2.1⟩) }

/-- `KsAccept` fails with its request or for want of memory, or sets up a new
`KSOCKET`. -/
theorem ksAccept_spec (E : Env) (hs : w.sockets p = some s) (hidle : s.AsyncContext.Idle id)
    (hfn : s.Supports .WskAccept) :
    ∃ io ctx w₁, Served E w (s.via .listen) .WskAccept id io ctx w₁ ∧
      ((ntSuccess io.Status = false ∧
          ksAccept E w p = returns (io.Status, none, w₁.store p { s with AsyncContext := ctx })) ∨
        (ntSuccess io.Status = true ∧ ∃ pool, w.pool.alloc E.pool = (none, pool) ∧
          ksAccept E w p = returns (STATUS_INSUFFICIENT_RESOURCES, none,
            { w₁.store p { s with AsyncContext := ctx } with pool := pool })) ∨
        (ntSuccess io.Status = true ∧ ∃ q pool, w.pool.alloc E.pool = (some q, pool) ∧
          ksAccept E w p = returns (io.Status, some q,
            adopt E (w₁.store p { s with AsyncContext := ctx }) pool q io.Information))) := by
  obtain ⟨ctx₀, Status, ctx₁, w₁, ctx₂, io, hreset, hinvoke, hwait, hserved⟩ :=
    request_served E w accept_site hfn hidle
  refine ⟨io, ctx₂, w₁, hserved, ?_⟩
  cases hok : ntSuccess io.Status with
  | false => exact .inl ⟨rfl, by simp [ksAccept, hs, hreset, hinvoke, hwait, hok]⟩
  | true =>
    right
    rcases halloc : w.pool.alloc E.pool with ⟨_ | q, pool⟩
    · refine .inl ⟨rfl, pool, rfl, ?_⟩
      simp [ksAccept, hs, hreset, hinvoke, hwait, hok, World.store, hserved.pool, halloc]
    · obtain ⟨irp, hirp, -, -, hio⟩ := hserved.completed
      refine .inr ⟨rfl, q, pool, rfl, ?_⟩
      simp [ksAccept, adopt, hs, hreset, hinvoke, hwait, hok, World.store, hserved.pool, halloc, hirp, hio]

theorem ksAccept_strays (E : Env) (hs : w.sockets p = some s) (hidle : s.AsyncContext.Idle id)
    (hfn : ¬s.Supports .WskAccept) :
    ∃ ctx₀ : AsyncContext, ctx₀.Clean id ∧ ksAccept E w p = astray ⟨w, .WskAccept, s.via .listen, ctx₀⟩ := by
  obtain ⟨ctx₀, hreset, hclean, hinvoke⟩ := request_strays E w accept_site hfn hidle
  exact ⟨ctx₀, hclean, by simp [ksAccept, hs, hreset, hinvoke]⟩

/-- The provider makes the kind of socket the flags ask for. -/
theorem Served.created {AddressFamily : ADDRESS_FAMILY} {SocketType : UInt16} {Protocol Flags : UInt32}
    {io : IoStatusBlock} {ctx : AsyncContext}
    (h : Served E w .client (.WskSocket AddressFamily SocketType Protocol Flags) id io ctx w')
    (hok : ntSuccess io.Status = true) : w'.dispatch io.Information = .ofFlags Flags := by
  obtain ⟨hio, -, hdispatch⟩ := h.provider
  rw [hio, serve_status] at hok
  rw [hdispatch, hio]
  simp only [World.serve, hok, if_true]
  exact Function.update_self _ _ _

/-- `KsCreateSocket` fails for want of a block, with the block for want of an
IRP, with both with its request, or it sets up the `KSOCKET`. -/
theorem ksCreateSocket_cases (E : Env) (w : World) (AddressFamily : ADDRESS_FAMILY) (SocketType : UInt16)
    (Protocol Flags : UInt32) :
    (∃ pool, w.pool.alloc E.pool = (none, pool) ∧ ksCreateSocket E w AddressFamily SocketType Protocol Flags =
        some (STATUS_INSUFFICIENT_RESOURCES, none, { w with pool := pool })) ∨
      ∃ q pool, w.pool.alloc E.pool = (some q, pool) ∧
        ((∃ irps, w.irps.alloc E.irp = (none, irps) ∧ ksCreateSocket E w AddressFamily SocketType Protocol Flags =
            some (STATUS_INSUFFICIENT_RESOURCES, none, { w with pool := pool, irps := irps })) ∨
          ∃ id irps io ctx w₁, w.irps.alloc E.irp = (some id, irps) ∧
            Served E { w with pool := pool, irps := irps } .client
              (.WskSocket AddressFamily SocketType Protocol Flags) id io ctx w₁ ∧
            ksCreateSocket E w AddressFamily SocketType Protocol Flags =
              if ntSuccess io.Status then
                some (io.Status, some q, w₁.store q ⟨io.Information, w₁.dispatch io.Information, ctx⟩)
              else some (io.Status, none, w₁)) := by
  unfold ksCreateSocket
  rcases halloc : w.pool.alloc E.pool with ⟨_ | q, pool⟩
  · exact .inl ⟨pool, rfl, rfl⟩
  refine .inr ⟨q, pool, rfl, ?_⟩
  rcases hirp : w.irps.alloc E.irp with ⟨_ | id, irps⟩
  · exact .inl ⟨irps, rfl, by simp [kspAsyncContextAllocate, hirp]⟩
  let ctx : AsyncContext := ⟨false, some ⟨id, none, true, ⟨STATUS_SUCCESS, 0⟩⟩⟩
  have ha : kspAsyncContextAllocate E.irp w.irps = (STATUS_SUCCESS, ctx, irps) := by simp [kspAsyncContextAllocate, hirp, ctx]
  have hclean : ctx.Clean id := ⟨rfl, _, rfl, rfl, rfl, rfl⟩
  obtain ⟨Status, ctx₁, w₁, ctx₂, io, hrequest, hwait, hserved⟩ :=
    runs_served E { w with pool := pool, irps := irps } hclean .client
      (.WskSocket AddressFamily SocketType Protocol Flags) fun _ => rfl
  obtain ⟨irp, hirp₂, -, -, hio⟩ := hserved.completed
  refine .inr ⟨id, irps, io, ctx₂, w₁, rfl, hserved, ?_⟩
  cases hok : ntSuccess io.Status <;> simp [ha, hrequest, hwait, hok, hirp₂, hio]

/-- `KsCreateSocket` always returns: with a failure and all `KSOCKET`s as they
were, or with a new one of the kind asked for, whose IRP is its own and idle. -/
theorem ksCreateSocket_spec (E : Env) (w : World) (AddressFamily : ADDRESS_FAMILY) (SocketType : UInt16)
    (Protocol Flags : UInt32) :
    ∃ Status o w', ksCreateSocket E w AddressFamily SocketType Protocol Flags = some (Status, o, w') ∧
      (∃ new, w'.log = w.log ++ new ∧ ∀ r ∈ new, r.target = .client) ∧
      ((o = none ∧ ntSuccess Status = false ∧ w'.sockets = w.sockets ∧ w.pool.live ⊆ w'.pool.live) ∨
        ∃ q s id, o = some q ∧ ntSuccess Status = true ∧ w'.sockets = Function.update w.sockets q (some s) ∧
          s.WskDispatch = .ofFlags Flags ∧ s.AsyncContext.Idle id ∧ id ∉ w.irps.live ∧
          w'.irps.live = insert id w.irps.live ∧ q ∉ w.pool.live ∧ w'.pool.live = insert q w.pool.live) := by
  rcases ksCreateSocket_cases E w AddressFamily SocketType Protocol Flags with
    ⟨pool, halloc, heq⟩ | ⟨q, pool, halloc, hcases⟩
  · exact ⟨_, _, _, heq, ⟨[], (List.append_nil _).symm, by simp⟩,
      .inl ⟨rfl, ntSuccess_insufficient, rfl, (Heap.alloc_none halloc).superset⟩⟩
  obtain ⟨hq, hpool⟩ := Heap.alloc_some halloc
  rcases hcases with ⟨irps, hirp, heq⟩ | ⟨id, irps, io, ctx, w₁, hirp, hserved, heq⟩
  · refine ⟨_, _, _, heq, ⟨[], (List.append_nil _).symm, by simp⟩, .inl ⟨rfl, ntSuccess_insufficient, rfl, ?_⟩⟩
    rw [hpool]
    exact Finset.subset_insert _ _
  · obtain ⟨ctx₀, -, hlog⟩ := hserved.log
    obtain ⟨hid, hirps⟩ := Heap.alloc_some hirp
    cases hok : ntSuccess io.Status with
    | false =>
      rw [hok, if_neg Bool.false_ne_true] at heq
      refine ⟨_, _, _, heq, ⟨_, hlog, by simp⟩, .inl ⟨rfl, hok, hserved.sockets, ?_⟩⟩
      rw [hserved.pool]
      exact hpool ▸ Finset.subset_insert _ _
    | true =>
      rw [hok, if_pos rfl] at heq
      refine ⟨_, _, _, heq, ⟨_, hlog, by simp⟩,
        .inr ⟨q, ⟨io.Information, w₁.dispatch io.Information, ctx⟩, id, rfl, hok, ?_, hserved.created hok,
          hserved.completed.idle, hid, ?_, hq, ?_⟩⟩
      · rw [World.store, hserved.sockets]
      · rw [World.store, hserved.irps]
        exact hirps
      · rw [World.store, hserved.pool]
        exact hpool

/-! ## What a call has asked for -/

/-- The calls of the provider that were made from `w` on, with a last one that
went astray if there is one: all through the view of the socket at `p`, and the
first ones of `calls`. -/
structure Issued (w : World) (p : Nat) (view : SocketKind) (calls : List WskCall) (s : KSOCKET)
    (new : List Request) (last : Option Ask) : Prop where
  socket : w.sockets p = some s
  nonempty : new.map Request.toAsk ++ last.toList ≠ []
  via : ∀ a ∈ new.map Request.toAsk ++ last.toList, a.target = s.via view
  first : (new.map Request.toAsk ++ last.toList).map Ask.call <+: calls
  reached : ∀ r ∈ new, r.ran = r.call.fn
  strayed : ∀ a ∈ last, a.ran ≠ a.call.fn

/-- A call that did not get stuck found a `KSOCKET` with an idle IRP. -/
theorem idle_of_ne_stuck {α : Type} {g : KSOCKET → AsyncContext → Outcome Stray α} {x : Outcome Stray α}
    (h : (ofOption (w.sockets p) >>= fun s => ofOption s.AsyncContext.kspAsyncContextReset >>= g s) = x)
    (hx : x ≠ stuck) : ∃ s id, w.sockets p = some s ∧ s.AsyncContext.Idle id := by
  cases hs : w.sockets p with
  | none => exact absurd (by rw [← h, hs]; rfl) hx
  | some s =>
    cases hreset : s.AsyncContext.kspAsyncContextReset with
    | none => exact absurd (by rw [← h, hs, ofOption_some, returns_bind, hreset]; rfl) hx
    | some ctx =>
      obtain ⟨id, hidle⟩ := idle_of_reset hreset
      exact ⟨s, id, rfl, hidle⟩

theorem Served.issued {view : SocketKind} {call : WskCall} {io : IoStatusBlock} {ctx : AsyncContext}
    (h : Served E w (s.via view) call id io ctx w') (hs : w.sockets p = some s) (rest : List WskCall) :
    ∃ s new, w'.log = w.log ++ new ∧ Issued w p view (call :: rest) s new none := by
  obtain ⟨ctx₀, -, hlog⟩ := h.log
  exact ⟨s, _, hlog, hs, by simp, by simp, by simp, by simpa using h.ran ctx₀, by simp⟩

/-- The first of the calls went astray. -/
theorem issued_astray (hs : w.sockets p = some s) {view : SocketKind} {call : WskCall} {fn : WskFn}
    (hsite : Site view call fn) (hfn : ¬s.Supports fn) (rest : List WskCall) (ctx : AsyncContext) :
    ∃ s' new, w.log = w.log ++ new ∧ Issued w p view (call :: rest) s' new (some ⟨call, s.via view, ctx⟩) := by
  have hran : (⟨call, s.via view, ctx⟩ : Ask).ran ≠ call.fn := fun hran => hfn ((hsite.ran s ctx).2.1 hran)
  exact ⟨s, [], (List.append_nil _).symm, hs, by simp, by simp, by simp, by simp, by simpa using hran⟩

/-- Unless it is stuck, a call has issued the first ones of the requests. If it
has returned, `Q` holds of the result. -/
def Issues {α : Type} (w : World) (p : Nat) (view : SocketKind) (calls : List WskCall) (world : α → World)
    (Q : α → Prop) : Outcome Stray α → Prop
  | returns r => (∃ s new, (world r).log = w.log ++ new ∧ Issued w p view calls s new none) ∧ Q r
  | astray x => ∃ s new, x.world.log = w.log ++ new ∧ Issued w p view calls s new (some x.ask)
  | stuck => True

theorem Issues.returned {α : Type} {view : SocketKind} {calls : List WskCall} {world : α → World} {Q : α → Prop}
    {x : Outcome Stray α} {r : α} (h : Issues w p view calls world Q x) (hx : x = returns r) :
    (∃ s new, (world r).log = w.log ++ new ∧ Issued w p view calls s new none) ∧ Q r := by
  rwa [hx] at h

theorem Issues.strayed {α : Type} {view : SocketKind} {calls : List WskCall} {world : α → World} {Q : α → Prop}
    {x : Outcome Stray α} {stray : Stray} (h : Issues w p view calls world Q x) (hx : x = astray stray) :
    ∃ s new, stray.world.log = w.log ++ new ∧ Issued w p view calls s new (some stray.ask) := by
  rwa [hx] at h

theorem Issues.of_idle {α : Type} {view : SocketKind} {calls : List WskCall} {world : α → World} {Q : α → Prop}
    {g : KSOCKET → AsyncContext → Outcome Stray α}
    (h : ∀ s id, w.sockets p = some s → s.AsyncContext.Idle id → Issues w p view calls world Q
      (ofOption (w.sockets p) >>= fun s => ofOption s.AsyncContext.kspAsyncContextReset >>= g s)) :
    Issues w p view calls world Q
      (ofOption (w.sockets p) >>= fun s => ofOption s.AsyncContext.kspAsyncContextReset >>= g s) := by
  generalize hx : (ofOption (w.sockets p) >>= fun s => ofOption s.AsyncContext.kspAsyncContextReset >>= g s) = x at h ⊢
  by_cases hstuck : x = stuck
  · rw [hstuck]
    trivial
  · obtain ⟨s, id, hs, hidle⟩ := idle_of_ne_stuck hx hstuck
    exact h s id hs hidle

theorem ksBind_issues (a : SOCKADDR) :
    Issues w p .listen [.WskBind a] Prod.snd (fun r => r.2.pool = w.pool) (ksBind E w p a) := by
  apply Issues.of_idle
  intro s id hs hidle
  change Issues _ _ _ _ _ _ (ksBind E w p a)
  by_cases hfn : s.Supports .WskBind
  · obtain ⟨io, ctx, w₁, heq, hserved⟩ := ksBind_spec E hs hidle hfn a
    rw [heq]
    exact ⟨hserved.issued hs _, hserved.pool⟩
  · obtain ⟨ctx₀, -, heq⟩ := ksBind_strays E hs hidle hfn a
    rw [heq]
    exact issued_astray hs (bind_site a) hfn _ _

theorem ksConnect_issues (a : SOCKADDR) :
    Issues w p .connection [.WskBind ⟨AF_INET, 0, INADDR_ANY⟩, .WskConnect a] Prod.snd (fun r => r.2.pool = w.pool)
      (ksConnect E w p a) := by
  apply Issues.of_idle
  intro s id hs hidle
  change Issues _ _ _ _ _ _ (ksConnect E w p a)
  by_cases hfn : s.Supports .WskBind
  swap
  · obtain ⟨ctx₀, -, heq⟩ := ksConnect_strays E hs hidle hfn a
    rw [heq]
    exact issued_astray hs (connect_bind_site _) hfn _ _
  obtain ⟨io, ctx, w₁, hserved, hcases⟩ := ksConnect_spec E hs hidle hfn a
  obtain ⟨ctx₀, -, hlog⟩ := hserved.log
  rcases hcases with ⟨-, heq⟩ | ⟨-, -, io', ctx', w₂, hserved', heq⟩ | ⟨-, hconnect, ctx₁, -, heq⟩
  · rw [heq]
    exact ⟨hserved.issued hs _, hserved.pool⟩
  · -- both requests are in the log, the second behind the first
    obtain ⟨ctx₀', -, hlog'⟩ := hserved'.log
    rw [hlog, List.append_assoc] at hlog'
    rw [heq]
    refine ⟨⟨s, _, hlog', hs, by simp, by simp, by simp, ?_, by simp⟩, hserved'.pool.trans hserved.pool⟩
    simpa using ⟨hserved.ran ctx₀, hserved'.ran ctx₀'⟩
  · -- the first request is in the log, and the second went astray
    rw [heq]
    have hran : (⟨.WskConnect a, s.via .connection, ctx₁⟩ : Ask).ran ≠ (WskCall.WskConnect a).fn :=
      fun hran => hconnect (((connect_site a).ran s ctx₁).2.1 hran)
    exact ⟨s, _, hlog, hs, by simp, by simp, by simp, by simpa using hserved.ran ctx₀, by simpa using hran⟩

theorem ksSendRecv_issues (b : Nat) (n f : UInt32) (Send : Bool) :
    Issues w p .connection [sendRecvCall b n f Send] (·.2.2) (fun r => r.2.2.pool = w.pool)
      (ksSendRecv E w p b n f Send) := by
  apply Issues.of_idle
  intro s id hs hidle
  change Issues _ _ _ _ _ _ (ksSendRecv E w p b n f Send)
  by_cases hfn : s.Supports (sendRecvFn Send)
  · obtain ⟨io, ctx, w₁, heq, hserved⟩ := ksSendRecv_spec E hs hidle b n f Send hfn
    rw [heq]
    exact ⟨hserved.issued hs _, hserved.pool⟩
  · obtain ⟨ctx₀, -, heq⟩ := ksSendRecv_strays E hs hidle b n f Send hfn
    rw [heq]
    exact issued_astray hs (sendRecv_site b n f Send) hfn _ _

theorem ksSendRecvUdp_issues (b : Nat) (n f : UInt32) (a : Nat) (Send : Bool) :
    Issues w p .datagram [sendRecvUdpCall b n f a Send] (·.2.2) (fun r => r.2.2.pool = w.pool)
      (ksSendRecvUdp E w p b n f a Send) := by
  apply Issues.of_idle
  intro s id hs hidle
  change Issues _ _ _ _ _ _ (ksSendRecvUdp E w p b n f a Send)
  by_cases hfn : s.Supports (sendRecvUdpFn Send)
  · obtain ⟨io, ctx, w₁, heq, hserved⟩ := ksSendRecvUdp_spec E hs hidle b n f a Send hfn
    rw [heq]
    exact ⟨hserved.issued hs _, hserved.pool⟩
  · obtain ⟨ctx₀, -, heq⟩ := ksSendRecvUdp_strays E hs hidle b n f a Send hfn
    rw [heq]
    exact issued_astray hs (sendRecvUdp_site b n f a Send) hfn _ _

/-- An accept succeeds exactly if it gives a `KSOCKET`, which is in a new block. -/
theorem ksAccept_issues :
    Issues w p .listen [.WskAccept] (·.2.2) (fun r =>
      (ntSuccess r.1 = false ∧ r.2.1 = none ∧ r.2.2.pool.live = w.pool.live) ∨
        ∃ q, ntSuccess r.1 = true ∧ r.2.1 = some q ∧ q ∉ w.pool.live ∧ r.2.2.pool.live = insert q w.pool.live)
      (ksAccept E w p) := by
  apply Issues.of_idle
  intro s id hs hidle
  change Issues _ _ _ _ _ _ (ksAccept E w p)
  by_cases hfn : s.Supports .WskAccept
  swap
  · obtain ⟨ctx₀, -, heq⟩ := ksAccept_strays E hs hidle hfn
    rw [heq]
    exact issued_astray hs accept_site hfn _ _
  obtain ⟨io, ctx, w₁, hserved, ⟨hok, heq⟩ | ⟨-, pool, halloc, heq⟩ | ⟨hok, q, pool, halloc, heq⟩⟩ :=
    ksAccept_spec E hs hidle hfn
  · rw [heq]
    exact ⟨hserved.issued hs _, .inl ⟨hok, rfl, congrArg Heap.live hserved.pool⟩⟩
  · rw [heq]
    exact ⟨hserved.issued hs _, .inl ⟨ntSuccess_insufficient, rfl, Heap.alloc_none halloc⟩⟩
  · rw [heq]
    obtain ⟨hq, hpool⟩ := Heap.alloc_some halloc
    exact ⟨hserved.issued hs _, .inr ⟨q, hok, rfl, hq, hpool⟩⟩

/-- A close that has returned has freed the block. -/
theorem ksCloseSocket_issues :
    Issues w p .connection [.WskCloseSocket] Prod.snd (fun r => r.2.pool.live = w.pool.live.erase p)
      (ksCloseSocket E w p) := by
  apply Issues.of_idle
  intro s id hs hidle
  obtain ⟨ctx₀, Status, ctx₁, w₁, ctx₂, io, hreset, hinvoke, hwait, hserved⟩ :=
    request_served E w close_site (supports_close s) hidle
  simp only [hs, ofOption_some, returns_bind, hreset, hinvoke, hwait]
  cases hirps : ctx₂.kspAsyncContextFree w₁.irps with
  | none => trivial
  | some irps =>
    cases hpool : w₁.pool.free p with
    | none => trivial
    | some pool =>
      obtain ⟨-, rfl⟩ := Heap.free_some hpool
      exact ⟨hserved.issued hs _, by rw [← hserved.pool]⟩

end KSock.Ks
