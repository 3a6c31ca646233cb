import KSock.AsyncContext
import KSock.Lib.Outcome
import Mathlib.Logic.Function.Basic
/-!
# The `Ks` functions

`ksocket.c` over an explicit world: the pool, the IRPs, the provider's sockets,
the `KSOCKET` structures by address and the log of all requests made. What the
pool, the IRP allocator and the provider answer is the environment's choice.

A function has no result where the code would follow a NULL or dangling pointer,
misuse an IRP or wait for ever. It goes astray where it calls through a socket's
table and the place holds another function than the one it names, or is past the
end: the arguments are not that function's, and what it does with them is left
open.
-/
open KSockLib

namespace KSock

/-- `KSOCKET`. `WskDispatch` is the table of the provider's socket, by its kind. -/
structure KSOCKET where
  WskSocket : Nat
  WskDispatch : SocketKind
  AsyncContext : AsyncContext
  deriving DecidableEq, Repr

/-- Where a function was called: in the client's dispatch table, or through a
view of the table of a socket. -/
inductive Target where
  | client
  | socket (WskSocket : Nat) (kind view : SocketKind)
  deriving DecidableEq, Repr

/-- `Socket->Wsk…Dispatch->`, with `Socket->WskSocket` as the argument. -/
def KSOCKET.via (s : KSOCKET) (view : SocketKind) : Target := .socket s.WskSocket s.WskDispatch view

/-- The table of the socket has the function. -/
def KSOCKET.Supports (s : KSOCKET) (fn : WskFn) : Prop := fn ∈ s.WskDispatch.table

instance (s : KSOCKET) (fn : WskFn) : Decidable (s.Supports fn) := inferInstanceAs (Decidable (_ ∈ _))

/-- A call of the provider, and the context whose IRP it passes. -/
structure Ask where
  call : WskCall
  target : Target
  context : AsyncContext
  deriving DecidableEq, Repr

/-- What the call ran: the function it names, another one of the socket's table,
or nothing known. -/
def Ask.ran (a : Ask) : Option WskFn :=
  match a.target with
  | .client => a.call.fn
  | .socket _ kind view => a.call.fn.bind (reached kind view)

/-- What the function that ran takes for its IRP: the context's, if it has the
parameter where the function that was named has it. -/
def Ask.irp (a : Ask) : Option AsyncContext :=
  if a.ran.bind WskFn.irpParameter = a.call.fn.bind WskFn.irpParameter then some a.context else none

/-- A call that ran the function it names, and what it completed with. -/
structure Request extends Ask where
  io : IoStatusBlock
  deriving DecidableEq, Repr

/-- The choices of the environment. `handle` is the address of a socket the
provider makes. -/
structure Env where
  pool : Allocator
  irp : Allocator
  handle : (live : Finset Nat) → { p : Nat // p ∉ live }
  provider : List Request → Target → WskCall → Completion

/-- Memory never runs out, and every request is complete at once and succeeds. -/
def Env.obliging : Env where
  pool := .next
  irp := .next
  handle := nextBlock
  provider _ _ _ := ⟨.now, ⟨STATUS_SUCCESS, 5⟩⟩

structure World where
  pool : Heap
  irps : Heap
  wskSockets : Finset Nat
  dispatch : Nat → SocketKind
  sockets : Nat → Option KSOCKET
  log : List Request

/-- A call went to another function than the one it names, or to none. -/
structure Stray where
  world : World
  ask : Ask

namespace World

def init : World := ⟨.empty, .empty, ∅, fun _ => .basic, fun _ => none, []⟩

variable (E : Env)

/-- What a function that succeeds does to the provider's sockets. -/
def serve (w : World) (target : Target) (call : WskCall) (io : IoStatusBlock) : IoStatusBlock × World :=
  let create (kind : SocketKind) : IoStatusBlock × World :=
    let p := (E.handle w.wskSockets).val
    ({ io with Information := p },
      { w with wskSockets := insert p w.wskSockets, dispatch := Function.update w.dispatch p kind })
  if ntSuccess io.Status then
    match call, target with
    | .WskSocket _ _ _ Flags, .client => create (.ofFlags Flags)
    | .WskAccept, .socket _ _ _ => create .connection
    | .WskCloseSocket, .socket p _ _ => (io, { w with wskSockets := w.wskSockets.erase p })
    | _, _ => (io, w)
  else (io, w)

/-- The function that the call names runs. -/
def request (w : World) (ctx : AsyncContext) (target : Target) (call : WskCall) :
    Option (NTSTATUS × AsyncContext × World) :=
  let c := E.provider w.log target call
  let r := w.serve E target call c.io
  (ctx.request ⟨c.timing, r.1⟩).map fun a =>
    (a.1, a.2, { r.2 with log := w.log ++ [⟨⟨call, target, ctx⟩, r.1⟩] })

/-- A function is called. In the client's own table it is the one that is named. -/
def invoke (w : World) (ctx : AsyncContext) (target : Target) (call : WskCall) :
    Outcome Stray (NTSTATUS × AsyncContext × World) :=
  let ask : Ask := ⟨call, target, ctx⟩
  if ask.ran = call.fn then .ofOption (w.request E ctx target call) else .astray ⟨w, ask⟩

/-- The `KSOCKET` at `p` is written. -/
def store (w : World) (p : Nat) (s : KSOCKET) : World := { w with sockets := Function.update w.sockets p (some s) }

end World

/-! ## The functions -/

namespace Ks

variable (E : Env) (w : World)

def ksCreateSocket (AddressFamily : ADDRESS_FAMILY) (SocketType : UInt16) (Protocol Flags : UInt32) :
    Option (NTSTATUS × Option Nat × World) :=
  match w.pool.alloc E.pool with
  | (none, pool) => some (STATUS_INSUFFICIENT_RESOURCES, none, { w with pool := pool })
  | (some p, pool) =>
    let a := AsyncContext.kspAsyncContextAllocate E.irp w.irps
    let w := { w with pool := pool, irps := a.2.2 }
    if !ntSuccess a.1 then some (a.1, none, w) else do
    let (Status, ctx, w) ← w.request E a.2.1 .client (.WskSocket AddressFamily SocketType Protocol Flags)
    let (Status, ctx) ← ctx.kspAsyncContextWaitForCompletion Status
    if ntSuccess Status then
      let irp ← ctx.Irp
      let WskSocket := irp.IoStatus.Information
      return (Status, some p, w.store p ⟨WskSocket, w.dispatch WskSocket, ctx⟩)
    else return (Status, none, w)

def ksCreateConnectionSocket (AddressFamily : ADDRESS_FAMILY) (SocketType : UInt16) (Protocol : UInt32) :=
  ksCreateSocket E w AddressFamily SocketType Protocol WSK_FLAG_CONNECTION_SOCKET

def ksCreateListenSocket (AddressFamily : ADDRESS_FAMILY) (SocketType : UInt16) (Protocol : UInt32) :=
  ksCreateSocket E w AddressFamily SocketType Protocol WSK_FLAG_LISTEN_SOCKET

def ksCreateDatagramSocket (AddressFamily : ADDRESS_FAMILY) (SocketType : UInt16) (Protocol : UInt32) :=
  ksCreateSocket E w AddressFamily SocketType Protocol WSK_FLAG_DATAGRAM_SOCKET

def ksCloseSocket (Socket : Nat) : Outcome Stray (NTSTATUS × World) := do
  let s ← .ofOption (w.sockets Socket)
  let ctx ← .ofOption s.AsyncContext.kspAsyncContextReset
  let (Status, ctx, w) ← w.invoke E ctx (s.via .connection) .WskCloseSocket
  let (Status, ctx) ← .ofOption (ctx.kspAsyncContextWaitForCompletion Status)
  let irps ← .ofOption (ctx.kspAsyncContextFree w.irps)
  let pool ← .ofOption (w.pool.free Socket)
  return (Status, { w with irps := irps, pool := pool, sockets := Function.update w.sockets Socket none })

def ksBind (Socket : Nat) (LocalAddress : SOCKADDR) : Outcome Stray (NTSTATUS × World) := do
  let s ← .ofOption (w.sockets Socket)
  let ctx ← .ofOption s.AsyncContext.kspAsyncContextReset
  let (Status, ctx, w) ← w.invoke E ctx (s.via .listen) (.WskBind LocalAddress)
  let (Status, ctx) ← .ofOption (ctx.kspAsyncContextWaitForCompletion Status)
  return (Status, w.store Socket { s with AsyncContext := ctx })

/-- The second component is what `NewSocket` is set to. -/
def ksAccept (Socket : Nat) : Outcome Stray (NTSTATUS × Option Nat × World) := do
  let s ← .ofOption (w.sockets Socket)
  let ctx ← .ofOption s.AsyncContext.kspAsyncContextReset
  let (Status, ctx, w) ← w.invoke E ctx (s.via .listen) .WskAccept
  let (Status, ctx) ← .ofOption (ctx.kspAsyncContextWaitForCompletion Status)
  let w := w.store Socket { s with AsyncContext := ctx }
  if ntSuccess Status then
    match w.pool.alloc E.pool with
    | (none, pool) => return (STATUS_INSUFFICIENT_RESOURCES, none, { w with pool := pool })
    | (some p, pool) =>
      let irp ← .ofOption ctx.Irp
      let WskSocket := irp.IoStatus.Information
      -- the status of this allocation is not looked at
      let a := AsyncContext.kspAsyncContextAllocate E.irp w.irps
      let w := { w with pool := pool, irps := a.2.2 }
      return (Status, some p, w.store p ⟨WskSocket, w.dispatch WskSocket, a.2.1⟩)
  else return (Status, none, w)

def ksConnect (Socket : Nat) (RemoteAddress : SOCKADDR) : Outcome Stray (NTSTATUS × World) := do
  let s ← .ofOption (w.sockets Socket)
  let ctx ← .ofOption s.AsyncContext.kspAsyncContextReset
  let (Status, ctx, w) ← w.invoke E ctx (s.via .connection) (.WskBind ⟨AF_INET, 0, INADDR_ANY⟩)
  let (Status, ctx) ← .ofOption (ctx.kspAsyncContextWaitForCompletion Status)
  if !ntSuccess Status then return (Status, w.store Socket { s with AsyncContext := ctx })
  let ctx ← .ofOption ctx.kspAsyncContextReset
  let (Status, ctx, w) ← w.invoke E ctx (s.via .connection) (.WskConnect RemoteAddress)
  let (Status, ctx) ← .ofOption (ctx.kspAsyncContextWaitForCompletion Status)
  return (Status, w.store Socket { s with AsyncContext := ctx })

/-- `*Length` after the request: the count of bytes if it succeeded. -/
def transferred (Status : NTSTATUS) (ctx : AsyncContext) (Length : UInt32) : Option UInt32 :=
  if ntSuccess Status then ctx.Irp.map fun irp => UInt32.ofNat irp.IoStatus.Information else some Length

/-- The second component is what `*Length` is set to. `IoAllocateMdl`, whose result
is not looked at, is taken to succeed. -/
def ksSendRecv (Socket Buffer : Nat) (Length Flags : UInt32) (Send : Bool) : Outcome Stray (NTSTATUS × UInt32 × World) := do
  let s ← .ofOption (w.sockets Socket)
  let WskBuffer : WskBuf := ⟨Buffer, 0, Length.toUInt64⟩
  let ctx ← .ofOption s.AsyncContext.kspAsyncContextReset
  let call : WskCall := if Send then .WskSend WskBuffer Flags else .WskReceive WskBuffer Flags
  let (Status, ctx, w) ← w.invoke E ctx (s.via .connection) call
  let (Status, ctx) ← .ofOption (ctx.kspAsyncContextWaitForCompletion Status)
  let Length ← .ofOption (transferred Status ctx Length)
  return (Status, Length, w.store Socket { s with AsyncContext := ctx })

def ksSendRecvUdp (Socket Buffer : Nat) (Length Flags : UInt32) (RemoteAddress : Nat) (Send : Bool) :
    Outcome Stray (NTSTATUS × UInt32 × World) := do
  let s ← .ofOption (w.sockets Socket)
  let WskBuffer : WskBuf := ⟨Buffer, 0, Length.toUInt64⟩
  let ctx ← .ofOption s.AsyncContext.kspAsyncContextReset
  let call : WskCall :=
    if Send then .WskSendTo WskBuffer Flags RemoteAddress else .WskReceiveFrom WskBuffer Flags RemoteAddress
  let (Status, ctx, w) ← w.invoke E ctx (s.via .datagram) call
  let (Status, ctx) ← .ofOption (ctx.kspAsyncContextWaitForCompletion Status)
  let Length ← .ofOption (transferred Status ctx Length)
  return (Status, Length, w.store Socket { s with AsyncContext := ctx })

def ksSend (Socket Buffer : Nat) (Length Flags : UInt32) := ksSendRecv E w Socket Buffer Length Flags true

def ksRecv (Socket Buffer : Nat) (Length Flags : UInt32) := ksSendRecv E w Socket Buffer Length Flags false

def ksSendTo (Socket Buffer : Nat) (Length Flags : UInt32) (RemoteAddress : Nat) :=
  ksSendRecvUdp E w Socket Buffer Length Flags RemoteAddress true

def ksRecvFrom (Socket Buffer : Nat) (Length Flags : UInt32) (RemoteAddress : Nat) :=
  ksSendRecvUdp E w Socket Buffer Length Flags RemoteAddress false

end Ks

end KSock
