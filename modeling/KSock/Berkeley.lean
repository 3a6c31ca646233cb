import KSock.Lib.Run
import KSock.Requests
/-!
# The BSD calls

`berkeley.c` over the `Ks` functions: a descriptor is an index of `KsArray`, and
the next one comes from the counter `KsIndex`. `recvfrom` calls `KsSendTo`.

A call has no result where the code would index outside `KsArray` or follow the
NULL pointer it finds there, or where the `Ks` function has none, and goes astray
with the `Ks` function.
-/
open KSockLib Outcome

namespace KSock

def SOCKETFD_MAX : Nat := 128
def IPPROTO_TCP : UInt32 := 6

/-- The variables of `berkeley.c`, and the world under them. -/
structure Bsd where
  world : World
  KsArray : Fin SOCKETFD_MAX → Option Nat
  KsIndex : UInt32

namespace Bsd

def init : Bsd := ⟨.init, fun _ => none, 0⟩

/-- `TO_SOCKETFD` -/
def toSocketfd (index : UInt32) : Fin SOCKETFD_MAX := ⟨index.toNat % SOCKETFD_MAX, Nat.mod_lt _ (by decide)⟩

/-- `FROM_SOCKETFD`, if it is an index of the array. -/
def fromSocketfd (sockfd : Int) : Option (Fin SOCKETFD_MAX) :=
  if h : 0 ≤ sockfd ∧ sockfd.toNat < SOCKETFD_MAX then some ⟨sockfd.toNat, h.2⟩ else none

/-- `KsArray[FROM_SOCKETFD(sockfd)]`, which the `Ks` functions follow. -/
def socketAt (b : Bsd) (sockfd : Int) : Option Nat := do
  let i ← fromSocketfd sockfd
  b.KsArray i

/-- What all four creating calls do with what the `Ks` function returned. -/
def install (b : Bsd) (r : NTSTATUS × Option Nat × World) : Option (Int × Bsd) :=
  let b := { b with world := r.2.2 }
  if ntSuccess r.1 then do
    let Socket ← r.2.1
    let sockfd := toSocketfd b.KsIndex
    return (sockfd.val, { b with KsArray := Function.update b.KsArray sockfd (some Socket), KsIndex := b.KsIndex + 1 })
  else some (-1, b)

/-- `NT_SUCCESS(Status) ? 0 : -1` -/
def ofStatus (b : Bsd) (r : NTSTATUS × World) : Int × Bsd :=
  (if ntSuccess r.1 then 0 else -1, { b with world := r.2 })

/-- `NT_SUCCESS(Status) ? (int)Length : -1` -/
def ofLength (b : Bsd) (r : NTSTATUS × UInt32 × World) : Int × Bsd :=
  (if ntSuccess r.1 then r.2.1.toBitVec.toInt else -1, { b with world := r.2.2 })

variable (E : Env) (b : Bsd)

/-! ## The calls -/

def socketConnection (domain type protocol : Int) : Option (Int × Bsd) := do
  b.install (← Ks.ksCreateConnectionSocket E b.world (UInt32.ofInt domain) (UInt16.ofInt type) (UInt32.ofInt protocol))

def socketListen (domain type protocol : Int) : Option (Int × Bsd) := do
  b.install (← Ks.ksCreateListenSocket E b.world (UInt32.ofInt domain) (UInt16.ofInt type)
    (if protocol ≠ 0 then UInt32.ofInt protocol else IPPROTO_TCP))

def socketDatagram (domain type protocol : Int) : Option (Int × Bsd) := do
  b.install (← Ks.ksCreateDatagramSocket E b.world (UInt32.ofInt domain) (UInt16.ofInt type) (UInt32.ofInt protocol))

def connect (sockfd : Int) (addr : SOCKADDR) : Outcome Stray (Int × Bsd) := do
  let Socket ← ofOption (b.socketAt sockfd)
  return b.ofStatus (← Ks.ksConnect E b.world Socket addr)

/-- `listen` does nothing. -/
def listen (_sockfd _backlog : Int) : Option (Int × Bsd) := some (0, b)

def bind (sockfd : Int) (addr : SOCKADDR) : Outcome Stray (Int × Bsd) := do
  let Socket ← ofOption (b.socketAt sockfd)
  return b.ofStatus (← Ks.ksBind E b.world Socket addr)

def accept (sockfd : Int) : Outcome Stray (Int × Bsd) := do
  let Socket ← ofOption (b.socketAt sockfd)
  ofOption (b.install (← Ks.ksAccept E b.world Socket))

def send (sockfd : Int) (buf : Nat) (len : UInt64) (flags : Int) : Outcome Stray (Int × Bsd) := do
  let Socket ← ofOption (b.socketAt sockfd)
  return b.ofLength (← Ks.ksSend E b.world Socket buf len.toUInt32 (UInt32.ofInt flags))

def sendto (sockfd : Int) (buf : Nat) (len : UInt64) (flags : Int) (destAddr : Nat) : Outcome Stray (Int × Bsd) := do
  let Socket ← ofOption (b.socketAt sockfd)
  return b.ofLength (← Ks.ksSendTo E b.world Socket buf len.toUInt32 (UInt32.ofInt flags) destAddr)

def recv (sockfd : Int) (buf : Nat) (len : UInt64) (flags : Int) : Outcome Stray (Int × Bsd) := do
  let Socket ← ofOption (b.socketAt sockfd)
  return b.ofLength (← Ks.ksRecv E b.world Socket buf len.toUInt32 (UInt32.ofInt flags))

def recvfrom (sockfd : Int) (buf : Nat) (len : UInt64) (flags : Int) (srcAddr : Nat) : Outcome Stray (Int × Bsd) := do
  let Socket ← ofOption (b.socketAt sockfd)
  return b.ofLength (← Ks.ksSendTo E b.world Socket buf len.toUInt32 (UInt32.ofInt flags) srcAddr)

def closesocket (sockfd : Int) : Outcome Stray (Int × Bsd) := do
  let i ← ofOption (fromSocketfd sockfd)
  let Socket ← ofOption (b.KsArray i)
  let (ret, b) := b.ofStatus (← Ks.ksCloseSocket E b.world Socket)
  return (ret, { b with KsArray := Function.update b.KsArray i none })

/-- A call on a descriptor that has returned found a `KSOCKET`, and its `Ks`
function has returned. -/
theorem onSocket_returns {b b' : Bsd} {fd ret : Int} {α : Type} {f : Nat → Outcome Stray α} {g : α → Int × Bsd}
    (h : (ofOption (b.socketAt fd) >>= fun p => f p >>= fun r => returns (g r)) = returns (ret, b')) :
    ∃ p r, b.socketAt fd = some p ∧ f p = returns r ∧ g r = (ret, b') := by
  obtain ⟨p, hp, h⟩ := bind_eq_returns.1 h
  obtain ⟨r, hr, h⟩ := bind_eq_returns.1 h
  exact ⟨p, r, ofOption_eq_returns.1 hp, hr, returns.inj h⟩

/-- One that has gone astray found a `KSOCKET` too, and its `Ks` function has. -/
theorem onSocket_astray {b : Bsd} {fd : Int} {α : Type} {f : Nat → Outcome Stray α} {g : α → Outcome Stray (Int × Bsd)}
    {x : Stray} (h : (ofOption (b.socketAt fd) >>= fun p => f p >>= g) = astray x) (hg : ∀ r, g r ≠ astray x) :
    ∃ p, b.socketAt fd = some p ∧ f p = astray x := by
  rcases bind_eq_astray.1 h with h | ⟨p, hp, h⟩
  · exact absurd h (ofOption_ne_astray _ _)
  rcases bind_eq_astray.1 h with h | ⟨r, -, h⟩
  · exact ⟨p, ofOption_eq_returns.1 hp, h⟩
  · exact absurd h (hg r)

end Bsd

/-! ## Runs -/

inductive BsdCall where
  | socketConnection (domain type protocol : Int)
  | socketListen (domain type protocol : Int)
  | socketDatagram (domain type protocol : Int)
  | connect (sockfd : Int) (addr : SOCKADDR)
  | listen (sockfd backlog : Int)
  | bind (sockfd : Int) (addr : SOCKADDR)
  | accept (sockfd : Int)
  | send (sockfd : Int) (buf : Nat) (len : UInt64) (flags : Int)
  | sendto (sockfd : Int) (buf : Nat) (len : UInt64) (flags : Int) (destAddr : Nat)
  | recv (sockfd : Int) (buf : Nat) (len : UInt64) (flags : Int)
  | recvfrom (sockfd : Int) (buf : Nat) (len : UInt64) (flags : Int) (srcAddr : Nat)
  | closesocket (sockfd : Int)
  deriving DecidableEq, Repr

/-- What a call returns, and the variables after it. -/
def Bsd.call (E : Env) (b : Bsd) : BsdCall → Outcome Stray (Int × Bsd)
  | .socketConnection d t p => ofOption (b.socketConnection E d t p)
  | .socketListen d t p => ofOption (b.socketListen E d t p)
  | .socketDatagram d t p => ofOption (b.socketDatagram E d t p)
  | .connect fd a => b.connect E fd a
  | .listen fd n => ofOption (b.listen fd n)
  | .bind fd a => b.bind E fd a
  | .accept fd => b.accept E fd
  | .send fd buf n f => b.send E fd buf n f
  | .sendto fd buf n f a => b.sendto E fd buf n f a
  | .recv fd buf n f => b.recv E fd buf n f
  | .recvfrom fd buf n f a => b.recvfrom E fd buf n f a
  | .closesocket fd => b.closesocket E fd

end KSock
