import KSock.KSocket
import KSock.Utils
/-!
# The other methods of `KSocket`

`setup`, `connect`, `bind`, `listen`, `accept` and `close`, with what the BSD
calls under them come to as arguments. `setup` and `accept` also depend on
whether `new KSocketImpl()` gives memory. A method has no result where the code
would follow a NULL pointer.

`delete m_socket` at the start of `setup` and what becomes of the socket that
`accept` makes are left to `Objects.lean`, which has the memory.
-/
open KSockLib.Endian

namespace KSock

def AF_INET6 : ADDRESS_FAMILY := 23
def SOCK_STREAM : Int := 1
def SOCK_DGRAM : Int := 2
def AI_CANONNAME : Int32 := 2

/-- `addr` has the bytes of the union that are set. -/
structure KSocketAddress where
  addr_used : UInt8
  addr : List UInt8
  port : UInt16
  deriving DecidableEq, Repr

structure KAcceptedSocket extends KSocket where
  m_remote : KSocketAddress
  deriving DecidableEq, Repr

/-- `new KSocketImpl()` -/
def KSocketImpl.new : KSocketImpl := ⟨-1, ⟨0, 0, 0⟩⟩

/-- The call that `setup` makes a socket with. -/
inductive Creation where
  | socketConnection
  | socketListen
  | socketDatagram
  deriving DecidableEq, Repr

namespace KSocket

def new : KSocket := ⟨⟨[]⟩, ⟨[]⟩, .KST_INVALID, none, KSE_SUCCESS⟩

/-- `*m_socket`, once `sanityCheck` has seen that there is one. -/
def impl (k : KSocket) : KSocketImpl := k.m_socket.getD .new

def socketTypeToTuple : KSocketType → Option (ADDRESS_FAMILY × Int)
  | .KST_INVALID => none
  | .KST_STREAM_CLIENT_IP4 | .KST_STREAM_SERVER_IP4 => some (AF_INET.toUInt32, SOCK_STREAM)
  | .KST_STREAM_CLIENT_IP6 | .KST_STREAM_SERVER_IP6 => some (AF_INET6, SOCK_STREAM)
  | .KST_DATAGRAM_IP4 | .KST_DATAGRAM_IP6 => some (AF_INET.toUInt32, SOCK_DGRAM)

/-- The `switch` of `setup`. -/
def creation : KSocketType → Option Creation
  | .KST_INVALID => none
  | .KST_STREAM_CLIENT_IP4 | .KST_STREAM_CLIENT_IP6 => some .socketConnection
  | .KST_STREAM_SERVER_IP4 | .KST_STREAM_SERVER_IP6 => some .socketListen
  | .KST_DATAGRAM_IP4 | .KST_DATAGRAM_IP6 => some .socketDatagram

def isIp6 (sock_type : KSocketType) : Bool :=
  sock_type = .KST_STREAM_CLIENT_IP6 ∨ sock_type = .KST_STREAM_SERVER_IP6 ∨ sock_type = .KST_DATAGRAM_IP6

def setup (k : KSocket) (newImpl : Bool) (bsdSocket : Creation → (domain type proto : Int) → Int)
    (sock_type : KSocketType) (proto : Int) : Bool × KSocket :=
  let k := { k with m_lastError := KSE_SUCCESS }
  if !newImpl then (false, { k with m_socket := none, m_lastError := KSE_SETUP_IMPL_NULL }) else
  let k := { k with m_socket := some .new }
  match socketTypeToTuple sock_type with
  | none => (false, { k with m_lastError := KSE_SETUP_INVALID_SOCKET_TYPE })
  | some (domain, type) =>
    if isIp6 sock_type then (false, { k with m_lastError := KSE_SETUP_UNSUPPORTED_SOCKET_TYPE }) else
    let k := { k with m_socketType := sock_type }
    match creation sock_type with
    | none => (false, { k with m_lastError := KSE_SETUP_INVALID_SOCKET_TYPE })
    | some call =>
      let s := bsdSocket call domain.toNat type proto
      (0 ≤ s, { k with m_socket := some ⟨s, ⟨domain, type, proto⟩⟩ })

/-- The `hints` of `connect`. -/
def hints (k : KSocket) : ADDRINFOA :=
  ⟨0, AI_CANONNAME, Int32.ofNat k.impl.c.domain.toNat, Int32.ofInt k.impl.c.type, 0, 0, none, none⟩

def connect (k : KSocket) (host port : List UInt8)
    (bsdGetaddrinfo : (host port : List UInt8) → (hints : ADDRINFOA) → Int × List ADDRINFOA)
    (bsdConnect : (s : Int) → (ai_addr : Option Nat) → (ai_addrlen : Int32) → Int) : Option (Bool × KSocket) :=
  match { k with m_lastError := KSE_SUCCESS }.sanityCheck with
  | (false, k) => some (false, k)
  | (true, k) =>
    if k.m_socketType ≠ .KST_STREAM_CLIENT_IP4 ∧ k.m_socketType ≠ .KST_STREAM_CLIENT_IP6 then some (false, k) else
    let r := bsdGetaddrinfo host port k.hints
    let k := { k with m_lastError := r.1 }
    if k.m_lastError ≠ KSE_SUCCESS then some (false, k) else
    match r.2 with
    | [] => none
    | results :: _ =>
      let k := { k with
        m_lastError := bsdConnect k.impl.s results.ai_addr (Int32.ofNat results.ai_addrlen.toNat) }
      some (k.m_lastError = KSE_SUCCESS, k)

def bind (k : KSocket) (port : UInt16) (bsdBind : (s : Int) → SOCKADDR → Int) : Bool × KSocket :=
  match k.sanityCheck with
  | (false, k) => (false, k)
  | (true, k) =>
    let k := { k with m_lastError := bsdBind k.impl.s ⟨AF_INET, htons port, INADDR_ANY⟩ }
    (k.m_lastError = KSE_SUCCESS, k)

def listen (k : KSocket) (backlog : Int) (bsdListen : (s backlog : Int) → Int) : Bool × KSocket :=
  match { k with m_lastError := KSE_SUCCESS }.sanityCheck with
  | (false, k) => (false, k)
  | (true, k) =>
    if k.m_socketType ≠ .KST_STREAM_SERVER_IP4 ∧ k.m_socketType ≠ .KST_STREAM_SERVER_IP6 then (false, k) else
    let k := { k with m_lastError := bsdListen k.impl.s backlog }
    (k.m_lastError = KSE_SUCCESS, k)

/-- `KAcceptedSocket ka` -/
def newAccepted : KAcceptedSocket := { KSocket.new with m_remote := ⟨0, [], 0⟩ }

/-- `accept` up to its callback. With `false` the callback is not called, and
`accept` returns false. -/
def acceptSocket (k : KSocket) (newImpl : Bool) (bsdAccept : (s : Int) → Int × SOCKADDR) :
    Bool × KAcceptedSocket × KSocket :=
  let ka := newAccepted
  match k.sanityCheck with
  | (false, k) => (false, ka, k)
  | (true, k) =>
    if k.impl.c.domain ≠ AF_INET.toUInt32 then (false, ka, { k with m_lastError := KSE_SETUP_UNSUPPORTED_SOCKET_TYPE }) else
    if !newImpl then (false, ka, { k with m_lastError := KSE_SETUP_IMPL_NULL }) else
    let r := bsdAccept k.impl.s
    let ka := { ka with m_socketType := k.m_socketType, m_socket := some ⟨r.1, k.impl.c⟩ }
    if k.impl.c.domain = AF_INET.toUInt32 then
      let ka := { ka with m_remote := ⟨4, toLE 4 r.2.sin_addr.toNat, r.2.sin_port⟩ }
      if r.1 < 0 then (false, ka, { k with m_lastError := KSE_ACCEPT_FAILED }) else (true, ka, k)
    else (false, ka, { k with m_lastError := KSE_SETUP_UNSUPPORTED_SOCKET_TYPE })

/-- The callback is given the accepted socket. It may hold the listening object
too, and call its methods. -/
def accept (k : KSocket) (newImpl : Bool) (bsdAccept : (s : Int) → Int × SOCKADDR)
    (thread_callback : KAcceptedSocket → KSocket → Bool × KSocket) : Bool × KSocket :=
  match k.acceptSocket newImpl bsdAccept with
  | (false, _, k) => (false, k)
  | (true, ka, k) => thread_callback ka k

def close (k : KSocket) (bsdClosesocket : (s : Int) → Int) : Bool × KSocket :=
  match k.sanityCheck with
  | (false, k) => (false, k)
  | (true, k) =>
    if bsdClosesocket k.impl.s = 0 then (true, { k with m_socket := some { k.impl with s := -1 } }) else (false, k)

end KSocket

end KSock
