import Mathlib.Data.BitVec
import Mathlib.Data.List.Basic
/-!
# Winsock Kernel

What `ksocket.c` and `berkeley.c` use of `wsk.h`: the functions of a provider's
sockets, the dispatch tables by kind of socket in the order the header declares,
the arguments the code passes and the lists of addresses.

A `KSOCKET` holds the address of its socket's table in a union of pointers to
the kinds of tables, and a call goes through one of them, its *view*: it takes
the place the function has in the view's table, in the table the socket has.
-/

namespace KSock

/-! ## Status values -/

abbrev NTSTATUS := BitVec 32

def STATUS_SUCCESS : NTSTATUS := 0x00000000
def STATUS_PENDING : NTSTATUS := 0x00000103
def STATUS_UNSUCCESSFUL : NTSTATUS := 0xC0000001
def STATUS_INSUFFICIENT_RESOURCES : NTSTATUS := 0xC000009A

/-- `NT_SUCCESS` -/
def ntSuccess (Status : NTSTATUS) : Bool := 0 ≤ Status.toInt

@[simp] theorem ntSuccess_success : ntSuccess STATUS_SUCCESS = true := by decide
@[simp] theorem ntSuccess_insufficient : ntSuccess STATUS_INSUFFICIENT_RESOURCES = false := by decide

/-- `IO_STATUS_BLOCK`. `Information` is a count of bytes or an address. -/
structure IoStatusBlock where
  Status : NTSTATUS
  Information : Nat
  deriving DecidableEq, Repr

/-! ## Sockets and their tables -/

def WSK_FLAG_LISTEN_SOCKET : UInt32 := 1
def WSK_FLAG_CONNECTION_SOCKET : UInt32 := 2
def WSK_FLAG_DATAGRAM_SOCKET : UInt32 := 4

inductive SocketKind where
  | basic
  | listen
  | connection
  | datagram
  deriving DecidableEq, Repr

/-- The kind of socket `WskSocket` makes for its flags. -/
def SocketKind.ofFlags (Flags : UInt32) : SocketKind :=
  if Flags = WSK_FLAG_LISTEN_SOCKET then .listen
  else if Flags = WSK_FLAG_CONNECTION_SOCKET then .connection
  else if Flags = WSK_FLAG_DATAGRAM_SOCKET then .datagram
  else .basic

/-- The functions of the four dispatch tables. -/
inductive WskFn where
  | WskControlSocket
  | WskCloseSocket
  | WskBind
  | WskConnect
  | WskGetLocalAddress
  | WskGetRemoteAddress
  | WskSend
  | WskReceive
  | WskDisconnect
  | WskReleaseDataIndicationList
  | WskConnectEx
  | WskSendEx
  | WskReceiveEx
  | WskAccept
  | WskInspectComplete
  | WskSendTo
  | WskReceiveFrom
  | WskReleaseDatagramIndicationList
  | WskSendMessages
  deriving DecidableEq, Repr

/-- `WSK_PROVIDER_BASIC_DISPATCH`, with which the other tables start. -/
def basicDispatch : List WskFn := [.WskControlSocket, .WskCloseSocket]

/-- `WSK_PROVIDER_CONNECTION_DISPATCH` -/
def connectionDispatch : List WskFn :=
  basicDispatch ++ [.WskBind, .WskConnect, .WskGetLocalAddress, .WskGetRemoteAddress, .WskSend, .WskReceive,
    .WskDisconnect, .WskReleaseDataIndicationList, .WskConnectEx, .WskSendEx, .WskReceiveEx]

/-- `WSK_PROVIDER_LISTEN_DISPATCH` -/
def listenDispatch : List WskFn :=
  basicDispatch ++ [.WskBind, .WskAccept, .WskInspectComplete, .WskGetLocalAddress]

/-- `WSK_PROVIDER_DATAGRAM_DISPATCH` -/
def datagramDispatch : List WskFn :=
  basicDispatch ++ [.WskBind, .WskSendTo, .WskReceiveFrom, .WskReleaseDatagramIndicationList, .WskGetLocalAddress,
    .WskSendMessages]

def SocketKind.table : SocketKind → List WskFn
  | basic => basicDispatch
  | listen => listenDispatch
  | connection => connectionDispatch
  | datagram => datagramDispatch

/-- The place of a function in the table of a view. -/
def slot (view : SocketKind) (fn : WskFn) : Nat := view.table.idxOf fn

/-- What is called when `fn` is called through `view` on a socket of the kind:
nothing known if the place is past the end of the socket's table. -/
def reached (kind view : SocketKind) (fn : WskFn) : Option WskFn := kind.table[slot view fn]?

/-- The place of the parameter `Irp` in the prototype of a function. Two
functions take none, and two are reserved and have no prototype. -/
def WskFn.irpParameter : WskFn → Option Nat
  | WskControlSocket => some 9
  | WskCloseSocket => some 1
  | WskBind | WskConnect | WskSend | WskReceive | WskDisconnect | WskInspectComplete => some 3
  | WskGetLocalAddress | WskGetRemoteAddress => some 2
  | WskConnectEx => some 4
  | WskAccept | WskSendTo | WskSendMessages => some 6
  | WskReceiveFrom => some 7
  | WskReleaseDataIndicationList | WskReleaseDatagramIndicationList | WskSendEx | WskReceiveEx => none

/-- The views and functions of the calls in `ksocket.c`. -/
def sites : List (SocketKind × WskFn) :=
  [(.connection, .WskCloseSocket), (.listen, .WskBind), (.listen, .WskAccept), (.connection, .WskBind),
    (.connection, .WskConnect), (.connection, .WskSend), (.connection, .WskReceive), (.datagram, .WskSendTo),
    (.datagram, .WskReceiveFrom)]

/-- Each function is at the place its call reads in all the tables that have it. -/
theorem reached_iff {view : SocketKind} {fn : WskFn} (hsite : (view, fn) ∈ sites) (kind : SocketKind) :
    reached kind view fn = some fn ↔ fn ∈ kind.table := by
  constructor
  · exact fun h => List.mem_of_getElem? h
  · simp only [sites, List.mem_cons, Prod.mk.injEq, List.not_mem_nil, or_false] at hsite
    rcases hsite with ⟨rfl, rfl⟩ | ⟨rfl, rfl⟩ | ⟨rfl, rfl⟩ | ⟨rfl, rfl⟩ | ⟨rfl, rfl⟩ | ⟨rfl, rfl⟩ | ⟨rfl, rfl⟩ |
      ⟨rfl, rfl⟩ | ⟨rfl, rfl⟩ <;> cases kind <;> decide

/-! ## Address lists -/

/-- A string in a block of its own. -/
structure Str (C : Type) where
  Buffer : Nat
  text : List C
  deriving DecidableEq, Repr

/-- The record of a list at the address `block`, with the fields both kinds of
lists have. `ai_next` is the rest of the list, and NULL the empty list. -/
structure AddrInfo (C : Type) where
  block : Nat
  ai_flags : Int32
  ai_family : Int32
  ai_socktype : Int32
  ai_protocol : Int32
  ai_addrlen : UInt64
  ai_canonname : Option (Str C)
  ai_addr : Option Nat
  deriving DecidableEq, Repr

abbrev ADDRINFOA := AddrInfo UInt8

structure ADDRINFOEXW extends AddrInfo UInt16 where
  ai_blob : Option Nat
  ai_bloblen : UInt64
  ai_provider : Option Nat
  deriving DecidableEq, Repr

/-- The blocks that belong to a record alone. -/
def AddrInfo.own {C : Type} (a : AddrInfo C) : List Nat := a.block :: (a.ai_canonname.map Str.Buffer).toList

/-- The blocks that are reached from a record. -/
def AddrInfo.reachable {C : Type} (a : AddrInfo C) : List Nat := a.own ++ a.ai_addr.toList

/-! ## Requests -/

/-- An enumeration, which takes 32 bits. -/
abbrev ADDRESS_FAMILY := UInt32

/-- The fields of `SOCKADDR_IN` the code sets. -/
structure SOCKADDR where
  sin_family : UInt16
  sin_port : UInt16
  sin_addr : UInt32
  deriving DecidableEq, Repr

def AF_INET : UInt16 := 2
def INADDR_ANY : UInt32 := 0

/-- `WSK_BUF`, with the address its `Mdl` was made for. -/
structure WskBuf where
  Buffer : Nat
  Offset : UInt32
  Length : UInt64
  deriving DecidableEq, Repr

/-- A call of a provider's function that is given an IRP. -/
inductive WskCall where
  | WskSocket (AddressFamily : ADDRESS_FAMILY) (SocketType : UInt16) (Protocol : UInt32) (Flags : UInt32)
  | WskCloseSocket
  | WskBind (LocalAddress : SOCKADDR)
  | WskConnect (RemoteAddress : SOCKADDR)
  | WskAccept
  | WskSend (Buffer : WskBuf) (Flags : UInt32)
  | WskReceive (Buffer : WskBuf) (Flags : UInt32)
  | WskSendTo (Buffer : WskBuf) (Flags : UInt32) (RemoteAddress : Nat)
  | WskReceiveFrom (Buffer : WskBuf) (Flags : UInt32) (RemoteAddress : Nat)
  | WskGetAddressInfo (NodeName ServiceName : Option (List UInt16)) (Hints : List ADDRINFOEXW)
  deriving DecidableEq, Repr

/-- The function a call names in a socket's table. The other two are in the
client's own table. -/
def WskCall.fn : WskCall → Option WskFn
  | WskSocket _ _ _ _ => none
  | WskCloseSocket => some .WskCloseSocket
  | WskBind _ => some .WskBind
  | WskConnect _ => some .WskConnect
  | WskAccept => some .WskAccept
  | WskSend _ _ => some .WskSend
  | WskReceive _ _ => some .WskReceive
  | WskSendTo _ _ _ => some .WskSendTo
  | WskReceiveFrom _ _ _ => some .WskReceiveFrom
  | WskGetAddressInfo _ _ _ => none

end KSock
