import KSock.Methods
import Mathlib.Data.List.Basic
/-!
# The address of a peer

`accept` copies the address and the port of its peer as they are in the
`sockaddr_in`, in network order, and `to_string` makes a text of them. What
follows the colon in it is the flag `with_port` and not the port, so the text
says which host has connected, and nothing about the port.
-/
open KSockLib.Endian

namespace KSock

/-- `::to_string` of an unsigned number. -/
def decimal (n : Nat) : List Char := Nat.toDigits 10 n

namespace KSocketAddress

/-- `addr.u8[i]` -/
def u8 (a : KSocketAddress) (i : Nat) : UInt8 := a.addr.getD i 0

def toString (a : KSocketAddress) (with_port : Bool) : List Char :=
  if a.addr_used ≠ 4 then [] else
  decimal (a.u8 0).toNat ++ ['.'] ++ decimal (a.u8 1).toNat ++ ['.'] ++ decimal (a.u8 2).toNat ++ ['.'] ++
    decimal (a.u8 3).toNat ++ [':'] ++ decimal with_port.toNat

end KSocketAddress

/-! ## Peers -/

/-- An address in dotted order and a port in host order. -/
structure Peer where
  a : UInt8
  b : UInt8
  c : UInt8
  d : UInt8
  port : UInt16
  deriving DecidableEq, Repr

namespace Peer

/-- The `sockaddr_in` of a peer, whose fields are in network order. -/
def sockaddr (p : Peer) : SOCKADDR := ⟨AF_INET, htons p.port, loadU32 [p.a, p.b, p.c, p.d]⟩

def dotted (p : Peer) : List Char :=
  decimal p.a.toNat ++ ['.'] ++ decimal p.b.toNat ++ ['.'] ++ decimal p.c.toNat ++ ['.'] ++ decimal p.d.toNat

def text (p : Peer) : List Char := p.dotted ++ [':'] ++ decimal p.port.toNat

/-- A decimal number below a bound. -/
def number (bound : Nat) (digits : List Char) : Option Nat :=
  if digits ≠ [] ∧ digits.all Char.isDigit ∧ Nat.ofDigitChars 10 digits 0 < bound then
    some (Nat.ofDigitChars 10 digits 0)
  else none

/-- Reads four numbers with dots between them, a colon and a number. -/
def parse (text : List Char) : Option Peer :=
  match text.splitOn ':' with
  | [address, port] =>
    match address.splitOn '.' with
    | [a, b, c, d] => do
      let a ← number 256 a
      let b ← number 256 b
      let c ← number 256 c
      let d ← number 256 d
      let port ← number 65536 port
      return ⟨UInt8.ofNat a, UInt8.ofNat b, UInt8.ofNat c, UInt8.ofNat d, UInt16.ofNat port⟩
    | _ => none
  | _ => none

theorem number_decimal {bound n : Nat} (hn : n < bound) : number bound (decimal n) = some n := by
  have hdigits : (decimal n).all Char.isDigit = true := by
    rw [List.all_eq_true]
    intro c hc
    exact Nat.isDigit_of_mem_toDigits (by decide) (by decide) hc
  have hvalue : Nat.ofDigitChars 10 (decimal n) 0 = n := Nat.ofDigitChars_ten_toDigits
  rw [number, hvalue, if_pos ⟨Nat.toDigits_ne_nil, hdigits, hn⟩]

/-- A number has no character that is not a digit. -/
theorem not_mem_decimal {c : Char} (hc : c.isDigit = false) (n : Nat) : c ∉ decimal n := by
  intro hmem
  rw [Nat.isDigit_of_mem_toDigits (by decide) (by decide) hmem] at hc
  cases hc

theorem colon_not_mem_dotted (p : Peer) : ':' ∉ p.dotted := by
  have hdigits := not_mem_decimal (c := ':') (by decide)
  simp [dotted, hdigits]

theorem splitOn_text (p : Peer) : p.text.splitOn ':' = [p.dotted, decimal p.port.toNat] := by
  have hjoin : p.text = [':'].intercalate [p.dotted, decimal p.port.toNat] := by
    simp [text]
  rw [hjoin]
  apply List.splitOn_intercalate
  · intro part hpart
    rcases List.mem_pair.1 hpart with rfl | rfl
    · exact p.colon_not_mem_dotted
    · exact not_mem_decimal (by decide) _
  · exact List.cons_ne_nil _ _

theorem splitOn_dotted (p : Peer) :
    p.dotted.splitOn '.' = [decimal p.a.toNat, decimal p.b.toNat, decimal p.c.toNat, decimal p.d.toNat] := by
  have hjoin : p.dotted =
      ['.'].intercalate ([p.a, p.b, p.c, p.d].map fun byte => decimal byte.toNat) := by
    simp [dotted]
  rw [hjoin]
  apply List.splitOn_intercalate
  · intro part hpart
    obtain ⟨byte, -, rfl⟩ := List.mem_map.1 hpart
    exact not_mem_decimal (by decide) _
  · exact List.cons_ne_nil _ _

/-- The text of a peer is read as that peer. -/
theorem parse_text (p : Peer) : parse p.text = some p := by
  simp only [parse, splitOn_text, splitOn_dotted, number_decimal p.a.toNat_lt, number_decimal p.b.toNat_lt,
    number_decimal p.c.toNat_lt, number_decimal p.d.toNat_lt, number_decimal p.port.toNat_lt]
  simp

theorem text_injective : Function.Injective text := by
  intro p q h
  have hparse := congrArg parse h
  rw [parse_text, parse_text] at hparse
  exact Option.some.inj hparse

end Peer

/-! ## Accepted sockets -/

namespace KSocket

variable {k k' : KSocket} {newImpl : Bool} {bsdAccept : (s : Int) → Int × SOCKADDR} {ka : KAcceptedSocket}

/-- A successful `accept` has copied the fields. -/
theorem acceptSocket_remote (h : k.acceptSocket newImpl bsdAccept = (true, ka, k')) :
    ka.m_remote = ⟨4, storeU32 (bsdAccept k.impl.s).2.sin_addr, (bsdAccept k.impl.s).2.sin_port⟩ := by
  unfold acceptSocket sanityCheck at h
  cases hv : k.valid with
  | false => simp [hv] at h
  | true =>
    simp only [hv, if_true] at h
    by_cases hdomain : k.impl.c.domain = AF_INET.toUInt32
    · cases newImpl with
      | false => simp [hdomain] at h
      | true =>
        by_cases hs : (bsdAccept k.impl.s).1 < 0
        · simp [hdomain, hs] at h
        · rw [if_neg (not_not.2 hdomain), if_neg (by decide), if_pos hdomain, if_neg hs] at h
          cases h
          rfl
    · simp [hdomain] at h

/-- `accept` has made a socket for a peer. -/
def Accepts (k : KSocket) (p : Peer) (ka : KAcceptedSocket) : Prop :=
  ∃ newImpl bsdAccept k', k.acceptSocket newImpl bsdAccept = (true, ka, k') ∧ (bsdAccept k.impl.s).2 = p.sockaddr

variable {p : Peer}

/-- In memory the address of a `sockaddr_in` is in dotted order. -/
theorem storeU32_sockaddr (p : Peer) : storeU32 p.sockaddr.sin_addr = [p.a, p.b, p.c, p.d] :=
  storeU32_loadU32 rfl

/-- The text is that of a peer with the same address whose port is the flag. -/
theorem Accepts.toString_eq (h : k.Accepts p ka) (with_port : Bool) :
    ka.m_remote.toString with_port = { p with port := if with_port then 1 else 0 : Peer }.text := by
  obtain ⟨newImpl, bsdAccept, k', haccept, hpeer⟩ := h
  rw [acceptSocket_remote haccept, hpeer, storeU32_sockaddr]
  cases with_port <;> rfl

/-- For every peer that a socket was accepted for: the text of `m_remote` is the
dotted address, with a colon and the port if `with_port`, exactly for a peer
with port 1 and `with_port`; reading it gives the peer exactly if its port is 1;
and a different peer has a different text exactly if its address is different. -/
theorem remote_text_iff (h : k.Accepts p ka) :
    (∀ with_port, ka.m_remote.toString with_port = (if with_port then p.text else p.dotted) ↔
      with_port = true ∧ p.port = 1) ∧
    (Peer.parse (ka.m_remote.toString true) = some p ↔ p.port = 1) ∧
    ∀ (k₂ : KSocket) (p₂ : Peer) (ka₂ : KAcceptedSocket), k₂.Accepts p₂ ka₂ →
      ((p ≠ p₂ → ka.m_remote.toString true ≠ ka₂.m_remote.toString true) ↔
        p = p₂ ∨ ¬(p.a = p₂.a ∧ p.b = p₂.b ∧ p.c = p₂.c ∧ p.d = p₂.d)) := by
  have hport : ({ p with port := 1 } : Peer) = p ↔ p.port = 1 := by
    cases p
    simp [eq_comm]
  refine ⟨?_, ?_, ?_⟩
  · intro with_port
    rw [h.toString_eq]
    cases with_port with
    | true => simpa [Peer.text_injective.eq_iff] using hport
    | false =>
      -- there is a colon in the one and none in the other
      have hne : ({ p with port := 0 } : Peer).text ≠ p.dotted := by
        intro he
        apply p.colon_not_mem_dotted
        rw [← he]
        simp [Peer.text]
      simpa using hne
  · rw [h.toString_eq, Peer.parse_text]
    simpa using hport
  · intro k₂ p₂ ka₂ h₂
    have htexts : ka.m_remote.toString true = ka₂.m_remote.toString true ↔
        p.a = p₂.a ∧ p.b = p₂.b ∧ p.c = p₂.c ∧ p.d = p₂.d := by
      rw [h.toString_eq, h₂.toString_eq, Peer.text_injective.eq_iff]
      simp
    rw [Ne, Ne, htexts]
    tauto

/-- A stream server on descriptor 3. -/
def server : KSocket := { KSocket.new with m_socketType := .KST_STREAM_SERVER_IP4, m_socket := some ⟨3, ⟨AF_INET.toUInt32, 1, 6⟩⟩ }

/-- The peer with address 10.0.0.1 and a port. -/
def tenOne (port : UInt16) : Peer := ⟨10, 0, 0, 1, port⟩

/-- Accepted on descriptor 4. -/
def acceptedFrom (p : Peer) : KAcceptedSocket := (server.acceptSocket true fun _ => (4, p.sockaddr)).2.1

theorem server_accepts (p : Peer) : server.Accepts p (acceptedFrom p) :=
  ⟨true, fun _ => (4, p.sockaddr), server, rfl, rfl⟩

/-- The peer with port 1 gets its text. -/
theorem port_one_text : (acceptedFrom (tenOne 1)).m_remote.toString true = (tenOne 1).text :=
  ((remote_text_iff (server_accepts (tenOne 1))).1 true).2 ⟨rfl, rfl⟩

/-- Peers with ports 8080 and 443 both get 10.0.0.1:1, and without their port 10.0.0.1:0. -/
theorem ports_not_told :
    (acceptedFrom (tenOne 8080)).m_remote.toString true = ['1', '0', '.', '0', '.', '0', '.', '1', ':', '1'] ∧
      (acceptedFrom (tenOne 8080)).m_remote.toString true ≠ (tenOne 8080).text ∧
      (acceptedFrom (tenOne 8080)).m_remote.toString true = (acceptedFrom (tenOne 443)).m_remote.toString true ∧
      (acceptedFrom (tenOne 8080)).m_remote.toString false = ['1', '0', '.', '0', '.', '0', '.', '1', ':', '0'] ∧
      (acceptedFrom (tenOne 8080)).m_remote.toString false ≠ (tenOne 8080).dotted := by
  decide +kernel

end KSocket

end KSock
