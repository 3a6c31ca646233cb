import KSock.Lib.Run
import KSock.Lib.Word
import KSock.Wsk
/-!
# `KSocket` and its two buffers

The class of `ksocket.cpp` wraps a descriptor and two byte vectors: what is
appended to `m_sendBuffer` goes out with `send`, and `recv` puts what came in at
the end of `m_recvBuffer`, from where it is consumed.

`recv` grows the vector by `max_recv_size` before it asks for data and cuts it
back to what arrived only if something did. So the buffers mirror the two byte
streams exactly as long as every `recv` of a positive size gets something.
-/
open KSockLib KSockLib.Word

namespace KSock

/-- The codes of `getLastError`. -/
def KSE_SUCCESS : Int := 0
def KSE_SETUP_IMPL_NULL : Int := 1
def KSE_SETUP_INVALID_SOCKET_TYPE : Int := 2
def KSE_SETUP_UNSUPPORTED_SOCKET_TYPE : Int := 3
def KSE_ACCEPT_FAILED : Int := 4
def KSE_INVALID_SOCKET : Int := 5

/-- `eastl::vector<uint8_t>` -/
abbrev KBuffer := List UInt8

namespace KBuffer

/-- `resize` cuts the vector or fills it up with zeros. -/
def resize (b : KBuffer) (n : Nat) : KBuffer := b.take n ++ List.replicate (n - b.length) 0

/-- `insert` before the `i`-th byte. -/
def insert (b : KBuffer) (i : Nat) (bs : List UInt8) : KBuffer := b.take i ++ bs ++ b.drop i

/-- A store of `bs` at `data() + i`, if the vector is long enough. -/
def store (b : KBuffer) (i : Nat) (bs : List UInt8) : Option KBuffer :=
  if i + bs.length ≤ b.length then some (b.take i ++ bs ++ b.drop (i + bs.length)) else none

theorem resize_same (b : KBuffer) : b.resize b.length = b := by
  simp [resize]

@[simp] theorem length_resize (b : KBuffer) (n : Nat) : (b.resize n).length = n := by
  simp only [resize, List.length_append, List.length_take, List.length_replicate]
  omega

theorem resize_of_le (b bs : KBuffer) : (b ++ bs).resize b.length = b := by
  simp [resize, Nat.sub_eq_zero_of_le]

theorem store_nil {b : KBuffer} {i : Nat} (h : i ≤ b.length) : b.store i [] = some b := by
  simp [store, h]

theorem store_fits {b b' : KBuffer} {i : Nat} {bs : List UInt8} (h : b.store i bs = some b') :
    i + bs.length ≤ b.length := by
  by_contra hlt
  rw [store, if_neg hlt] at h
  cases h

theorem length_store {b b' : KBuffer} {i : Nat} {bs : List UInt8} (h : b.store i bs = some b') :
    b'.length = b.length := by
  have hfits := store_fits h
  rw [store, if_pos hfits] at h
  obtain rfl := Option.some.inj h
  simp only [List.length_append, List.length_take, List.length_drop]
  omega

/-- Grow by `n`, store at the old end, cut off the rest. -/
theorem store_resize {b : KBuffer} {bs : List UInt8} {n : Nat} (h : bs.length ≤ n) :
    ∃ b', (b.resize (b.length + n)).store b.length bs = some b' ∧ b'.resize (b.length + bs.length) = b ++ bs := by
  have hlen : b.length + bs.length ≤ (b.resize (b.length + n)).length := by
    rw [length_resize]
    omega
  have hall : b.take (b.length + n) = b := List.take_of_length_le (Nat.le_add_right _ _)
  have hfront : (b.resize (b.length + n)).take b.length = b := by rw [resize, hall, List.take_left]
  refine ⟨_, if_pos hlen, ?_⟩
  rw [hfront, ← List.length_append]
  exact resize_of_le (b ++ bs) _

end KBuffer

structure KSocketBuffer where
  buffer : KBuffer
  deriving DecidableEq, Repr

namespace KSocketBuffer

def size (b : KSocketBuffer) : Nat := b.buffer.length

def insertBytebuffer (b : KSocketBuffer) (it : Nat) (bytebuffer : List UInt8) : KSocketBuffer :=
  ⟨b.buffer.insert it bytebuffer⟩

/-- No amount, or too large a one, stands for everything. -/
def consume (b : KSocketBuffer) (amountBytes : Nat) : KSocketBuffer :=
  let amountBytes := if amountBytes = 0 ∨ amountBytes > b.size then b.size else amountBytes
  ⟨b.buffer.drop amountBytes⟩

end KSocketBuffer

inductive KSocketType where
  | KST_INVALID
  | KST_STREAM_CLIENT_IP4
  | KST_STREAM_SERVER_IP4
  | KST_STREAM_CLIENT_IP6
  | KST_STREAM_SERVER_IP6
  | KST_DATAGRAM_IP4
  | KST_DATAGRAM_IP6
  deriving DecidableEq, Repr

structure KSocketImplCommon where
  domain : ADDRESS_FAMILY
  type : Int
  proto : Int
  deriving DecidableEq, Repr

structure KSocketImpl where
  s : Int
  c : KSocketImplCommon
  deriving DecidableEq, Repr

/-- What `m_socket` points to is its value here. -/
structure KSocket where
  m_sendBuffer : KSocketBuffer
  m_recvBuffer : KSocketBuffer
  m_socketType : KSocketType
  m_socket : Option KSocketImpl
  m_lastError : Int
  deriving DecidableEq, Repr

/-- What `::recv` comes to: at least one byte, or a value that is not positive. -/
inductive Received where
  | data (bs : List UInt8) (pos : 1 ≤ bs.length) (int : bs.length < 2 ^ 31)
  | nothing (retval : Int) (le : retval ≤ 0)

namespace Received

def bytes : Received → List UInt8
  | data bs _ _ => bs
  | nothing _ _ => []

def retval : Received → Int
  | data bs _ _ => bs.length
  | nothing retval _ => retval

end Received

namespace KSocket

/-- The socket `sanityCheck` accepts. -/
def valid (k : KSocket) : Bool := k.m_socket.any (·.s ≥ 0)

def sanityCheck (k : KSocket) : Bool × KSocket :=
  if k.valid then (true, k) else (false, { k with m_lastError := KSE_INVALID_SOCKET })

/-- `::send` returns `bsdSend n` for `n` bytes. -/
def send (k : KSocket) (bsdSend : Nat → Int) : Bool × KSocket :=
  let k := { k with m_lastError := KSE_SUCCESS }
  match k.sanityCheck with
  | (false, k) => (false, k)
  | (true, k) =>
    if k.m_sendBuffer.size = 0 then (false, k) else
    let k := { k with m_lastError := bsdSend k.m_sendBuffer.size }
    if 0 < k.m_lastError then
      (true, { k with m_sendBuffer := ⟨k.m_sendBuffer.buffer.drop k.m_lastError.toNat⟩ })
    else (false, k)

/-- `::recv` comes to `bsdRecv n` when asked for `n` bytes. The method has no
result if it stores outside the vector. -/
def recv (k : KSocket) (maxRecvSize : Nat) (bsdRecv : Nat → Received) : Option (Bool × KSocket) :=
  let currentSize := k.m_recvBuffer.size
  match k.sanityCheck with
  | (false, k) => some (false, k)
  | (true, k) =>
    let grown := k.m_recvBuffer.buffer.resize (addW 64 currentSize maxRecvSize)
    let r := bsdRecv maxRecvSize
    let k : KSocket := { k with m_lastError := r.retval }
    match grown.store currentSize r.bytes with
    | none => none
    | some filled =>
      if 0 < k.m_lastError then
        some (true, { k with m_recvBuffer := ⟨filled.resize (addW 64 currentSize k.m_lastError.toNat)⟩ })
      else some (false, { k with m_recvBuffer := ⟨filled⟩ })

end KSocket

/-! ## Runs -/

namespace KSocket

/-- The calls a program makes on a `KSocket`, with what the BSD call under each does. -/
inductive Call where
  | append (bs : List UInt8)
  | consume (amountBytes : UInt64)
  | send (bsdSend : Nat → Int) (takes : ∀ n, bsdSend n ≤ n)
  | recv (maxRecvSize : UInt64) (bsdRecv : Nat → Received) (brings : ∀ n, (bsdRecv n).bytes.length ≤ n)

/-- A socket and everything that was appended, sent, received and consumed. -/
structure History where
  socket : KSocket
  appended : List UInt8
  sent : List UInt8
  received : List UInt8
  consumed : List UInt8

def start (k : KSocket) : History :=
  ⟨{ k with m_sendBuffer := ⟨[]⟩, m_recvBuffer := ⟨[]⟩ }, [], [], [], []⟩

/-- The bytes that `::send` transmits, if `send` comes to call it. -/
def transmitted (k : KSocket) (bsdSend : Nat → Int) : List UInt8 :=
  if k.valid ∧ k.m_sendBuffer.size ≠ 0 then k.m_sendBuffer.buffer.take (bsdSend k.m_sendBuffer.size).toNat else []

/-- What a call returns, and the history after it. -/
def call (h : History) : Call → Option (Bool × History)
  | .append bs =>
    let b := h.socket.m_sendBuffer
    some (true, { h with
      socket := { h.socket with m_sendBuffer := b.insertBytebuffer b.size bs }
      appended := h.appended ++ bs })
  | .consume n =>
    let b := h.socket.m_recvBuffer
    let b' := b.consume n.toNat
    some (true, { h with
      socket := { h.socket with m_recvBuffer := b' }
      consumed := h.consumed ++ b.buffer.take (b.size - b'.size) })
  | .send bsdSend _ =>
    let r := h.socket.send bsdSend
    some (r.1, { h with socket := r.2, sent := h.sent ++ h.socket.transmitted bsdSend })
  | .recv n bsdRecv _ =>
    (h.socket.recv n.toNat bsdRecv).map fun r => (r.1, { h with
      socket := r.2
      received := h.received ++ if h.socket.valid then (bsdRecv n.toNat).bytes else [] })

def step (h : History) (c : Call) : Option History := (call h c).map (·.2)

/-- The buffers hold exactly what is on its way in either direction. -/
structure Mirrors (h : History) : Prop where
  outgoing : h.sent ++ h.socket.m_sendBuffer.buffer = h.appended
  incoming : h.consumed ++ h.socket.m_recvBuffer.buffer = h.received

/-- The call returns with the buffers mirroring the streams, and unchanged if it
returns false. -/
def Sound (h : History) (c : Call) : Prop :=
  ∃ ok h', call h c = some (ok, h') ∧ Mirrors h' ∧ (ok = false →
    h'.socket.m_sendBuffer = h.socket.m_sendBuffer ∧ h'.socket.m_recvBuffer = h.socket.m_recvBuffer)

/-- A `recv` on a socket asks for no more than a `size_t` can count, and for
nothing or gets something. -/
def Brings (h : History) : Call → Prop
  | .recv n bsdRecv _ => h.socket.valid = true →
      h.socket.m_recvBuffer.size + n.toNat < 2 ^ 64 ∧ (n = 0 ∨ 0 < (bsdRecv n.toNat).retval)
  | _ => True

/-! ## One call -/

variable {h : History}

theorem append_sound (hm : Mirrors h) (bs : List UInt8) : Sound h (.append bs) := by
  refine ⟨_, _, rfl, ⟨?_, hm.incoming⟩, by simp⟩
  simp only [KSocketBuffer.insertBytebuffer, KSocketBuffer.size, KBuffer.insert, List.take_length, List.drop_length,
    List.append_nil, ← List.append_assoc, hm.outgoing]

/-- `consume` takes bytes off the front. -/
theorem consume_split (b : KSocketBuffer) (n : Nat) :
    b.buffer.take (b.size - (b.consume n).size) ++ (b.consume n).buffer = b.buffer := by
  have hle : (if n = 0 ∨ n > b.size then b.size else n) ≤ b.buffer.length := by
    rw [KSocketBuffer.size]
    split <;> omega
  simp only [KSocketBuffer.consume]
  generalize (if n = 0 ∨ n > b.size then b.size else n) = k at hle
  have hk : b.size - KSocketBuffer.size ⟨b.buffer.drop k⟩ = k := by
    simp only [KSocketBuffer.size, List.length_drop]
    omega
  rw [hk, List.take_append_drop]

theorem consume_sound (hm : Mirrors h) (n : UInt64) : Sound h (.consume n) := by
  refine ⟨_, _, rfl, ⟨hm.outgoing, ?_⟩, by simp⟩
  simp only [List.append_assoc, consume_split, hm.incoming]

/-- `send` takes what went out off the front, and nothing if it returns false. -/
theorem send_spec (k : KSocket) (bsdSend : Nat → Int) :
    k.transmitted bsdSend ++ (k.send bsdSend).2.m_sendBuffer.buffer = k.m_sendBuffer.buffer ∧
      (k.send bsdSend).2.m_recvBuffer = k.m_recvBuffer ∧
      ((k.send bsdSend).1 = false → (k.send bsdSend).2.m_sendBuffer = k.m_sendBuffer) := by
  have hvalid : valid { k with m_lastError := KSE_SUCCESS } = k.valid := rfl
  unfold transmitted send sanityCheck
  simp only [hvalid]
  cases k.valid with
  | false => exact ⟨rfl, rfl, fun _ => rfl⟩
  | true =>
    simp only [if_true, true_and]
    by_cases hsize : k.m_sendBuffer.size = 0
    · simp [hsize]
    by_cases hsent : 0 < bsdSend k.m_sendBuffer.size
    · simp [hsize, hsent]
    · -- nothing was transmitted
      have hnone : (bsdSend k.m_sendBuffer.size).toNat = 0 := by omega
      simp [hsize, hsent, hnone]

theorem send_sound (hm : Mirrors h) (bsdSend : Nat → Int) (takes : ∀ n, bsdSend n ≤ n) :
    Sound h (.send bsdSend takes) := by
  obtain ⟨hout, hrecv, hkept⟩ := send_spec h.socket bsdSend
  refine ⟨_, _, rfl, ⟨?_, by simp only [hrecv, hm.incoming]⟩, fun hfalse => ⟨hkept hfalse, hrecv⟩⟩
  simp only [List.append_assoc, hout, hm.outgoing]

/-- `recv` on a valid socket. -/
theorem recv_eq {k : KSocket} (hv : k.valid = true) (n : Nat) (bsdRecv : Nat → Received) :
    k.recv n bsdRecv =
      ((k.m_recvBuffer.buffer.resize (addW 64 k.m_recvBuffer.size n)).store k.m_recvBuffer.size (bsdRecv n).bytes).map
        fun filled =>
          if 0 < (bsdRecv n).retval then
            (true, { k with
              m_recvBuffer := ⟨filled.resize (addW 64 k.m_recvBuffer.size (bsdRecv n).retval.toNat)⟩
              m_lastError := (bsdRecv n).retval })
          else (false, { k with m_recvBuffer := ⟨filled⟩, m_lastError := (bsdRecv n).retval }) := by
  simp only [recv, sanityCheck, hv, if_true]
  split
  · rename_i hs
    simp [hs]
  · rename_i hs
    simp only [hs, Option.map_some]
    split <;> rfl

theorem call_recv {n : UInt64} {bsdRecv : Nat → Received} {ok : Bool} {k : KSocket}
    (hrecv : h.socket.recv n.toNat bsdRecv = some (ok, k)) (brings : ∀ n, (bsdRecv n).bytes.length ≤ n) :
    call h (.recv n bsdRecv brings) = some (ok, { h with
      socket := k
      received := h.received ++ if h.socket.valid then (bsdRecv n.toNat).bytes else [] }) := by
  rw [call, hrecv]
  rfl

theorem recv_invalid_sound (hm : Mirrors h) (hv : h.socket.valid = false) (n : UInt64) (bsdRecv : Nat → Received)
    (brings : ∀ n, (bsdRecv n).bytes.length ≤ n) : Sound h (.recv n bsdRecv brings) := by
  have hrecv : h.socket.recv n.toNat bsdRecv = some (false, { h.socket with m_lastError := KSE_INVALID_SOCKET }) := by
    simp [recv, sanityCheck, hv]
  refine ⟨_, _, call_recv hrecv brings, ⟨hm.outgoing, ?_⟩, fun _ => ⟨rfl, rfl⟩⟩
  simp only [hv, Bool.false_eq_true, if_false, List.append_nil, hm.incoming]

/-- If nothing arrives, the vector must not have grown: nothing was asked for. -/
theorem recv_nothing_sound_iff (hm : Mirrors h) (hsize : h.socket.m_recvBuffer.size < 2 ^ 64)
    (hv : h.socket.valid = true) (n : UInt64) (bsdRecv : Nat → Received)
    (brings : ∀ n, (bsdRecv n).bytes.length ≤ n) {retval : Int} {le : retval ≤ 0}
    (hr : bsdRecv n.toNat = .nothing retval le) : Sound h (.recv n bsdRecv brings) ↔ n = 0 := by
  have hn := n.toNat_lt
  have hrecv := recv_eq hv n.toNat bsdRecv
  simp only [hr, Received.bytes, Received.retval, if_neg (Int.not_lt.2 le)] at hrecv
  constructor
  · rintro ⟨ok, h', hcall, hm', -⟩
    rw [call, hrecv, Option.map_map] at hcall
    obtain ⟨filled, hs, he⟩ := Option.map_eq_some_iff.1 hcall
    have hfits := KBuffer.store_fits hs
    rw [List.length_nil, Nat.add_zero, KBuffer.length_resize] at hfits
    obtain rfl : _ = filled := Option.some.inj ((KBuffer.store_nil (by rwa [KBuffer.length_resize])).symm.trans hs)
    obtain ⟨-, rfl⟩ := Prod.mk.inj he
    have hin := hm'.incoming
    simp only [hv, if_true, hr, Received.bytes, List.append_nil, ← hm.incoming, List.append_cancel_left_eq] at hin
    have hlen := congrArg List.length hin
    rw [KBuffer.length_resize, ← KSocketBuffer.size, addW] at hlen
    rw [← UInt64.toNat_inj]
    simp only [UInt64.toNat_zero]
    omega
  · rintro rfl
    have hN : addW 64 h.socket.m_recvBuffer.size (0 : UInt64).toNat = h.socket.m_recvBuffer.buffer.length := by
      rw [addW_eq (by simpa using hsize)]
      rfl
    rw [hN, KBuffer.resize_same, KBuffer.store_nil (Nat.le_refl h.socket.m_recvBuffer.size)] at hrecv
    refine ⟨_, _, call_recv hrecv brings, ⟨hm.outgoing, ?_⟩, fun _ => ⟨rfl, rfl⟩⟩
    simp only [hv, if_true, hr, Received.bytes, List.append_nil, hm.incoming]

/-- If something arrives, the sum of the sizes must not have wrapped. -/
theorem recv_data_sound_iff (hm : Mirrors h) (hsize : h.socket.m_recvBuffer.size < 2 ^ 64)
    (hv : h.socket.valid = true) (n : UInt64) (bsdRecv : Nat → Received)
    (brings : ∀ n, (bsdRecv n).bytes.length ≤ n) {bs : List UInt8} {pos : 1 ≤ bs.length} {int : bs.length < 2 ^ 31}
    (hr : bsdRecv n.toNat = .data bs pos int) :
    Sound h (.recv n bsdRecv brings) ↔ h.socket.m_recvBuffer.size + n.toNat < 2 ^ 64 := by
  have hn := n.toNat_lt
  have hb := brings n.toNat
  have hrecv := recv_eq hv n.toNat bsdRecv
  rw [hr, Received.bytes] at hb
  simp only [hr, Received.bytes, Received.retval, if_pos (show (0 : Int) < bs.length by omega), Int.toNat_natCast] at hrecv
  constructor
  · rintro ⟨ok, h', hcall, -, -⟩
    rw [call, hrecv, Option.map_map] at hcall
    obtain ⟨filled, hs, -⟩ := Option.map_eq_some_iff.1 hcall
    have hfits := KBuffer.store_fits hs
    rw [KBuffer.length_resize, addW] at hfits
    omega
  · intro hfit
    obtain ⟨filled, hs, hcut⟩ := KBuffer.store_resize (b := h.socket.m_recvBuffer.buffer) hb
    have hlen : h.socket.m_recvBuffer.size = h.socket.m_recvBuffer.buffer.length := rfl
    rw [hlen] at hfit
    rw [hlen, addW_eq hfit, hs, Option.map_some, addW_eq (by omega), hcut] at hrecv
    refine ⟨_, _, call_recv hrecv brings, ⟨hm.outgoing, ?_⟩, by simp⟩
    simp only [hv, if_true, hr, Received.bytes, ← hm.incoming, List.append_assoc]

theorem recv_sound_iff (hm : Mirrors h) (hsize : h.socket.m_recvBuffer.size < 2 ^ 64) (n : UInt64)
    (bsdRecv : Nat → Received) (brings : ∀ n, (bsdRecv n).bytes.length ≤ n) :
    Sound h (.recv n bsdRecv brings) ↔ Brings h (.recv n bsdRecv brings) := by
  cases hv : h.socket.valid with
  | false => exact iff_of_true (recv_invalid_sound hm hv n bsdRecv brings) (by simp [Brings, hv])
  | true =>
    simp only [Brings, hv, true_imp_iff]
    cases hr : bsdRecv n.toNat with
    | nothing retval le =>
      rw [recv_nothing_sound_iff hm hsize hv n bsdRecv brings hr]
      simp only [Received.retval, Int.not_lt.2 le, or_false]
      exact ⟨fun h0 => ⟨by rw [h0]; simpa using hsize, h0⟩, fun h0 => h0.2⟩
    | data bs pos int =>
      rw [recv_data_sound_iff hm hsize hv n bsdRecv brings hr]
      simp only [Received.retval]
      exact ⟨fun hfit => ⟨hfit, .inr (by omega)⟩, fun hfit => hfit.1⟩

/-! ## Runs -/

theorem sound_iff (hm : Mirrors h) (hsize : h.socket.m_recvBuffer.size < 2 ^ 64) (c : Call) :
    Sound h c ↔ Brings h c := by
  cases c with
  | append bs => exact iff_of_true (append_sound hm bs) trivial
  | consume n => exact iff_of_true (consume_sound hm n) trivial
  | send bsdSend takes => exact iff_of_true (send_sound hm bsdSend takes) trivial
  | recv n bsdRecv brings => exact recv_sound_iff hm hsize n bsdRecv brings

theorem recv_size {k k' : KSocket} {n : Nat} {bsdRecv : Nat → Received} {ok : Bool}
    (hsize : k.m_recvBuffer.size < 2 ^ 64) (hrecv : k.recv n bsdRecv = some (ok, k')) :
    k'.m_recvBuffer.size < 2 ^ 64 := by
  cases hv : k.valid with
  | false =>
    simp only [recv, sanityCheck, hv, Bool.false_eq_true, if_false, Option.some.injEq, Prod.mk.injEq] at hrecv
    rwa [← hrecv.2]
  | true =>
    rw [recv_eq hv] at hrecv
    obtain ⟨filled, hs, he⟩ := Option.map_eq_some_iff.1 hrecv
    have hlen := KBuffer.length_store hs
    rw [KBuffer.length_resize] at hlen
    split at he <;> cases he
    · rw [KSocketBuffer.size, KBuffer.length_resize]
      exact addW_lt _ _ _
    · rw [KSocketBuffer.size, hlen]
      exact addW_lt _ _ _

/-- The receive buffer's size stays a `size_t`. -/
theorem step_size (hsize : h.socket.m_recvBuffer.size < 2 ^ 64) {c : Call} {h' : History} (hs : step h c = some h') :
    h'.socket.m_recvBuffer.size < 2 ^ 64 := by
  obtain ⟨⟨ok, h''⟩, hcall, rfl⟩ := Option.map_eq_some_iff.1 hs
  cases c with
  | append bs =>
    cases hcall
    exact hsize
  | consume n =>
    cases hcall
    have : (h.socket.m_recvBuffer.consume n.toNat).size ≤ h.socket.m_recvBuffer.size := by
      simp [KSocketBuffer.consume, KSocketBuffer.size]
    exact Nat.lt_of_le_of_lt this hsize
  | send bsdSend takes =>
    cases hcall
    rwa [← (send_spec h.socket bsdSend).2.1] at hsize
  | recv n bsdRecv brings =>
    obtain ⟨⟨ok', k⟩, hrecv, he⟩ := Option.map_eq_some_iff.1 hcall
    cases he
    exact recv_size hsize hrecv

/-- The buffers mirror the streams all along a run exactly if every `recv` of it
that asks for data gets some, and asks for no more than fits a `size_t`. -/
theorem mirrors_iff_brings (k : KSocket) (calls : List Call) :
    (∀ x ∈ Run.visits step (start k) calls, Sound x.1 x.2) ↔ ∀ x ∈ Run.visits step (start k) calls, Brings x.1 x.2 := by
  refine Run.visits_iff (I := fun h => Mirrors h ∧ h.socket.m_recvBuffer.size < 2 ^ 64)
    (fun h c hi => sound_iff hi.1 hi.2 c) ?_ ⟨⟨rfl, rfl⟩, by simp [start, KSocketBuffer.size]⟩ calls
  rintro h c h' ⟨-, hsize⟩ ⟨ok, h'', hcall, hm, -⟩ hs
  obtain rfl : h'' = h' := by
    rw [step, hcall] at hs
    exact Option.some.inj hs
  exact ⟨hm, step_size hsize hs⟩

/-- The peer has closed the connection: `recv` reports it, and leaves a zero byte. -/
theorem closed_connection_adds_byte :
    ¬ ∀ (k : KSocket) (calls : List Call), ∀ x ∈ Run.visits step (start k) calls, Sound x.1 x.2 := by
  intro h
  let k : KSocket := ⟨⟨[]⟩, ⟨[]⟩, .KST_STREAM_CLIENT_IP4, some ⟨0, ⟨2, 1, 6⟩⟩, 0⟩
  let c : Call := .recv 1 (fun _ => .nothing 0 (Int.le_refl 0)) fun _ => Nat.zero_le _
  obtain ⟨ok, h', hcall, hm, -⟩ := h k [c] (start k, c) List.mem_cons_self
  have hafter : (call (start k) c).map (fun r => r.2.consumed ++ r.2.socket.m_recvBuffer.buffer) = some [0] := by
    decide
  have hreceived : (call (start k) c).map (fun r => r.2.received) = some [] := by decide
  rw [hcall] at hafter hreceived
  rw [Option.map_some, hm.incoming] at hafter
  rw [Option.map_some] at hreceived
  exact absurd (hafter.symm.trans hreceived) (by decide)

end KSocket

end KSock
