import KSock.Berkeley
/-!
# Lengths and counts

`send`, `recv` and `sendto` take a 64-bit length, hand its low 32 bits on, and
return the provider's count of bytes as an `int`. The count comes back as it is
below 2^31 and negative from there on, where 2^32 - 1 looks like a failure. A
length that is a multiple of 2^32 asks for nothing. On a socket whose table lacks
the function, what is in its place is called instead, and nothing is known.
-/
open KSockLib Outcome

namespace KSock

inductive Transfer where
  | send
  | recv
  | sendto (destAddr : Nat)
  deriving DecidableEq, Repr

namespace Transfer

def call (t : Transfer) (sockfd : Int) (buf : Nat) (len : UInt64) (flags : Int) : BsdCall :=
  match t with
  | send => .send sockfd buf len flags
  | recv => .recv sockfd buf len flags
  | sendto destAddr => .sendto sockfd buf len flags destAddr

/-- The one request of a call. -/
def request (t : Transfer) (buf : Nat) (len : UInt64) (flags : Int) : WskCall :=
  let Buffer : WskBuf := ⟨buf, 0, len.toUInt32.toUInt64⟩
  match t with
  | send => .WskSend Buffer (UInt32.ofInt flags)
  | recv => .WskReceive Buffer (UInt32.ofInt flags)
  | sendto destAddr => .WskSendTo Buffer (UInt32.ofInt flags) destAddr

/-- The table it is made through. -/
def view : Transfer → SocketKind
  | send | recv => .connection
  | sendto _ => .datagram

/-- The function it is made to. -/
def fn : Transfer → WskFn
  | send => .WskSend
  | recv => .WskReceive
  | sendto _ => .WskSendTo

/-- What the provider completes the request with. -/
def outcome (t : Transfer) (E : Env) (b : Bsd) (s : KSOCKET) (buf : Nat) (len : UInt64) (flags : Int) :
    IoStatusBlock := (E.provider b.world.log (s.via t.view) (t.request buf len flags)).io

end Transfer

/-- How many bytes a request asks for. -/
def WskCall.length : WskCall → Option UInt64
  | WskSend Buffer _ | WskReceive Buffer _ | WskSendTo Buffer _ _ | WskReceiveFrom Buffer _ _ => some Buffer.Length
  | _ => none

/-- The result of a transfer tells what became of its request. -/
structure Faithful (len : UInt64) (ret : Int) (r : Request) : Prop where
  failure : ret = -1 ↔ ntSuccess r.io.Status = false
  count : ntSuccess r.io.Status = true → 0 ≤ ret ∧ ret = r.io.Information
  asks : 0 < len → r.call.length ≠ some 0
  zero : 0 < len → ret = 0 → r.io.Information = 0 ∧ r.call.length ≠ some 0

/-- The call makes its request and returns faithfully. -/
def Transfer.Survives (t : Transfer) (E : Env) (b : Bsd) (sockfd : Int) (buf : Nat) (len : UInt64) (flags : Int) :
    Prop :=
  ∃ ret b' r, b.call E (t.call sockfd buf len flags) = returns (ret, b') ∧ b'.world.log = b.world.log ++ [r] ∧
    r.call = t.request buf len flags ∧ Faithful len ret r

/-! ## One call -/

variable {E : Env} {b : Bsd} {sockfd : Int} {p id : Nat} {s : KSOCKET}

/-- An `int` has the value of a `ULONG` below 2^31, and is negative above. -/
theorem toInt_ofNat {n : Nat} (hn : n < 2 ^ 32) :
    (UInt32.ofNat n).toBitVec.toInt = if n < 2 ^ 31 then (n : Int) else n - 2 ^ 32 := by
  have htoNat : (UInt32.ofNat n).toBitVec.toNat = n := Nat.mod_eq_of_lt hn
  rw [BitVec.toInt_eq_toNat_cond, htoNat]
  split <;> split <;> omega

/-- A transfer leaves the status block as the provider completes it. -/
theorem Transfer.serve_request (t : Transfer) (w : World) (target : Target) (buf : Nat) (len : UInt64) (flags : Int)
    (io : IoStatusBlock) : (w.serve E target (t.request buf len flags) io).1 = io := by
  unfold World.serve
  cases t <;> (split <;> rfl)

/-- The `Ks` function under it. -/
def Transfer.ks (t : Transfer) (E : Env) (w : World) (Socket buf : Nat) (len : UInt64) (flags : Int) :
    Outcome Stray (NTSTATUS × UInt32 × World) :=
  match t with
  | send => Ks.ksSend E w Socket buf len.toUInt32 (UInt32.ofInt flags)
  | recv => Ks.ksRecv E w Socket buf len.toUInt32 (UInt32.ofInt flags)
  | sendto destAddr => Ks.ksSendTo E w Socket buf len.toUInt32 (UInt32.ofInt flags) destAddr

theorem Transfer.call_eq (t : Transfer) (hp : b.socketAt sockfd = some p) (buf : Nat) (len : UInt64) (flags : Int) :
    b.call E (t.call sockfd buf len flags) = (t.ks E b.world p buf len flags >>= fun r => returns (b.ofLength r)) := by
  cases t <;> simp only [call, ks, Bsd.call, Bsd.send, Bsd.recv, Bsd.sendto, hp, ofOption_some, returns_bind, pure_eq]

theorem Transfer.ks_spec (t : Transfer) {w : World} (hs : w.sockets p = some s) (hidle : s.AsyncContext.Idle id)
    (hfn : s.Supports t.fn) (buf : Nat) (len : UInt64) (flags : Int) :
    ∃ io ctx w₁, t.ks E w p buf len flags = returns (io.Status,
        if ntSuccess io.Status then UInt32.ofNat io.Information else len.toUInt32,
        w₁.store p { s with AsyncContext := ctx }) ∧
      Ks.Served E w (s.via t.view) (t.request buf len flags) id io ctx w₁ := by
  cases t with
  | send => exact Ks.ksSendRecv_spec E hs hidle buf len.toUInt32 (UInt32.ofInt flags) true hfn
  | recv => exact Ks.ksSendRecv_spec E hs hidle buf len.toUInt32 (UInt32.ofInt flags) false hfn
  | sendto destAddr => exact Ks.ksSendRecvUdp_spec E hs hidle buf len.toUInt32 (UInt32.ofInt flags) destAddr true hfn

theorem Transfer.ks_strays (t : Transfer) {w : World} (hs : w.sockets p = some s) (hidle : s.AsyncContext.Idle id)
    (hfn : ¬s.Supports t.fn) (buf : Nat) (len : UInt64) (flags : Int) :
    ∃ ctx₀ : AsyncContext, ctx₀.Clean id ∧
      t.ks E w p buf len flags = astray ⟨w, t.request buf len flags, s.via t.view, ctx₀⟩ := by
  cases t with
  | send => exact Ks.ksSendRecv_strays E hs hidle buf len.toUInt32 (UInt32.ofInt flags) true hfn
  | recv => exact Ks.ksSendRecv_strays E hs hidle buf len.toUInt32 (UInt32.ofInt flags) false hfn
  | sendto destAddr => exact Ks.ksSendRecvUdp_strays E hs hidle buf len.toUInt32 (UInt32.ofInt flags) destAddr true hfn

/-- On a socket whose table lacks the function it goes astray. -/
theorem Transfer.call_strays (t : Transfer) (hp : b.socketAt sockfd = some p) (hs : b.world.sockets p = some s)
    (hidle : s.AsyncContext.Idle id) (hfn : ¬s.Supports t.fn) (buf : Nat) (len : UInt64) (flags : Int) :
    ∃ x, b.call E (t.call sockfd buf len flags) = astray x := by
  obtain ⟨ctx₀, -, hks⟩ := t.ks_strays (E := E) hs hidle hfn buf len flags
  exact ⟨_, by rw [t.call_eq hp, hks, astray_bind]⟩

/-- A transfer on an idle socket that has the function makes its request and
returns what it came to. -/
theorem Transfer.call_spec (t : Transfer) (hp : b.socketAt sockfd = some p) (hs : b.world.sockets p = some s)
    (hidle : s.AsyncContext.Idle id) (hfn : s.Supports t.fn) (buf : Nat) (len : UInt64) (flags : Int) :
    ∃ b' r, b.call E (t.call sockfd buf len flags) =
        returns (if ntSuccess r.io.Status then (UInt32.ofNat r.io.Information).toBitVec.toInt else -1, b') ∧
      b'.world.log = b.world.log ++ [r] ∧ r.call = t.request buf len flags ∧ r.io = t.outcome E b s buf len flags := by
  obtain ⟨io, ctx, w₁, hks, hserved⟩ := t.ks_spec (E := E) hs hidle hfn buf len flags
  obtain ⟨ctx₀, -, hlog⟩ := hserved.log
  have hio : io = t.outcome E b s buf len flags := by
    rw [hserved.provider.1, serve_request]
    rfl
  refine ⟨{ b with world := w₁.store p { s with AsyncContext := ctx } },
    ⟨⟨t.request buf len flags, s.via t.view, ctx₀⟩, io⟩, ?_, hlog, rfl, hio⟩
  rw [t.call_eq hp, hks, returns_bind, Bsd.ofLength]
  cases ntSuccess io.Status <;> simp

/-- A transfer on a socket without an IRP is stuck at the reset. -/
theorem Transfer.call_of_no_irp (t : Transfer) (hp : b.socketAt sockfd = some p) (hs : b.world.sockets p = some s)
    (hirp : s.AsyncContext.Irp = none) (buf : Nat) (len : UInt64) (flags : Int) :
    b.call E (t.call sockfd buf len flags) = stuck := by
  have hreset : s.AsyncContext.kspAsyncContextReset = none := by simp [AsyncContext.kspAsyncContextReset, hirp]
  rw [t.call_eq hp]
  cases t <;> simp [ks, Ks.ksSend, Ks.ksRecv, Ks.ksSendTo, Ks.ksSendRecv, Ks.ksSendRecvUdp, hs, hreset]

theorem Transfer.length_request (t : Transfer) (buf : Nat) (len : UInt64) (flags : Int) :
    (t.request buf len flags).length = some len.toUInt32.toUInt64 := by
  cases t <;> rfl

/-- The low 32 bits of a length. -/
theorem requested_eq_zero (len : UInt64) : len.toUInt32.toUInt64 = 0 ↔ len.toNat % 2 ^ 32 = 0 := by
  rw [← UInt64.toNat_inj]
  rfl

/-- What the conversions make of a request that moves at most what it was asked for. -/
theorem faithful_iff {len : UInt64} {r : Request} (hlength : r.call.length = some len.toUInt32.toUInt64)
    (hcount : ntSuccess r.io.Status = true → r.io.Information ≤ len.toUInt32.toNat) :
    Faithful len (if ntSuccess r.io.Status then (UInt32.ofNat r.io.Information).toBitVec.toInt else -1) r ↔
      (len = 0 ∨ len.toNat % 2 ^ 32 ≠ 0) ∧ (ntSuccess r.io.Status = false ∨ r.io.Information < 2 ^ 31) := by
  have hasks : r.call.length ≠ some 0 ↔ len.toNat % 2 ^ 32 ≠ 0 := by
    rw [hlength, Ne, Option.some.injEq, requested_eq_zero]
  have hpos : 0 < len ↔ len ≠ 0 := UInt64.pos_iff_ne_zero
  constructor
  · intro h
    refine ⟨?_, ?_⟩
    · by_cases hlen : len = 0
      · exact .inl hlen
      · exact .inr (hasks.1 (h.asks (hpos.2 hlen)))
    · cases hok : ntSuccess r.io.Status with
      | false => exact .inl rfl
      | true =>
        have hlt : r.io.Information < 2 ^ 32 := Nat.lt_of_le_of_lt (hcount hok) len.toUInt32.toNat_lt
        obtain ⟨hnonneg, -⟩ := h.count hok
        rw [hok, if_pos rfl, toInt_ofNat hlt] at hnonneg
        refine .inr ?_
        split at hnonneg
        case isTrue hsmall => exact hsmall
        case isFalse => omega
  · rintro ⟨hlen, hmoved⟩
    have hnonempty : 0 < len → r.call.length ≠ some 0 := by
      intro h
      exact hasks.2 (hlen.resolve_left (hpos.1 h))
    cases hok : ntSuccess r.io.Status with
    | false =>
      rw [if_neg Bool.false_ne_true]
      exact ⟨by simp [hok], by simp [hok], hnonempty, by simp⟩
    | true =>
      have hsmall : r.io.Information < 2 ^ 31 := by simpa [hok] using hmoved
      rw [if_pos rfl, toInt_ofNat (by omega), if_pos hsmall]
      refine ⟨?_, ?_, hnonempty, ?_⟩
      · rw [hok]
        refine iff_of_false ?_ (by decide)
        omega
      · intro _
        exact ⟨Int.natCast_nonneg _, rfl⟩
      · intro h hzero
        exact ⟨by omega, hnonempty h⟩

/-- For every transfer on an open socket with no request in flight, every length
and every outcome of the request that moves at most what was asked for: the
result is faithful exactly if the socket has an IRP and its table the function,
the length is 0 or no multiple of 2^32, and the request fails or has moved less
than 2^31 bytes. -/
theorem transfer_survives_iff (t : Transfer) (E : Env) (hp : b.socketAt sockfd = some p)
    (hs : b.world.sockets p = some s) (hflight : ∀ irp ∈ s.AsyncContext.Irp, irp.inFlight = none) (buf : Nat)
    (len : UInt64) (flags : Int)
    (hcount : ntSuccess (t.outcome E b s buf len flags).Status = true →
      (t.outcome E b s buf len flags).Information ≤ len.toUInt32.toNat) :
    t.Survives E b sockfd buf len flags ↔
      s.AsyncContext.Irp ≠ none ∧ s.Supports t.fn ∧ (len = 0 ∨ len.toNat % 2 ^ 32 ≠ 0) ∧
        (ntSuccess (t.outcome E b s buf len flags).Status = false ∨
          (t.outcome E b s buf len flags).Information < 2 ^ 31) := by
  cases hirp : s.AsyncContext.Irp with
  | none =>
    -- the reset follows a NULL pointer
    refine iff_of_false ?_ ?_
    · rintro ⟨ret, b', r, hcall, -⟩
      rw [t.call_of_no_irp hp hs hirp] at hcall
      cases hcall
    · rintro ⟨hne, -⟩
      exact hne rfl
  | some irp =>
    have hidle : s.AsyncContext.Idle irp.id := ⟨irp, hirp, rfl, hflight irp hirp⟩
    rw [and_iff_right (Option.some_ne_none irp)]
    by_cases hfn : s.Supports t.fn
    swap
    · -- another function is called, or what follows the table
      obtain ⟨x, hastray⟩ := t.call_strays (E := E) hp hs hidle hfn buf len flags
      apply iff_of_false
      · rintro ⟨ret, b', r, hcall, -⟩
        cases hastray.symm.trans hcall
      · intro h
        exact hfn h.1
    rw [and_iff_right hfn]
    obtain ⟨b', r, hcall, hlog, hrequest, hio⟩ := t.call_spec (E := E) hp hs hidle hfn buf len flags
    rw [← hio] at hcount ⊢
    have hlength : r.call.length = some len.toUInt32.toUInt64 := by rw [hrequest, t.length_request]
    rw [← faithful_iff hlength hcount]
    constructor
    · rintro ⟨ret, b₁, r₁, hcall₁, hlog₁, -, hfaithful⟩
      rw [hcall] at hcall₁
      obtain ⟨rfl, rfl⟩ := Prod.mk.inj (Outcome.returns.inj hcall₁)
      rw [hlog, List.append_cancel_left_eq, List.cons.injEq] at hlog₁
      obtain rfl := hlog₁.1
      exact hfaithful
    · intro hfaithful
      exact ⟨_, b', r, hcall, hlog, hrequest, hfaithful⟩

/-- Every request succeeds and moves `n` bytes. -/
def Env.moving (n : Nat) : Env := { Env.obliging with provider := fun _ _ _ => ⟨.now, ⟨STATUS_SUCCESS, n⟩⟩ }

/-- The variables after a `socket_connection`, which returns descriptor 0. -/
def connection : Bsd := ((Bsd.init.socketConnection .obliging 2 1 6).map (·.2)).getD .init

/-- A `recv` of 2^32 - 1 bytes that gets 5 returns 5. -/
theorem five_received : Transfer.recv.Survives (.moving 5) connection 0 64 0xFFFFFFFF 0 := by
  have hs : ∃ s, connection.world.sockets 1 = some s ∧ s.AsyncContext.Irp.map IRP.inFlight = some none ∧
      s.Supports .WskReceive := by
    exact ⟨_, rfl, rfl, by decide⟩
  obtain ⟨s, hs, hirp, hfn⟩ := hs
  obtain ⟨irp, hsome, hflight⟩ := Option.map_eq_some_iff.1 hirp
  refine (transfer_survives_iff .recv (.moving 5) (p := 1) (by decide) hs ?_ 64 0xFFFFFFFF 0 ?_).2 ⟨?_, hfn, ?_, ?_⟩
  · intro irp' hirp'
    rw [hsome] at hirp'
    exact Option.some.inj hirp' ▸ hflight
  · intro _
    change 5 ≤ _
    decide
  · rw [hsome]
    exact Option.some_ne_none _
  · decide
  · exact .inr (by change 5 < 2 ^ 31; decide)

/-- A `recv` that gets 2^32 - 1 bytes returns -1, one that gets 2^31 bytes a
negative number, and one of 2^32 bytes asks for none and returns 0. -/
theorem large_transfers_lost :
    ((connection.recv (.moving 0xFFFFFFFF) 0 64 0xFFFFFFFF 0).value.map fun r =>
        (r.1, r.2.world.log.getLast?.map (·.io))) = some (-1, some ⟨STATUS_SUCCESS, 0xFFFFFFFF⟩) ∧
      ((connection.recv (.moving 0x80000000) 0 64 0xFFFFFFFF 0).value.map (·.1)) = some (-0x80000000) ∧
      ((connection.recv (.moving 0) 0 64 0x100000000 0).value.map (·.1)) = some 0 ∧
      ¬Transfer.recv.Survives (.moving 0xFFFFFFFF) connection 0 64 0xFFFFFFFF 0 ∧
      ¬Transfer.recv.Survives (.moving 0) connection 0 64 0x100000000 0 := by
  have hrun : ((connection.recv (.moving 0xFFFFFFFF) 0 64 0xFFFFFFFF 0).value.map fun r =>
      (r.1, r.2.world.log.getLast?.map (·.io))) = some (-1, some ⟨STATUS_SUCCESS, 0xFFFFFFFF⟩) := by decide +kernel
  refine ⟨hrun, by decide +kernel, by decide +kernel, ?_, ?_⟩
  · rintro ⟨ret, b', r, hcall, hlog, -, hfaithful⟩
    replace hcall : connection.recv (.moving 0xFFFFFFFF) 0 64 0xFFFFFFFF 0 = returns (ret, b') := hcall
    rw [hcall, value_returns, Option.map_some, Option.some.injEq, Prod.mk.injEq, hlog, List.getLast?_concat] at hrun
    obtain ⟨hret, hio⟩ := hrun
    have hio : r.io = ⟨STATUS_SUCCESS, 0xFFFFFFFF⟩ := Option.some.inj hio
    have hfailed := hfaithful.failure.1 hret
    rw [hio] at hfailed
    revert hfailed
    decide
  · rintro ⟨ret, b', r, -, -, hrequest, hfaithful⟩
    apply hfaithful.asks (by decide)
    rw [hrequest]
    rfl

end KSock
