import KSock.Methods
/-!
# What `getLastError` tells

The methods report failure by returning false and leave a code for
`getLastError`. Each of them sets `m_lastError` on some of its paths. For each
we find when it tells the outcome: a failure is a code that the call itself has
set, and a success is `KSE_SUCCESS`.
-/
open KSockLib.Word KSockLib.Endian

namespace KSock.KSocket

/-- A call of a method, with what the calls under it come to. -/
inductive Operation where
  | setup (newImpl : Bool) (bsdSocket : Creation → (domain type proto : Int) → Int) (sock_type : KSocketType)
      (proto : Int)
  | connect (host port : List UInt8)
      (bsdGetaddrinfo : (host port : List UInt8) → (hints : ADDRINFOA) → Int × List ADDRINFOA)
      (bsdConnect : (s : Int) → (ai_addr : Option Nat) → (ai_addrlen : Int32) → Int)
  | bind (port : UInt16) (bsdBind : (s : Int) → SOCKADDR → Int)
  | listen (backlog : Int) (bsdListen : (s backlog : Int) → Int)
  | accept (newImpl : Bool) (bsdAccept : (s : Int) → Int × SOCKADDR)
      (thread_callback : KAcceptedSocket → KSocket → Bool × KSocket)
  | close (bsdClosesocket : (s : Int) → Int)
  | send (bsdSend : Nat → Int)
  | recv (maxRecvSize : UInt64) (bsdRecv : Nat → Received)

def operate (k : KSocket) : Operation → Option (Bool × KSocket)
  | .setup newImpl bsdSocket sock_type proto => some (k.setup newImpl bsdSocket sock_type proto)
  | .connect host port bsdGetaddrinfo bsdConnect => k.connect host port bsdGetaddrinfo bsdConnect
  | .bind port bsdBind => some (k.bind port bsdBind)
  | .listen backlog bsdListen => some (k.listen backlog bsdListen)
  | .accept newImpl bsdAccept thread_callback => some (k.accept newImpl bsdAccept thread_callback)
  | .close bsdClosesocket => some (k.close bsdClosesocket)
  | .send bsdSend => some (k.send bsdSend)
  | .recv maxRecvSize bsdRecv => k.recv maxRecvSize.toNat bsdRecv

def withError (k : KSocket) (e : Int) : KSocket := { k with m_lastError := e }

/-- The call returns. If it returns false, `getLastError` gives a code that is
not `KSE_SUCCESS`, and the same whatever was there before; if it returns true,
`KSE_SUCCESS`. -/
def Tells (k : KSocket) (o : Operation) : Prop :=
  ∃ ok k', k.operate o = some (ok, k') ∧
    (ok = false → k'.m_lastError ≠ KSE_SUCCESS ∧
      ∀ e, ((k.withError e).operate o).map (fun r => r.2.m_lastError) = some k'.m_lastError) ∧
    (ok = true → k'.m_lastError = KSE_SUCCESS)

/-- What the callback of `accept` is given. -/
def accepted (k : KSocket) (r : Int × SOCKADDR) : KAcceptedSocket :=
  { newAccepted with
    m_socketType := k.m_socketType
    m_socket := some ⟨r.1, k.impl.c⟩
    m_remote := ⟨4, toLE 4 r.2.sin_addr.toNat, r.2.sin_port⟩ }

/-- The callback of an `accept` on `k` leaves the code of its own outcome. -/
def TellsBack (k : KSocket) (thread_callback : KSocket → Bool × KSocket) : Prop :=
  if (thread_callback k).1 then (thread_callback k).2.m_lastError = KSE_SUCCESS
  else ∃ code, code ≠ KSE_SUCCESS ∧ ∀ e, (thread_callback (k.withError e)).2.m_lastError = code

/-- `setup` and `listen` and `connect` reset the code first and may fail without
another; `accept` and `close` may end without setting it; `send` and `recv`
leave the count of bytes in it. -/
def Careful (k : KSocket) : Operation → Prop
  | .setup newImpl bsdSocket sock_type proto =>
    newImpl = true → isIp6 sock_type = false → ∀ d ∈ socketTypeToTuple sock_type, ∀ call ∈ creation sock_type,
      0 ≤ bsdSocket call d.1.toNat d.2 proto
  | .connect host port bsdGetaddrinfo _ => k.valid = true →
    (k.m_socketType = .KST_STREAM_CLIENT_IP4 ∨ k.m_socketType = .KST_STREAM_CLIENT_IP6) ∧
      ((bsdGetaddrinfo host port k.hints).1 = KSE_SUCCESS → (bsdGetaddrinfo host port k.hints).2 ≠ [])
  | .bind _ _ => True
  | .listen _ _ => k.valid = true →
    k.m_socketType = .KST_STREAM_SERVER_IP4 ∨ k.m_socketType = .KST_STREAM_SERVER_IP6
  | .accept newImpl bsdAccept thread_callback =>
    k.valid = true → k.impl.c.domain = AF_INET.toUInt32 → newImpl = true → 0 ≤ (bsdAccept k.impl.s).1 →
      k.TellsBack (thread_callback (k.accepted (bsdAccept k.impl.s)))
  | .close bsdClosesocket => k.valid = true → bsdClosesocket k.impl.s = 0 ∧ k.m_lastError = KSE_SUCCESS
  | .send bsdSend => k.valid = true → k.m_sendBuffer.size ≠ 0 ∧ bsdSend k.m_sendBuffer.size < 0
  | .recv n bsdRecv => k.valid = true →
    (bsdRecv n.toNat).retval < 0 ∧ k.m_recvBuffer.size ≤ addW 64 k.m_recvBuffer.size n.toNat

variable {k k' : KSocket} {o : Operation}

/-- The call returns false, with a code of its own. -/
theorem tells_iff_of_false (h : ∀ e, (k.withError e).operate o = some (false, k')) :
    Tells k o ↔ k'.m_lastError ≠ KSE_SUCCESS := by
  constructor
  · rintro ⟨ok, k'', hcall, hfalse, -⟩
    cases (h k.m_lastError).symm.trans hcall
    exact (hfalse rfl).1
  · intro hne
    refine ⟨false, k', h k.m_lastError, ?_, nofun⟩
    intro _
    refine ⟨hne, ?_⟩
    intro e
    rw [h e]
    rfl

/-- It returns false, with the code that was there. -/
theorem not_tells_of_unset (h : ∀ e, (k.withError e).operate o = some (false, k.withError e)) : ¬Tells k o := by
  rintro ⟨ok, k', hcall, hfalse, -⟩
  cases (h k.m_lastError).symm.trans hcall
  obtain ⟨hne, hsame⟩ := hfalse rfl
  have hreset := hsame KSE_SUCCESS
  rw [h KSE_SUCCESS] at hreset
  exact hne (Option.some.inj hreset).symm

theorem tells_iff_of_true (h : k.operate o = some (true, k')) : Tells k o ↔ k'.m_lastError = KSE_SUCCESS := by
  constructor
  · rintro ⟨ok, k'', hcall, -, htrue⟩
    cases h.symm.trans hcall
    exact htrue rfl
  · intro heq
    exact ⟨true, k', h, nofun, fun _ => heq⟩

/-- A call that returns whether it has set `KSE_SUCCESS` tells its outcome. -/
theorem tells_of_code (code : Int)
    (h : ∀ e, (k.withError e).operate o = some (decide (code = KSE_SUCCESS), k.withError code)) : Tells k o := by
  by_cases hok : code = KSE_SUCCESS
  · simp only [hok, decide_true] at h
    exact (tells_iff_of_true (h k.m_lastError)).2 rfl
  · simp only [hok, decide_false] at h
    exact (tells_iff_of_false h).2 hok

/-! ## One method at a time -/

@[simp] theorem valid_withError (k : KSocket) (e : Int) : (k.withError e).valid = k.valid := rfl
@[simp] theorem impl_withError (k : KSocket) (e : Int) : (k.withError e).impl = k.impl := rfl
@[simp] theorem hints_withError (k : KSocket) (e : Int) : (k.withError e).hints = k.hints := rfl
@[simp] theorem type_withError (k : KSocket) (e : Int) : (k.withError e).m_socketType = k.m_socketType := rfl
@[simp] theorem m_recvBuffer_withError (k : KSocket) (e : Int) : (k.withError e).m_recvBuffer = k.m_recvBuffer := rfl
@[simp] theorem withError_withError (k : KSocket) (e e' : Int) : (k.withError e).withError e' = k.withError e' := rfl
@[simp] theorem m_lastError_withError (k : KSocket) (e : Int) : (k.withError e).m_lastError = e := rfl

/-- `sanityCheck` fails, and sets the code. -/
theorem tells_of_invalid (h : ∀ e, (k.withError e).operate o = some (false, k.withError KSE_INVALID_SOCKET)) :
    Tells k o := (tells_iff_of_false h).2 (by decide : KSE_INVALID_SOCKET ≠ KSE_SUCCESS)

theorem bind_eq (k : KSocket) (port : UInt16) (bsdBind : (s : Int) → SOCKADDR → Int) :
    k.bind port bsdBind =
      if k.valid then
        (decide (bsdBind k.impl.s ⟨AF_INET, htons port, INADDR_ANY⟩ = KSE_SUCCESS),
          k.withError (bsdBind k.impl.s ⟨AF_INET, htons port, INADDR_ANY⟩))
      else (false, k.withError KSE_INVALID_SOCKET) := by
  unfold bind sanityCheck
  cases k.valid <;> rfl

theorem bind_tells (port : UInt16) (bsdBind : (s : Int) → SOCKADDR → Int) : Tells k (.bind port bsdBind) := by
  cases hv : k.valid with
  | false =>
    apply tells_of_invalid
    intro e
    simp [operate, bind_eq, hv]
  | true =>
    apply tells_of_code (bsdBind k.impl.s ⟨AF_INET, htons port, INADDR_ANY⟩)
    intro e
    rw [operate, bind_eq, valid_withError, if_pos hv]
    rfl

theorem listen_eq (k : KSocket) (backlog : Int) (bsdListen : (s backlog : Int) → Int) :
    k.listen backlog bsdListen =
      if k.valid then
        if k.m_socketType = .KST_STREAM_SERVER_IP4 ∨ k.m_socketType = .KST_STREAM_SERVER_IP6 then
          (decide (bsdListen k.impl.s backlog = KSE_SUCCESS), k.withError (bsdListen k.impl.s backlog))
        else (false, k.withError KSE_SUCCESS)
      else (false, k.withError KSE_INVALID_SOCKET) := by
  have hvalid : ({ k with m_lastError := KSE_SUCCESS } : KSocket).valid = k.valid := rfl
  unfold listen sanityCheck
  rw [hvalid]
  cases k.valid with
  | false => rfl
  | true =>
    simp only [if_true, ne_eq, ← not_or, ite_not]
    split <;> rfl

theorem listen_tells_iff (backlog : Int) (bsdListen : (s backlog : Int) → Int) :
    Tells k (.listen backlog bsdListen) ↔ Careful k (.listen backlog bsdListen) := by
  cases hv : k.valid with
  | false =>
    apply iff_of_true
    · apply tells_of_invalid
      intro e
      simp [operate, listen_eq, hv]
    · simp [Careful, hv]
  | true =>
    simp only [Careful, hv, true_imp_iff]
    by_cases hserver : k.m_socketType = .KST_STREAM_SERVER_IP4 ∨ k.m_socketType = .KST_STREAM_SERVER_IP6
    · refine iff_of_true ?_ hserver
      apply tells_of_code (bsdListen k.impl.s backlog)
      intro e
      rw [operate, listen_eq, valid_withError, if_pos hv, type_withError, if_pos hserver]
      rfl
    · have hcall (e : Int) : (k.withError e).operate (.listen backlog bsdListen) =
          some (false, k.withError KSE_SUCCESS) := by
        simp [operate, listen_eq, hv, hserver]
      refine iff_of_false ?_ hserver
      intro htells
      exact (tells_iff_of_false hcall).1 htells rfl

theorem setup_withError (k : KSocket) (e : Int) (newImpl : Bool)
    (bsdSocket : Creation → (domain type proto : Int) → Int) (sock_type : KSocketType) (proto : Int) :
    (k.withError e).setup newImpl bsdSocket sock_type proto = k.setup newImpl bsdSocket sock_type proto := rfl

/-- `setup` fails before it makes a socket, with a code. -/
theorem setup_refuses {newImpl : Bool} (bsdSocket : Creation → (domain type proto : Int) → Int)
    {sock_type : KSocketType} (proto : Int)
    (h : newImpl = false ∨ socketTypeToTuple sock_type = none ∨ isIp6 sock_type = true) :
    ∃ k', k'.m_lastError ≠ KSE_SUCCESS ∧ k.setup newImpl bsdSocket sock_type proto = (false, k') := by
  have hcodes : KSE_SETUP_IMPL_NULL ≠ KSE_SUCCESS ∧ KSE_SETUP_INVALID_SOCKET_TYPE ≠ KSE_SUCCESS ∧
      KSE_SETUP_UNSUPPORTED_SOCKET_TYPE ≠ KSE_SUCCESS := by decide
  cases newImpl with
  | false => exact ⟨_, hcodes.1, rfl⟩
  | true =>
    simp only [setup, Bool.not_true, Bool.false_eq_true, if_false]
    cases htuple : socketTypeToTuple sock_type with
    | none => exact ⟨_, hcodes.2.1, rfl⟩
    | some d =>
      have hip6 : isIp6 sock_type = true := by simpa [htuple] using h
      simp only [hip6, if_true]
      exact ⟨_, hcodes.2.2, rfl⟩

/-- It makes one, and the code is `KSE_SUCCESS`. -/
theorem setup_creates (bsdSocket : Creation → (domain type proto : Int) → Int) {sock_type : KSocketType} (proto : Int)
    {d : ADDRESS_FAMILY × Int} {call : Creation} (htuple : socketTypeToTuple sock_type = some d)
    (hcall : creation sock_type = some call) (hip6 : isIp6 sock_type = false) :
    ∃ k', k'.m_lastError = KSE_SUCCESS ∧ k.setup true bsdSocket sock_type proto =
      (decide (0 ≤ bsdSocket call d.1.toNat d.2 proto), k') := by
  simp only [setup, Bool.not_true, Bool.false_eq_true, if_false, htuple, hcall, hip6]
  exact ⟨_, rfl, rfl⟩

theorem setup_tells_iff (newImpl : Bool) (bsdSocket : Creation → (domain type proto : Int) → Int)
    (sock_type : KSocketType) (proto : Int) :
    Tells k (.setup newImpl bsdSocket sock_type proto) ↔ Careful k (.setup newImpl bsdSocket sock_type proto) := by
  by_cases hrefuses : newImpl = false ∨ socketTypeToTuple sock_type = none ∨ isIp6 sock_type = true
  · obtain ⟨k', hne, hcall⟩ := @setup_refuses k newImpl bsdSocket sock_type proto hrefuses
    apply iff_of_true
    · refine (tells_iff_of_false ?_).2 hne
      intro e
      rw [operate, setup_withError, hcall]
    · intro hnew hip6 d htuple
      rcases hrefuses with h | h | h <;> simp_all
  · simp only [not_or, Bool.not_eq_false, Bool.not_eq_true] at hrefuses
    obtain ⟨rfl, htuple, hip6⟩ := hrefuses
    obtain ⟨d, htuple⟩ := Option.ne_none_iff_exists'.1 htuple
    obtain ⟨call, hcreation⟩ : ∃ call, creation sock_type = some call := by
      cases sock_type <;> first | exact ⟨_, rfl⟩ | cases htuple
    obtain ⟨k', hsuccess, hcall⟩ := @setup_creates k bsdSocket sock_type proto d call htuple hcreation hip6
    have hcareful : Careful k (.setup true bsdSocket sock_type proto) ↔ 0 ≤ bsdSocket call d.1.toNat d.2 proto := by
      simp [Careful, htuple, hcreation, hip6]
    rw [hcareful]
    by_cases hs : 0 ≤ bsdSocket call d.1.toNat d.2 proto
    · simp only [hs, decide_true] at hcall
      exact iff_of_true ((tells_iff_of_true (by rw [operate, hcall])).2 hsuccess) hs
    · simp only [hs, decide_false] at hcall
      have hfalse (e : Int) : (k.withError e).operate (.setup true bsdSocket sock_type proto) = some (false, k') := by
        rw [operate, setup_withError, hcall]
      refine iff_of_false ?_ hs
      intro htells
      exact (tells_iff_of_false hfalse).1 htells hsuccess

theorem connect_eq (k : KSocket) (host port : List UInt8)
    (bsdGetaddrinfo : (host port : List UInt8) → (hints : ADDRINFOA) → Int × List ADDRINFOA)
    (bsdConnect : (s : Int) → (ai_addr : Option Nat) → (ai_addrlen : Int32) → Int) (hv : k.valid = true)
    (hclient : k.m_socketType = .KST_STREAM_CLIENT_IP4 ∨ k.m_socketType = .KST_STREAM_CLIENT_IP6) :
    k.connect host port bsdGetaddrinfo bsdConnect =
      if (bsdGetaddrinfo host port k.hints).1 = KSE_SUCCESS then
        (bsdGetaddrinfo host port k.hints).2.head?.map fun results =>
          let code := bsdConnect k.impl.s results.ai_addr (Int32.ofNat results.ai_addrlen.toNat)
          (decide (code = KSE_SUCCESS), k.withError code)
      else some (false, k.withError (bsdGetaddrinfo host port k.hints).1) := by
  have hsane : ({ k with m_lastError := KSE_SUCCESS } : KSocket).sanityCheck = (true, k.withError KSE_SUCCESS) := by
    rw [sanityCheck]
    exact if_pos hv
  unfold connect
  rw [hsane]
  simp only [type_withError, ne_eq, ← not_or, hclient, not_true, if_false, hints_withError]
  by_cases hname : (bsdGetaddrinfo host port k.hints).1 = KSE_SUCCESS
  · simp only [hname, not_true_eq_false, if_false, if_true]
    cases (bsdGetaddrinfo host port k.hints).2 <;> rfl
  · simp only [hname, not_false_iff, if_false, if_true]
    rfl

/-- `connect` leaves early, with what `sanityCheck` or the reset has set. -/
theorem connect_early (k : KSocket) (host port : List UInt8)
    (bsdGetaddrinfo : (host port : List UInt8) → (hints : ADDRINFOA) → Int × List ADDRINFOA)
    (bsdConnect : (s : Int) → (ai_addr : Option Nat) → (ai_addrlen : Int32) → Int)
    (h : ¬(k.valid = true ∧ (k.m_socketType = .KST_STREAM_CLIENT_IP4 ∨ k.m_socketType = .KST_STREAM_CLIENT_IP6))) :
    k.connect host port bsdGetaddrinfo bsdConnect =
      some (false, k.withError (if k.valid then KSE_SUCCESS else KSE_INVALID_SOCKET)) := by
  have hvalid : ({ k with m_lastError := KSE_SUCCESS } : KSocket).valid = k.valid := rfl
  unfold connect sanityCheck
  rw [hvalid]
  cases hv : k.valid with
  | false => rfl
  | true =>
    have hother := not_or.1 fun hclient => h ⟨hv, hclient⟩
    simp only [if_true, ne_eq, hother, not_false_iff, and_self]
    rfl

theorem connect_tells_iff (host port : List UInt8)
    (bsdGetaddrinfo : (host port : List UInt8) → (hints : ADDRINFOA) → Int × List ADDRINFOA)
    (bsdConnect : (s : Int) → (ai_addr : Option Nat) → (ai_addrlen : Int32) → Int) :
    Tells k (.connect host port bsdGetaddrinfo bsdConnect) ↔
      Careful k (.connect host port bsdGetaddrinfo bsdConnect) := by
  by_cases hclient : k.valid = true ∧
      (k.m_socketType = .KST_STREAM_CLIENT_IP4 ∨ k.m_socketType = .KST_STREAM_CLIENT_IP6)
  · have hcall (e : Int) : (k.withError e).operate (.connect host port bsdGetaddrinfo bsdConnect) =
        k.operate (.connect host port bsdGetaddrinfo bsdConnect) := rfl
    have heq := connect_eq k host port bsdGetaddrinfo bsdConnect hclient.1 hclient.2
    simp only [Careful, hclient.1, hclient.2, true_and, true_imp_iff]
    by_cases hname : (bsdGetaddrinfo host port k.hints).1 = KSE_SUCCESS
    · rw [if_pos hname] at heq
      simp only [hname, true_imp_iff]
      cases hlist : (bsdGetaddrinfo host port k.hints).2 with
      | nil =>
        rw [hlist] at heq
        refine iff_of_false ?_ (by simp)
        rintro ⟨ok, k', hcall, -⟩
        cases heq.symm.trans hcall
      | cons results rest =>
        rw [hlist] at heq
        refine iff_of_true ?_ (by simp)
        apply tells_of_code
        intro e
        exact (hcall e).trans heq
    · rw [if_neg hname] at heq
      have hfalse (e : Int) := (hcall e).trans heq
      exact iff_of_true ((tells_iff_of_false hfalse).2 hname) (by simp [hname])
  · have heq (e : Int) := connect_early (k.withError e) host port bsdGetaddrinfo bsdConnect hclient
    simp only [valid_withError, withError_withError] at heq
    cases hv : k.valid with
    | false =>
      simp only [hv, Bool.false_eq_true, if_false] at heq
      exact iff_of_true (tells_of_invalid heq) (by simp [Careful, hv])
    | true =>
      simp only [hv, if_true] at heq
      have hiff := tells_iff_of_false (k := k) (o := .connect host port bsdGetaddrinfo bsdConnect) heq
      apply iff_of_false
      · intro htells
        exact hiff.1 htells rfl
      · intro hcareful
        exact hclient ⟨hv, (hcareful hv).1⟩

theorem close_eq (k : KSocket) (bsdClosesocket : (s : Int) → Int) :
    k.close bsdClosesocket =
      if k.valid then
        if bsdClosesocket k.impl.s = 0 then (true, { k with m_socket := some { k.impl with s := -1 } }) else (false, k)
      else (false, k.withError KSE_INVALID_SOCKET) := by
  unfold close sanityCheck
  cases k.valid <;> rfl

theorem close_tells_iff (bsdClosesocket : (s : Int) → Int) :
    Tells k (.close bsdClosesocket) ↔ Careful k (.close bsdClosesocket) := by
  cases hv : k.valid with
  | false =>
    apply iff_of_true
    · apply tells_of_invalid
      intro e
      simp [operate, close_eq, hv]
    · simp [Careful, hv]
  | true =>
    simp only [Careful, hv, true_imp_iff]
    by_cases hclosed : bsdClosesocket k.impl.s = 0
    · have hcall : k.operate (.close bsdClosesocket) =
          some (true, { k with m_socket := some { k.impl with s := -1 } }) := by
        simp [operate, close_eq, hv, hclosed]
      rw [tells_iff_of_true hcall]
      simp [hclosed]
    · refine iff_of_false ?_ (by simp [hclosed])
      apply not_tells_of_unset
      intro e
      simp [operate, close_eq, hv, hclosed]

theorem accept_eq (k : KSocket) (newImpl : Bool) (bsdAccept : (s : Int) → Int × SOCKADDR)
    (thread_callback : KAcceptedSocket → KSocket → Bool × KSocket) :
    k.accept newImpl bsdAccept thread_callback =
      if k.valid then
        if k.impl.c.domain = AF_INET.toUInt32 then
          if newImpl then
            if (bsdAccept k.impl.s).1 < 0 then (false, k.withError KSE_ACCEPT_FAILED)
            else thread_callback (k.accepted (bsdAccept k.impl.s)) k
          else (false, k.withError KSE_SETUP_IMPL_NULL)
        else (false, k.withError KSE_SETUP_UNSUPPORTED_SOCKET_TYPE)
      else (false, k.withError KSE_INVALID_SOCKET) := by
  unfold accept acceptSocket sanityCheck
  cases k.valid with
  | false => rfl
  | true =>
    by_cases hdomain : k.impl.c.domain = AF_INET.toUInt32
    · cases newImpl with
      | false => simp [hdomain, withError]
      | true =>
        by_cases hfd : (bsdAccept k.impl.s).1 < 0
        · simp [hdomain, hfd, withError]
        · simp [hdomain, hfd, accepted]
    · simp [hdomain, withError]

@[simp] theorem accepted_withError (k : KSocket) (e : Int) (r : Int × SOCKADDR) :
    (k.withError e).accepted r = k.accepted r := rfl

/-- A call that hands over to its callback. -/
theorem tells_iff_tellsBack {thread_callback : KSocket → Bool × KSocket}
    (h : ∀ e, (k.withError e).operate o = some (thread_callback (k.withError e))) :
    Tells k o ↔ k.TellsBack thread_callback := by
  have hcall : k.operate o = some (thread_callback k) := h k.m_lastError
  unfold TellsBack
  cases hok : (thread_callback k).1 with
  | true =>
    rw [if_pos rfl]
    exact tells_iff_of_true (hcall.trans (by rw [← hok]))
  | false =>
    rw [if_neg Bool.false_ne_true]
    constructor
    · rintro ⟨ok, k', hcall', hfalse, -⟩
      rw [Option.some.inj (hcall.symm.trans hcall')] at hok
      obtain ⟨hne, hsame⟩ := hfalse hok
      refine ⟨_, hne, ?_⟩
      intro e
      have hcode := hsame e
      rw [h e] at hcode
      exact Option.some.inj hcode
    · rintro ⟨code, hne, hsame⟩
      have hcode : (thread_callback k).2.m_lastError = code := hsame k.m_lastError
      refine ⟨_, _, hcall, ?_, fun htrue => absurd (hok.symm.trans htrue) Bool.false_ne_true⟩
      intro _
      rw [hcode]
      refine ⟨hne, ?_⟩
      intro e
      rw [h e, Option.map_some, hsame e]

theorem accept_tells_iff (newImpl : Bool) (bsdAccept : (s : Int) → Int × SOCKADDR)
    (thread_callback : KAcceptedSocket → KSocket → Bool × KSocket) :
    Tells k (.accept newImpl bsdAccept thread_callback) ↔ Careful k (.accept newImpl bsdAccept thread_callback) := by
  by_cases hcalls : k.valid = true ∧ k.impl.c.domain = AF_INET.toUInt32 ∧ newImpl = true ∧ 0 ≤ (bsdAccept k.impl.s).1
  · obtain ⟨hv, hdomain, rfl, hfd⟩ := hcalls
    have heq (e : Int) : (k.withError e).operate (.accept true bsdAccept thread_callback) =
        some (thread_callback (k.accepted (bsdAccept k.impl.s)) (k.withError e)) := by
      simp [operate, accept_eq, hv, hdomain, Int.not_lt.2 hfd]
    rw [tells_iff_tellsBack heq]
    simp [Careful, hv, hdomain, hfd]
  · have hcodes : KSE_INVALID_SOCKET ≠ KSE_SUCCESS ∧ KSE_SETUP_UNSUPPORTED_SOCKET_TYPE ≠ KSE_SUCCESS ∧
        KSE_SETUP_IMPL_NULL ≠ KSE_SUCCESS ∧ KSE_ACCEPT_FAILED ≠ KSE_SUCCESS := by decide
    have heq : ∃ code, code ≠ KSE_SUCCESS ∧
        ∀ e, (k.withError e).operate (.accept newImpl bsdAccept thread_callback) = some (false, k.withError code) := by
      cases hv : k.valid with
      | false =>
        refine ⟨_, hcodes.1, ?_⟩
        intro e
        simp [operate, accept_eq, hv]
      | true =>
        by_cases hdomain : k.impl.c.domain = AF_INET.toUInt32
        · cases newImpl with
          | false =>
            refine ⟨_, hcodes.2.2.1, ?_⟩
            intro e
            simp [operate, accept_eq, hv, hdomain]
          | true =>
            have hfd : (bsdAccept k.impl.s).1 < 0 := Int.not_le.1 fun hfd => hcalls ⟨hv, hdomain, rfl, hfd⟩
            refine ⟨_, hcodes.2.2.2, ?_⟩
            intro e
            simp [operate, accept_eq, hv, hdomain, hfd]
        · refine ⟨_, hcodes.2.1, ?_⟩
          intro e
          simp [operate, accept_eq, hv, hdomain]
    obtain ⟨code, hne, heq⟩ := heq
    apply iff_of_true
    · exact (tells_iff_of_false heq).2 hne
    · intro hv hdomain hnew hfd
      exact absurd ⟨hv, hdomain, hnew, hfd⟩ hcalls

theorem send_result (k : KSocket) (bsdSend : Nat → Int) :
    k.send bsdSend =
      if k.valid then
        if k.m_sendBuffer.size = 0 then (false, k.withError KSE_SUCCESS)
        else if 0 < bsdSend k.m_sendBuffer.size then
          (true, { k with
            m_sendBuffer := ⟨k.m_sendBuffer.buffer.drop (bsdSend k.m_sendBuffer.size).toNat⟩
            m_lastError := bsdSend k.m_sendBuffer.size })
        else (false, k.withError (bsdSend k.m_sendBuffer.size))
      else (false, k.withError KSE_INVALID_SOCKET) := by
  have hvalid : ({ k with m_lastError := KSE_SUCCESS } : KSocket).valid = k.valid := rfl
  unfold send sanityCheck
  simp only [hvalid]
  cases k.valid <;> rfl

theorem send_tells_iff (bsdSend : Nat → Int) : Tells k (.send bsdSend) ↔ Careful k (.send bsdSend) := by
  have hreset (e : Int) : (k.withError e).operate (.send bsdSend) = k.operate (.send bsdSend) := rfl
  have heq : k.operate (.send bsdSend) = some (k.send bsdSend) := rfl
  rw [send_result] at heq
  cases hv : k.valid with
  | false =>
    simp only [hv, Bool.false_eq_true, if_false] at heq
    refine iff_of_true ?_ (by simp [Careful, hv])
    apply tells_of_invalid
    intro e
    exact (hreset e).trans heq
  | true =>
    simp only [hv, if_true] at heq
    simp only [Careful, hv, true_imp_iff]
    by_cases hsize : k.m_sendBuffer.size = 0
    · simp only [hsize, if_true] at heq
      have hiff := tells_iff_of_false fun e => (hreset e).trans heq
      apply iff_of_false
      · intro htells
        exact hiff.1 htells rfl
      · intro h
        exact h.1 hsize
    simp only [hsize, if_false] at heq
    by_cases hsent : 0 < bsdSend k.m_sendBuffer.size
    · simp only [hsent, if_true] at heq
      rw [tells_iff_of_true heq]
      -- the code is the count
      refine iff_of_false (Int.ne_of_gt hsent) ?_
      intro h
      exact absurd h.2 (Int.not_lt.2 (Int.le_of_lt hsent))
    · simp only [hsent, if_false] at heq
      rw [tells_iff_of_false fun e => (hreset e).trans heq]
      simp only [m_lastError_withError, KSE_SUCCESS]
      omega

theorem recv_invalid (hv : k.valid = false) (n : Nat) (bsdRecv : Nat → Received) :
    k.recv n bsdRecv = some (false, k.withError KSE_INVALID_SOCKET) := by
  unfold recv sanityCheck
  simp only [hv]
  rfl

theorem recv_tells_iff (n : UInt64) (bsdRecv : Nat → Received) :
    Tells k (.recv n bsdRecv) ↔ Careful k (.recv n bsdRecv) := by
  cases hv : k.valid with
  | false =>
    refine iff_of_true ?_ (by simp [Careful, hv])
    apply tells_of_invalid
    intro e
    exact @recv_invalid (k.withError e) hv _ _
  | true =>
    have heq (e : Int) := recv_eq (k := k.withError e) hv n.toNat bsdRecv
    simp only [Careful, hv, true_imp_iff]
    cases hr : bsdRecv n.toNat with
    | data bs pos int =>
      have hpos : 0 < (bsdRecv n.toNat).retval := by
        rw [hr, Received.retval]
        omega
      simp only [if_pos hpos] at heq
      refine iff_of_false ?_ fun h => absurd h.1 (Int.not_lt.2 (Int.le_of_lt (hr ▸ hpos)))
      -- the code is the count
      rintro ⟨ok, k', hcall, -, htrue⟩
      obtain ⟨filled, -, he⟩ := Option.map_eq_some_iff.1 ((heq k.m_lastError).symm.trans hcall)
      cases he
      exact Int.ne_of_gt hpos (htrue rfl)
    | nothing retval le =>
      simp only [hr, Received.bytes, Received.retval, if_neg (Int.not_lt.2 le), m_recvBuffer_withError] at heq
      by_cases hfits : k.m_recvBuffer.size ≤ addW 64 k.m_recvBuffer.size n.toNat
      · have hstore : (k.m_recvBuffer.buffer.resize (addW 64 k.m_recvBuffer.size n.toNat)).store
            k.m_recvBuffer.size [] = some (k.m_recvBuffer.buffer.resize (addW 64 k.m_recvBuffer.size n.toNat)) :=
          KBuffer.store_nil (by rwa [KBuffer.length_resize])
        have hcall (e : Int) : (k.withError e).operate (.recv n bsdRecv) = some (false, { k with
            m_recvBuffer := ⟨k.m_recvBuffer.buffer.resize (addW 64 k.m_recvBuffer.size n.toNat)⟩
            m_lastError := retval }) := by
          rw [operate, heq e, hstore]
          rfl
        rw [tells_iff_of_false hcall]
        simp only [Received.retval, hfits, and_true, KSE_SUCCESS]
        omega
      · refine iff_of_false ?_ fun h => hfits h.2
        rintro ⟨ok, k', hcall, -⟩
        obtain ⟨filled, hs, -⟩ := Option.map_eq_some_iff.1 ((heq k.m_lastError).symm.trans hcall)
        have hlen := KBuffer.store_fits hs
        rw [KBuffer.length_resize] at hlen
        exact hfits hlen

/-! ## All methods -/

/-- In every state, whatever the calls below come to: the outcome of a call is
told by `getLastError` exactly if the call is careful. -/
theorem tells_iff_careful (k : KSocket) (o : Operation) : Tells k o ↔ Careful k o := by
  cases o with
  | setup newImpl bsdSocket sock_type proto => exact setup_tells_iff newImpl bsdSocket sock_type proto
  | connect host port bsdGetaddrinfo bsdConnect => exact connect_tells_iff host port bsdGetaddrinfo bsdConnect
  | bind port bsdBind => exact iff_of_true (bind_tells port bsdBind) trivial
  | listen backlog bsdListen => exact listen_tells_iff backlog bsdListen
  | accept newImpl bsdAccept thread_callback => exact accept_tells_iff newImpl bsdAccept thread_callback
  | close bsdClosesocket => exact close_tells_iff bsdClosesocket
  | send bsdSend => exact send_tells_iff bsdSend
  | recv maxRecvSize bsdRecv => exact recv_tells_iff maxRecvSize bsdRecv

/-- No socket can be made for a new object: `setup` returns false, and the code
is `KSE_SUCCESS`. -/
theorem failed_setup_untold :
    (KSocket.new.operate (.setup true (fun _ _ _ _ => -1) .KST_STREAM_CLIENT_IP4 6)).map
        (fun r => (r.1, r.2.m_lastError)) = some (false, KSE_SUCCESS) ∧
      ¬Tells KSocket.new (.setup true (fun _ _ _ _ => -1) .KST_STREAM_CLIENT_IP4 6) := by
  have hrun : (KSocket.new.operate (.setup true (fun _ _ _ _ => -1) .KST_STREAM_CLIENT_IP4 6)).map
      (fun r => (r.1, r.2.m_lastError)) = some (false, KSE_SUCCESS) := by decide
  refine ⟨hrun, ?_⟩
  rintro ⟨ok, k', hcall, hfalse, -⟩
  rw [hcall, Option.map_some, Option.some.injEq, Prod.mk.injEq] at hrun
  exact (hfalse hrun.1).1 hrun.2

end KSock.KSocket
