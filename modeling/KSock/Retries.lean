import KSock.Lib.Run
import KSock.Requests
/-!
# Connecting again

`KsConnect` binds the socket and then connects it. If `WskConnect` fails the
socket stays bound, so the next `KsConnect` on it ends with its `WskBind`: a
connection socket has one attempt.

What the provider knows of a socket is whether it is bound, as a function of the
requests made so far.
-/
open KSockLib Outcome

namespace KSock.Retries

/-- A socket was made at `q`. -/
def creates (r : Request) (q : Nat) : Bool :=
  match r.call with
  | .WskSocket _ _ _ _ => ntSuccess r.io.Status && r.io.Information == q
  | _ => false

/-- What is assumed of the provider: which of its sockets are bound, after which
requests. A new socket is not bound, `WskBind` fails on one that is and binds one
that is not, and a `WskConnect` that fails leaves it bound. -/
structure Binds (E : Env) (bound : List Request → Nat → Prop) : Prop where
  created : ∀ log r q, creates r q = true → ¬bound (log ++ [r]) q
  bind_iff : ∀ log q a, ntSuccess (E.provider log (.socket q .connection .connection) (.WskBind a)).io.Status = true ↔
    ¬bound log q
  binds : ∀ log (r : Request) q a, r.target = .socket q .connection .connection → r.call = .WskBind a →
    ntSuccess r.io.Status = true → bound (log ++ [r]) q
  keeps : ∀ log (r : Request) q a, r.target = .socket q .connection .connection → r.call = .WskConnect a →
    ntSuccess r.io.Status = false → bound log q → bound (log ++ [r]) q

/-- The last request of `KsConnect` connects to its own address, and it returns the status of that. -/
def Connects (E : Env) (p : Nat) (w : World) (RemoteAddress : SOCKADDR) : Prop :=
  ∃ Status w' new connect, Ks.ksConnect E w p RemoteAddress = returns (Status, w') ∧
    w'.log = w.log ++ new ++ [connect] ∧ connect.call = .WskConnect RemoteAddress ∧ Status = connect.io.Status

/-- A `KsConnect` that fails. The run of attempts ends with one that does not. -/
def failed (E : Env) (p : Nat) (w : World) (RemoteAddress : SOCKADDR) : Option World :=
  (Ks.ksConnect E w p RemoteAddress).value.bind fun r => if ntSuccess r.1 then none else some r.2

/-- The `KSOCKET` at `p` is that of the provider's connection socket `q`, with no request in flight. -/
def IsConnection (p q : Nat) (w : World) : Prop :=
  ∃ s id, w.sockets p = some s ∧ s.WskSocket = q ∧ s.WskDispatch = .connection ∧ s.AsyncContext.Idle id

variable {E : Env} {bound : List Request → Nat → Prop} {p q : Nat} {w w' : World} {a : SOCKADDR}

/-! ## One call -/

/-- How a call on a connection ends: on a bound socket after the first request,
on an unbound one after a second, which tells how. -/
def Ends (bound : List Request → Nat → Prop) (p q : Nat) (w : World) (a : SOCKADDR) (Status : NTSTATUS) (w' : World) :
    Prop :=
  IsConnection p q w' ∧ ∃ r : Request, r.call = .WskBind ⟨AF_INET, 0, INADDR_ANY⟩ ∧
    ((bound w.log q ∧ w'.log = w.log ++ [r] ∧ ntSuccess Status = false) ∨
      ∃ connect : Request, ¬bound w.log q ∧ w'.log = w.log ++ [r] ++ [connect] ∧ connect.call = .WskConnect a ∧
        Status = connect.io.Status ∧ (ntSuccess Status = false → bound w'.log q))

theorem connect_ends (hbinds : Binds E bound) (h : IsConnection p q w) (a : SOCKADDR) :
    ∃ Status w', Ks.ksConnect E w p a = returns (Status, w') ∧ Ends bound p q w a Status w' := by
  obtain ⟨s, id, hs, rfl, hkind, hidle⟩ := h
  have hvia : s.via .connection = .socket s.WskSocket .connection .connection := by rw [KSOCKET.via, hkind]
  have hfns : s.Supports .WskBind ∧ s.Supports .WskConnect := by
    rw [KSOCKET.Supports, KSOCKET.Supports, hkind]
    decide
  obtain ⟨io, ctx, w₁, hserved, hcases⟩ := Ks.ksConnect_spec E hs hidle hfns.1 a
  obtain ⟨ctx₀, -, hlog₁⟩ := hserved.log
  have hstatus : ntSuccess io.Status = true ↔ ¬bound w.log s.WskSocket := by
    rw [hserved.provider.1, Ks.serve_status, hvia]
    exact hbinds.bind_iff _ _ _
  have hkept : ∀ {ctx : AsyncContext} {io : IoStatusBlock} (w : World), ctx.Completed id io →
      IsConnection p s.WskSocket (w.store p { s with AsyncContext := ctx }) := by
    intro ctx io w hdone
    exact ⟨{ s with AsyncContext := ctx }, id, Function.update_self _ _ _, rfl, hkind, hdone.idle⟩
  rcases hcases with ⟨hfail, hcall⟩ | ⟨hok, -, io', ctx', w₂, hserved', hcall⟩ | ⟨-, hconnect, -⟩
  · have hbound : bound w.log s.WskSocket := by
      by_contra hunbound
      rw [hstatus.2 hunbound] at hfail
      cases hfail
    exact ⟨_, _, hcall, hkept w₁ hserved.completed, _, rfl, .inl ⟨hbound, hlog₁, hfail⟩⟩
  · obtain ⟨ctx₁, -, hlog₂⟩ := hserved'.log
    rw [hlog₁] at hlog₂
    refine ⟨_, _, hcall, hkept w₂ hserved'.completed, _, rfl, .inr ⟨_, hstatus.1 hok, hlog₂, rfl, rfl, ?_⟩⟩
    intro hfail
    change bound w₂.log _
    rw [hlog₂]
    exact hbinds.keeps _ _ _ a hvia rfl hfail (hbinds.binds _ _ _ _ hvia rfl hok)
  · exact absurd hfns.2 hconnect

theorem ends_of_connect (hbinds : Binds E bound) (h : IsConnection p q w) {Status : NTSTATUS}
    (hcall : Ks.ksConnect E w p a = returns (Status, w')) : Ends bound p q w a Status w' := by
  obtain ⟨Status₁, w₁, hcall₁, hends⟩ := connect_ends hbinds h a
  obtain ⟨rfl, rfl⟩ := Prod.mk.inj (Outcome.returns.inj (hcall.symm.trans hcall₁))
  exact hends

/-- A call connects exactly if the socket is not bound. -/
theorem connects_iff (hbinds : Binds E bound) (h : IsConnection p q w) (a : SOCKADDR) :
    Connects E p w a ↔ ¬bound w.log q := by
  constructor
  · rintro ⟨Status, w', new, connect, hcall, hlog, hconnect, -⟩ hbound
    obtain ⟨-, r, hbind, ⟨-, hlog₁, -⟩ | ⟨-, hunbound, -⟩⟩ := ends_of_connect hbinds h hcall
    · -- the last request is the one that binds
      rw [hlog₁] at hlog
      obtain rfl := List.singleton_inj.1 (List.append_inj_right' hlog rfl)
      rw [hbind] at hconnect
      cases hconnect
    · exact hunbound hbound
  · intro hunbound
    obtain ⟨Status, w', hcall, -, r, -, ⟨hbound, -⟩ | ⟨connect, -, hlog, hconnect, hstatus, -⟩⟩ :=
      connect_ends hbinds h a
    · exact absurd hbound hunbound
    · exact ⟨Status, w', [r], connect, hcall, hlog, hconnect, hstatus⟩

theorem failed_some (hfailed : failed E p w a = some w') :
    ∃ Status, Ks.ksConnect E w p a = returns (Status, w') ∧ ntSuccess Status = false := by
  obtain ⟨⟨Status, w₁⟩, hvalue, h⟩ := Option.bind_eq_some_iff.1 hfailed
  cases hok : ntSuccess Status with
  | false =>
    rw [hok, if_neg Bool.false_ne_true] at h
    obtain rfl := Option.some.inj h
    exact ⟨Status, value_eq_some.1 hvalue, hok⟩
  | true =>
    rw [hok, if_pos rfl] at h
    cases h

/-- After a failure the socket is bound. -/
theorem bound_of_failed (hbinds : Binds E bound) (h : IsConnection p q w) (hunbound : ¬bound w.log q)
    (hfailed : failed E p w a = some w') : bound w'.log q := by
  obtain ⟨Status, hcall, hfail⟩ := failed_some hfailed
  obtain ⟨-, r, -, ⟨hbound, -⟩ | ⟨connect, -, -, -, -, hkept⟩⟩ := ends_of_connect hbinds h hcall
  · exact absurd hbound hunbound
  · exact hkept hfail

theorem failed_isConnection (hbinds : Binds E bound) (h : IsConnection p q w) (hfailed : failed E p w a = some w') :
    IsConnection p q w' := by
  obtain ⟨Status, hcall, -⟩ := failed_some hfailed
  exact (ends_of_connect hbinds h hcall).1

/-! ## Attempts on a new socket -/

/-- What `KsCreateConnectionSocket` makes is an unbound connection. -/
theorem isConnection_of_create (hbinds : Binds E bound) {AddressFamily : ADDRESS_FAMILY} {SocketType : UInt16}
    {Protocol : UInt32} {w₀ : World} {Status : NTSTATUS}
    (h : Ks.ksCreateConnectionSocket E w₀ AddressFamily SocketType Protocol = some (Status, some p, w)) :
    ∃ q, IsConnection p q w ∧ ¬bound w.log q := by
  unfold Ks.ksCreateConnectionSocket at h
  rcases Ks.ksCreateSocket_cases E w₀ AddressFamily SocketType Protocol WSK_FLAG_CONNECTION_SOCKET with
    ⟨pool, -, hcall⟩ | ⟨p', pool, -, ⟨irps, -, hcall⟩ | ⟨id, irps, io, ctx, w₁, -, hserved, hcall⟩⟩
  · rw [hcall] at h
    cases h
  · rw [hcall] at h
    cases h
  · rw [hcall] at h
    cases hok : ntSuccess io.Status with
    | false =>
      rw [hok, if_neg Bool.false_ne_true] at h
      cases h
    | true =>
      rw [hok, if_pos rfl] at h
      cases h
      obtain ⟨ctx₀, -, hlog⟩ := hserved.log
      refine ⟨io.Information, ⟨_, id, Function.update_self _ _ _, rfl, hserved.created hok, hserved.completed.idle⟩, ?_⟩
      change ¬bound w₁.log io.Information
      rw [hlog]
      apply hbinds.created
      simp [creates, hok]

/-- For every connection socket of `KsCreateConnectionSocket` and every sequence
of calls of `KsConnect` on it that ends with the first one that succeeds: all of
them connect exactly if the socket is not bound at any of them, and that is
exactly if no call is made after one that has failed. -/
theorem retries_iff (hbinds : Binds E bound) {AddressFamily : ADDRESS_FAMILY} {SocketType : UInt16}
    {Protocol : UInt32} {w₀ : World} {Status : NTSTATUS}
    (h : Ks.ksCreateConnectionSocket E w₀ AddressFamily SocketType Protocol = some (Status, some p, w))
    (calls : List SOCKADDR) :
    ∃ q, IsConnection p q w ∧
      ((∀ x ∈ Run.visits (failed E p) w calls, Connects E p x.1 x.2) ↔
        ∀ x ∈ Run.visits (failed E p) w calls, ¬bound x.1.log q) ∧
      ((∀ x ∈ Run.visits (failed E p) w calls, Connects E p x.1 x.2) ↔
        (Run.visits (failed E p) w calls).length ≤ 1) := by
  obtain ⟨q, hconnection, hunbound⟩ := isConnection_of_create hbinds h
  have hvisits : (∀ x ∈ Run.visits (failed E p) w calls, Connects E p x.1 x.2) ↔
      ∀ x ∈ Run.visits (failed E p) w calls, ¬bound x.1.log q :=
    Run.visits_iff (G := fun w _ => ¬bound w.log q) (fun w a hw => connects_iff hbinds hw a)
      (fun w a w' hw _ hs => failed_isConnection hbinds hw hs) hconnection calls
  refine ⟨q, hconnection, hvisits, hvisits.trans ?_⟩
  cases calls with
  | nil => simp [Run.visits]
  | cons a rest =>
    rw [Run.visits_cons, List.forall_mem_cons]
    cases hfailed : failed E p w a with
    | none => simp [hunbound]
    | some w' =>
      have hbound := bound_of_failed hbinds hconnection hunbound hfailed
      cases rest with
      | nil => simp [Run.visits, hunbound]
      | cons b rest =>
        -- the second call finds the socket bound
        refine iff_of_false ?_ ?_
        · rintro ⟨-, hall⟩
          exact hall (w', b) List.mem_cons_self hbound
        · simp [Run.visits]

/-! ## A provider that refuses connections -/

def binds (r : Request) (q : Nat) : Bool :=
  match r.call with
  | .WskBind _ => ntSuccess r.io.Status && r.target == .socket q .connection .connection
  | _ => false

/-- A socket is bound from a `WskBind` that succeeds on. -/
def isBound (log : List Request) (q : Nat) : Bool :=
  log.foldl (fun bound r => if creates r q then false else bound || binds r q) false

/-- No `WskConnect` succeeds. -/
def refusing : Env :=
  { Env.obliging with
    provider := fun log target call =>
      match call, target with
      | .WskBind _, .socket q _ _ => ⟨.now, ⟨if isBound log q then STATUS_UNSUCCESSFUL else STATUS_SUCCESS, 0⟩⟩
      | .WskConnect _, _ => ⟨.late, ⟨STATUS_UNSUCCESSFUL, 0⟩⟩
      | _, _ => ⟨.now, ⟨STATUS_SUCCESS, 0⟩⟩ }

theorem isBound_append (log : List Request) (r : Request) (q : Nat) :
    isBound (log ++ [r]) q = if creates r q then false else isBound log q || binds r q := by
  rw [isBound, List.foldl_append]
  rfl

theorem refusing_binds : Binds refusing fun log q => isBound log q = true where
  created log r q h := by simp [isBound_append, h]
  bind_iff log q a := by
    cases h : isBound log q <;> simp [refusing, h, ntSuccess, STATUS_UNSUCCESSFUL, STATUS_SUCCESS]
  binds log r q a htarget hcall hok := by simp [isBound_append, creates, binds, hcall, htarget, hok]
  keeps log r q a htarget hcall hfail h := by simp [isBound_append, creates, hcall, h]

/-- A first attempt, at 192.0.2.1, port 80. -/
def address : SOCKADDR := ⟨AF_INET, 0x5000, 0x010200C0⟩

/-- The world with the new socket 1. -/
def created : World := ((Ks.ksCreateConnectionSocket refusing .init 2 1 6).map (·.2.2)).getD .init

theorem created_eq : Ks.ksCreateConnectionSocket refusing .init 2 1 6 = some (STATUS_SUCCESS, some 1, created) := by
  rfl

/-- One attempt connects, though it fails. -/
theorem one_attempt : Connects refusing 1 created address := by
  obtain ⟨q, -, -, hlength⟩ := retries_iff refusing_binds created_eq [address]
  refine hlength.2 ?_ (created, address) List.mem_cons_self
  rw [Run.visits_cons]
  cases failed refusing 1 created address <;> simp [Run.visits]

/-- The first attempt makes two requests and fails, the second one only binds, and fails with that. -/
theorem second_attempt_binds :
    ∃ w w', Ks.ksConnect refusing created 1 address = returns (STATUS_UNSUCCESSFUL, w) ∧
      w.log.map (·.call) = [.WskSocket 2 1 6 WSK_FLAG_CONNECTION_SOCKET, .WskBind ⟨AF_INET, 0, INADDR_ANY⟩,
        .WskConnect address] ∧
      Ks.ksConnect refusing w 1 address = returns (STATUS_UNSUCCESSFUL, w') ∧
      w'.log.map (·.call) = w.log.map (·.call) ++ [.WskBind ⟨AF_INET, 0, INADDR_ANY⟩] ∧
      ¬∀ x ∈ Run.visits (failed refusing 1) created [address, address], Connects refusing 1 x.1 x.2 := by
  have hrun : (Ks.ksConnect refusing created 1 address).value.bind (fun r =>
      (Ks.ksConnect refusing r.2 1 address).value.map fun r' => (r.1, r.2.log.map (·.call), r'.1, r'.2.log.map (·.call))) =
      some (STATUS_UNSUCCESSFUL, [.WskSocket 2 1 6 WSK_FLAG_CONNECTION_SOCKET, .WskBind ⟨AF_INET, 0, INADDR_ANY⟩,
        .WskConnect address], STATUS_UNSUCCESSFUL, [.WskSocket 2 1 6 WSK_FLAG_CONNECTION_SOCKET,
        .WskBind ⟨AF_INET, 0, INADDR_ANY⟩, .WskConnect address, .WskBind ⟨AF_INET, 0, INADDR_ANY⟩]) := by
    decide +kernel
  obtain ⟨⟨Status, w⟩, hfirst, h⟩ := Option.bind_eq_some_iff.1 hrun
  obtain ⟨⟨Status', w'⟩, hsecond, h⟩ := Option.map_eq_some_iff.1 h
  obtain ⟨rfl, hlog, rfl, hlog'⟩ : _ ∧ _ ∧ _ ∧ _ := by simpa only [Prod.mk.injEq] using h
  refine ⟨w, w', value_eq_some.1 hfirst, hlog, value_eq_some.1 hsecond, by rw [hlog, hlog']; rfl, ?_⟩
  intro hall
  have hfailed : failed refusing 1 created address = some w := by
    rw [failed, hfirst]
    rfl
  have hvisited : (w, address) ∈ Run.visits (failed refusing 1) created [address, address] :=
    @Run.visits_of_exec _ _ _ created w [address] address [] (by simp [Run.exec_cons, hfailed])
  obtain ⟨Status₂, w₂, new, connect, hcall, hlog₂, hconnect, -⟩ := hall _ hvisited
  obtain ⟨-, rfl⟩ := Prod.mk.inj (Outcome.returns.inj ((value_eq_some.1 hsecond).symm.trans hcall))
  rw [hlog₂, List.map_append, List.map_cons, List.map_nil, hconnect] at hlog'
  have hlast := congrArg List.getLast? hlog'
  rw [List.getLast?_concat] at hlast
  cases hlast

end KSock.Retries
