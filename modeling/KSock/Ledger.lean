import KSock.Lib.Ledger
import KSock.Discipline
/-!
# The resources of a `KSOCKET`

A `KSOCKET` takes a block of the pool, an IRP and a socket of the provider. We
keep them all in one ledger, and ask of each call that makes a `KSOCKET` that it
takes the three or nothing, and of each that closes one that it gives them back.

`KsCreateSocket` and `KsAccept` do so for some patterns of failure only. In a
run that has no others the ledger is what it was at the start and what the
`KSOCKET`s that are held have taken.
-/
open KSockLib Outcome

namespace KSock

/-- What can be outstanding. -/
inductive Resource where
  | block (p : Nat)
  | irp (id : Nat)
  | wskSocket (p : Nat)
  deriving DecidableEq, Repr

namespace World

/-- A resource is outstanding. -/
def Outstanding (w : World) : Resource → Prop
  | .block p => p ∈ w.pool.live
  | .irp id => id ∈ w.irps.live
  | .wskSocket p => p ∈ w.wskSockets

instance (w : World) : (x : Resource) → Decidable (w.Outstanding x)
  | .block p => inferInstanceAs (Decidable (p ∈ w.pool.live))
  | .irp id => inferInstanceAs (Decidable (id ∈ w.irps.live))
  | .wskSocket p => inferInstanceAs (Decidable (p ∈ w.wskSockets))

def ledger (w : World) : Set Resource := {x | w.Outstanding x}

end World

/-- What a `KSOCKET` at the address with the IRP has. -/
def KSOCKET.has (s : KSOCKET) (p id : Nat) : Set Resource := {.block p, .irp id, .wskSocket s.WskSocket}

namespace Ks

open AsyncContext

variable {E : Env} {w w' : World} {p id : Nat} {s : KSOCKET}

/-- A call that makes a `KSOCKET` returns. If it succeeds there is one with an
IRP and with the table of its provider's socket, and the ledger has grown by
just what it has; if it fails the ledger is the same. -/
def Settled (w : World) (call : Option (NTSTATUS × Option Nat × World)) : Prop :=
  ∃ Status NewSocket w', call = some (Status, NewSocket, w') ∧
    (ntSuccess Status = true → ∃ q s irp, NewSocket = some q ∧ w'.sockets q = some s ∧
      s.AsyncContext.Irp = some irp ∧ s.WskDispatch = w'.dispatch s.WskSocket ∧
      Disjoint (s.has q irp.id) w.ledger ∧ w'.ledger = w.ledger ∪ s.has q irp.id) ∧
    (ntSuccess Status = false → w'.ledger = w.ledger)

/-- The provider would succeed. -/
def ProviderSucceeds (E : Env) (w : World) (target : Target) (call : WskCall) : Prop :=
  ntSuccess (E.provider w.log target call).io.Status = true

instance (E : Env) (w : World) (target : Target) (call : WskCall) : Decidable (ProviderSucceeds E w target call) :=
  inferInstanceAs (Decidable (_ = true))

/-- There is no block, or there is one and an IRP and the provider succeeds. -/
def CreateSpared (E : Env) (w : World) (AddressFamily : ADDRESS_FAMILY) (SocketType : UInt16)
    (Protocol Flags : UInt32) : Prop :=
  (w.pool.alloc E.pool).1 = none ∨ (w.irps.alloc E.irp).1 ≠ none ∧
    ProviderSucceeds E w .client (.WskSocket AddressFamily SocketType Protocol Flags)

instance (E : Env) (w : World) (af : ADDRESS_FAMILY) (st : UInt16) (pr fl : UInt32) :
    Decidable (CreateSpared E w af st pr fl) :=
  inferInstanceAs (Decidable (_ ∨ _))

/-- The socket has the function, and the provider fails or there are a block and
an IRP. -/
def AcceptSpared (E : Env) (w : World) (s : KSOCKET) : Prop :=
  s.Supports .WskAccept ∧ (¬ProviderSucceeds E w (s.via .listen) .WskAccept ∨
    (w.pool.alloc E.pool).1 ≠ none ∧ (w.irps.alloc E.irp).1 ≠ none)

instance (E : Env) (w : World) (s : KSOCKET) : Decidable (AcceptSpared E w s) := inferInstanceAs (Decidable (_ ∧ _))

/-- The patterns of failure that a call on a socket stands. It names functions
that the socket has; the second one of `KsConnect` is called if the first one has
succeeded. -/
def CallSpared (E : Env) (w : World) (s : KSOCKET) : KsCall → Prop
  | .accept => AcceptSpared E w s
  | .close => ProviderSucceeds E w (s.via .connection) .WskCloseSocket
  | .connect _ => s.Supports .WskBind ∧
      (ProviderSucceeds E w (s.via .connection) (.WskBind ⟨AF_INET, 0, INADDR_ANY⟩) → s.Supports .WskConnect)
  | c => ∀ fn ∈ c.names, s.Supports fn

instance (E : Env) (w : World) (s : KSOCKET) : (c : KsCall) → Decidable (CallSpared E w s c)
  | .accept => inferInstanceAs (Decidable (AcceptSpared E w s))
  | .close => inferInstanceAs (Decidable (ProviderSucceeds _ _ _ _))
  | .connect _ => inferInstanceAs (Decidable (_ ∧ (_ → _)))
  | .bind a => inferInstanceAs (Decidable (∀ fn ∈ (KsCall.bind a).names, s.Supports fn))
  | .send b n f => inferInstanceAs (Decidable (∀ fn ∈ (KsCall.send b n f).names, s.Supports fn))
  | .recv b n f => inferInstanceAs (Decidable (∀ fn ∈ (KsCall.recv b n f).names, s.Supports fn))
  | .sendTo b n f a => inferInstanceAs (Decidable (∀ fn ∈ (KsCall.sendTo b n f a).names, s.Supports fn))
  | .recvFrom b n f a => inferInstanceAs (Decidable (∀ fn ∈ (KsCall.recvFrom b n f a).names, s.Supports fn))

/-! ## The ledger after a step -/

theorem ledger_congr (hpool : w'.pool.live = w.pool.live) (hirps : w'.irps.live = w.irps.live)
    (hwsk : w'.wskSockets = w.wskSockets) : w'.ledger = w.ledger := by
  ext x
  cases x <;> simp [World.ledger, World.Outstanding, hpool, hirps, hwsk]

/-- The three resources are new. -/
theorem ledger_grows (hq : p ∉ w.pool.live) (hid : id ∉ w.irps.live) (hs : s.WskSocket ∉ w.wskSockets)
    (hpool : w'.pool.live = insert p w.pool.live) (hirps : w'.irps.live = insert id w.irps.live)
    (hwsk : w'.wskSockets = insert s.WskSocket w.wskSockets) :
    Disjoint (s.has p id) w.ledger ∧ w'.ledger = w.ledger ∪ s.has p id := by
  constructor
  · rw [Set.disjoint_left]
    rintro x (rfl | rfl | rfl)
    · exact hq
    · exact hid
    · exact hs
  · ext x
    cases x <;> simp [World.ledger, World.Outstanding, KSOCKET.has, hpool, hirps, hwsk]

theorem has_block (s : KSOCKET) (p id : Nat) : Resource.block p ∈ s.has p id := .inl rfl

theorem has_irp (s : KSOCKET) (p id : Nat) : Resource.irp id ∈ s.has p id := .inr (.inl rfl)

theorem has_wskSocket (s : KSOCKET) (p id : Nat) : Resource.wskSocket s.WskSocket ∈ s.has p id := .inr (.inr rfl)

/-! ## The provider's sockets -/

/-- The provider's answer is a socket that is new. -/
def Makes (w : World) (answer : IoStatusBlock × World) : Prop :=
  answer.1.Information ∉ w.wskSockets ∧ answer.2.wskSockets = insert answer.1.Information w.wskSockets

theorem serve_create (E : Env) (w : World) (AddressFamily : ADDRESS_FAMILY) (SocketType : UInt16)
    (Protocol Flags : UInt32) {io : IoStatusBlock} (hok : ntSuccess io.Status = true) :
    Makes w (w.serve E .client (.WskSocket AddressFamily SocketType Protocol Flags) io) := by
  simp only [World.serve, hok, if_true]
  exact ⟨(E.handle w.wskSockets).property, rfl⟩

/-- A request that fails leaves the provider's sockets alone. -/
theorem serve_failed (E : Env) (w : World) (target : Target) (call : WskCall) {io : IoStatusBlock}
    (hok : ntSuccess io.Status = false) : (w.serve E target call io).2.wskSockets = w.wskSockets := by
  simp [World.serve, hok]

/-! ## Calls that make a `KSOCKET` -/

theorem settled_iff_of_fails {call : Option (NTSTATUS × Option Nat × World)} {Status : NTSTATUS} {o : Option Nat}
    (hcall : call = some (Status, o, w')) (hfail : ntSuccess Status = false) :
    Settled w call ↔ w'.ledger = w.ledger := by
  constructor
  · rintro ⟨_, _, _, hcall', -, hsame⟩
    cases hcall.symm.trans hcall'
    exact hsame hfail
  · intro hsame
    refine ⟨Status, o, w', hcall, ?_, fun _ => hsame⟩
    intro hok
    simp [hfail] at hok

/-- A call that fails and has left something behind. -/
theorem not_settled_of_leak {call : Option (NTSTATUS × Option Nat × World)} {Status : NTSTATUS} {o : Option Nat}
    (hcall : call = some (Status, o, w')) (hfail : ntSuccess Status = false) {x : Resource} (hx : x ∈ w'.ledger)
    (hnew : x ∉ w.ledger) : ¬Settled w call := by
  rw [settled_iff_of_fails hcall hfail]
  intro hsame
  exact hnew (hsame ▸ hx)

theorem settled_iff_of_succeeds {call : Option (NTSTATUS × Option Nat × World)} {Status : NTSTATUS} {q : Nat}
    (hcall : call = some (Status, some q, w')) (hok : ntSuccess Status = true) :
    Settled w call ↔ ∃ s irp, w'.sockets q = some s ∧ s.AsyncContext.Irp = some irp ∧
      s.WskDispatch = w'.dispatch s.WskSocket ∧ Disjoint (s.has q irp.id) w.ledger ∧
      w'.ledger = w.ledger ∪ s.has q irp.id := by
  constructor
  · rintro ⟨_, _, _, hcall', hmakes, -⟩
    cases hcall.symm.trans hcall'
    obtain ⟨q', s, irp, hq, hmade⟩ := hmakes hok
    obtain rfl := Option.some.inj hq
    exact ⟨s, irp, hmade⟩
  · rintro ⟨s, irp, hmade⟩
    refine ⟨Status, some q, w', hcall, fun _ => ⟨q, s, irp, rfl, hmade⟩, ?_⟩
    intro hfail
    simp [hok] at hfail

/-! ## `KsCreateSocket` -/

theorem create_settled_iff (E : Env) (w : World) (AddressFamily : ADDRESS_FAMILY) (SocketType : UInt16)
    (Protocol Flags : UInt32) :
    Settled w (ksCreateSocket E w AddressFamily SocketType Protocol Flags) ↔
      CreateSpared E w AddressFamily SocketType Protocol Flags := by
  unfold CreateSpared
  rcases ksCreateSocket_cases E w AddressFamily SocketType Protocol Flags with
    ⟨pool, halloc, heq⟩ | ⟨q, pool, halloc, hcases⟩
  · rw [settled_iff_of_fails heq ntSuccess_insufficient, halloc]
    exact iff_of_true (ledger_congr (Heap.alloc_none halloc) rfl rfl) (.inl rfl)
  rw [halloc, or_iff_right (Option.some_ne_none q)]
  obtain ⟨hq, hpool⟩ := Heap.alloc_some halloc
  -- the block that is still out when the call fails
  have hblock {w' : World} (hlive : w'.pool = pool) : Resource.block q ∈ w'.ledger := by
    show q ∈ w'.pool.live
    rw [hlive, hpool]
    exact Finset.mem_insert_self _ _
  rcases hcases with ⟨irps, hirp, heq⟩ | ⟨id, irps, io, ctx, w₁, hirp, hserved, heq⟩
  · rw [hirp]
    apply iff_of_false
    · exact not_settled_of_leak heq ntSuccess_insufficient (hblock rfl) hq
    · intro h
      exact h.1 rfl
  rw [hirp, and_iff_right (Option.some_ne_none id)]
  obtain ⟨hid, hirps⟩ := Heap.alloc_some hirp
  obtain ⟨hio, hwsk, -⟩ := hserved.provider
  have hstatus : io.Status =
      (E.provider w.log .client (.WskSocket AddressFamily SocketType Protocol Flags)).io.Status := by
    rw [hio, serve_status]
  rw [ProviderSucceeds, ← hstatus]
  cases hok : ntSuccess io.Status with
  | false =>
    rw [hok, if_neg Bool.false_ne_true] at heq
    exact iff_of_false (not_settled_of_leak heq hok (hblock hserved.pool) hq) Bool.false_ne_true
  | true =>
    rw [hok, if_pos rfl] at heq
    obtain ⟨irp, hirp₂, rfl, -, -⟩ := hserved.completed
    obtain ⟨hnew, hmade⟩ := serve_create E { w with pool := pool, irps := irps } AddressFamily SocketType Protocol
      Flags (hstatus ▸ hok)
    rw [← hio] at hnew hmade
    have hgrows := @ledger_grows w
      (w₁.store q ⟨io.Information, w₁.dispatch io.Information, ctx⟩) q irp.id
      ⟨io.Information, w₁.dispatch io.Information, ctx⟩ hq hid hnew (by rw [World.store, hserved.pool]; exact hpool)
      (by rw [World.store, hserved.irps]; exact hirps) (by rw [World.store, hwsk]; exact hmade)
    rw [settled_iff_of_succeeds heq hok]
    exact iff_of_true ⟨_, irp, Function.update_self _ _ _, hirp₂, rfl, hgrows⟩ rfl

/-! ## `KsAccept` -/

theorem serve_accept (E : Env) (w : World) (s : KSOCKET) {io : IoStatusBlock} (hok : ntSuccess io.Status = true) :
    Makes w (w.serve E (s.via .listen) .WskAccept io) := by
  simp only [World.serve, KSOCKET.via, hok, if_true]
  exact ⟨(E.handle w.wskSockets).property, rfl⟩

/-- What `KsAccept` makes of a new socket of the provider lacks nothing but an
IRP. -/
theorem adopt_settled_iff (E : Env) {w₁ : World} {pool : Heap} {call : Option (NTSTATUS × Option Nat × World)}
    {Status : NTSTATUS} {q WskSocket : Nat} (hcall : call = some (Status, some q, adopt E w₁ pool q WskSocket))
    (hok : ntSuccess Status = true) (halloc : w.pool.alloc E.pool = (some q, pool)) (hirps₁ : w₁.irps = w.irps)
    (hnew : WskSocket ∉ w.wskSockets) (hmade : w₁.wskSockets = insert WskSocket w.wskSockets) :
    Settled w call ↔ (w.irps.alloc E.irp).1 ≠ none := by
  obtain ⟨hq, hpool⟩ := Heap.alloc_some halloc
  rw [settled_iff_of_succeeds hcall hok]
  rcases hirp : w.irps.alloc E.irp with ⟨_ | id, irps⟩
  · apply iff_of_false
    · rintro ⟨s, irp, hs, hirp', -⟩
      simp only [adopt, Function.update_self, Option.some.injEq] at hs
      subst hs
      simp [kspAsyncContextAllocate, hirps₁, hirp] at hirp'
    · intro h
      exact h rfl
  · obtain ⟨hid, hirps⟩ := Heap.alloc_some hirp
    let irp : IRP := ⟨id, none, true, ⟨STATUS_SUCCESS, 0⟩⟩
    have ha : kspAsyncContextAllocate E.irp w₁.irps = (STATUS_SUCCESS, ⟨false, some irp⟩, irps) := by
      rw [hirps₁]
      simp [kspAsyncContextAllocate, hirp, irp]
    have hgrows := @ledger_grows w (adopt E w₁ pool q WskSocket) q id
      ⟨WskSocket, w₁.dispatch WskSocket, ⟨false, some irp⟩⟩ hq hid hnew hpool (by rw [adopt, ha]; exact hirps) hmade
    refine iff_of_true ⟨_, irp, ?_, rfl, rfl, hgrows⟩ (Option.some_ne_none id)
    rw [adopt, ha]
    exact Function.update_self _ _ _

theorem accept_settled_iff (E : Env) (hs : w.sockets p = some s) (hidle : s.AsyncContext.Idle id) :
    Settled w (ksAccept E w p).value ↔ AcceptSpared E w s := by
  unfold AcceptSpared
  by_cases hfn : s.Supports .WskAccept
  swap
  · -- the call does not return
    obtain ⟨ctx₀, -, heq⟩ := ksAccept_strays E hs hidle hfn
    apply iff_of_false
    · rintro ⟨_, _, _, hcall, -⟩
      rw [heq] at hcall
      cases hcall
    · intro h
      exact hfn h.1
  rw [and_iff_right hfn]
  obtain ⟨io, ctx, w₁, hserved, hcases⟩ := ksAccept_spec E hs hidle hfn
  obtain ⟨hio, hwsk, -⟩ := hserved.provider
  have hstatus : io.Status = (E.provider w.log (s.via .listen) .WskAccept).io.Status := by rw [hio, serve_status]
  rw [ProviderSucceeds, ← hstatus]
  rcases hcases with ⟨hok, heq⟩ | ⟨hok, pool, halloc, heq⟩ | ⟨hok, q, pool, halloc, heq⟩
  · rw [settled_iff_of_fails (value_eq_some.2 heq) hok, hok]
    refine iff_of_true ?_ (.inl Bool.false_ne_true)
    exact ledger_congr (congrArg Heap.live hserved.pool) (congrArg Heap.live hserved.irps)
      (hwsk.trans (serve_failed E w _ _ (hstatus ▸ hok)))
  · rw [or_iff_right (not_not_intro hok), halloc]
    obtain ⟨hnew, hmade⟩ := serve_accept E w s (hstatus ▸ hok)
    apply iff_of_false
    · -- the accepted socket of the provider is in no `KSOCKET`
      refine not_settled_of_leak (value_eq_some.2 heq) ntSuccess_insufficient (x := .wskSocket _) ?_ hnew
      show _ ∈ w₁.wskSockets
      rw [hwsk, hmade]
      exact Finset.mem_insert_self _ _
    · intro h
      exact h.1 rfl
  · rw [or_iff_right (not_not_intro hok), halloc, ne_eq, and_iff_right (Option.some_ne_none q)]
    obtain ⟨hnew, hmade⟩ := serve_accept E w s (hstatus ▸ hok)
    rw [← hio] at hnew hmade
    exact adopt_settled_iff E (value_eq_some.2 heq) hok halloc hserved.irps hnew (hwsk.trans hmade)

/-! ## The other calls -/

/-- What the `KSOCKET` at the address has. -/
def resources (w : World) (p : Nat) : Set Resource :=
  {x | ∃ s irp, w.sockets p = some s ∧ s.AsyncContext.Irp = some irp ∧ x ∈ s.has p irp.id}

theorem resources_eq (hs : w.sockets p = some s) (hidle : s.AsyncContext.Idle id) : resources w p = s.has p id := by
  obtain ⟨irp, hirp, rfl, -⟩ := hidle
  ext x
  simp [resources, hs, hirp]

/-- A call that has only used the IRP of the `KSOCKET` at `p`. -/
def UsesIrp (w : World) (p id : Nat) (s : KSOCKET) (w' : World) : Prop :=
  w'.ledger = w.ledger ∧ ∃ ctx : AsyncContext, ctx.Idle id ∧
    w'.sockets = Function.update w.sockets p (some { s with AsyncContext := ctx })

theorem Served.ledger_eq {target : Target} {call : WskCall} {io : IoStatusBlock} {ctx : AsyncContext}
    (h : Served E w target call id io ctx w')
    (hquiet : ∀ io, (w.serve E target call io).2.wskSockets = w.wskSockets) : w'.ledger = w.ledger :=
  ledger_congr (congrArg Heap.live h.pool) (congrArg Heap.live h.irps) (h.provider.2.1.trans (hquiet _))

theorem Served.usesIrp {target : Target} {call : WskCall} {io : IoStatusBlock} {ctx : AsyncContext}
    (h : Served E w target call id io ctx w')
    (hquiet : ∀ io, (w.serve E target call io).2.wskSockets = w.wskSockets) :
    UsesIrp w p id s (w'.store p { s with AsyncContext := ctx }) :=
  ⟨h.ledger_eq hquiet, ctx, h.completed.idle, by rw [World.store, h.sockets]⟩

/-- The other calls use only the IRP, or go astray. -/
def UsesOrStrays (E : Env) (w : World) (p id : Nat) (s : KSOCKET) (c : KsCall) : Prop :=
  (CallSpared E w s c ∧ ∃ r w', ksCall E p w c = returns (r, w') ∧ r.NewSocket = none ∧ UsesIrp w p id s w') ∨
    (¬CallSpared E w s c ∧ ∃ x, ksCall E p w c = astray x)

/-- A call that names one function. -/
theorem usesOrStrays_of_names {c : KsCall} (fn : WskFn)
    (hspared : CallSpared E w s c ↔ ∀ fn' ∈ [fn], s.Supports fn')
    (huses : s.Supports fn → ∃ r w', ksCall E p w c = returns (r, w') ∧ r.NewSocket = none ∧ UsesIrp w p id s w')
    (hstrays : ¬s.Supports fn → ∃ x, ksCall E p w c = astray x) : UsesOrStrays E w p id s c := by
  rw [List.forall_mem_singleton] at hspared
  by_cases hfn : s.Supports fn
  · exact .inl ⟨hspared.2 hfn, huses hfn⟩
  · exact .inr ⟨fun h => hfn (hspared.1 h), hstrays hfn⟩

theorem connect_usesOrStrays (E : Env) (hs : w.sockets p = some s) (hidle : s.AsyncContext.Idle id) (a : SOCKADDR) :
    UsesOrStrays E w p id s (.connect a) := by
  by_cases hbind : s.Supports .WskBind
  swap
  · obtain ⟨ctx₀, -, heq⟩ := ksConnect_strays E hs hidle hbind a
    exact .inr ⟨fun h => hbind h.1, _, by rw [ksCall, heq]; rfl⟩
  obtain ⟨io, ctx, w₁, hserved, hcases⟩ := ksConnect_spec E hs hidle hbind a
  have hstatus : ProviderSucceeds E w (s.via .connection) (.WskBind ⟨AF_INET, 0, INADDR_ANY⟩) ↔
      ntSuccess io.Status = true := by
    rw [ProviderSucceeds, hserved.provider.1, serve_status]
  rcases hcases with ⟨hok, heq⟩ | ⟨-, hconnect, io', ctx', w₂, hserved', heq⟩ | ⟨hok, hconnect, ctx₀, -, heq⟩
  · -- the table need not have `WskConnect` if the bind fails
    refine .inl ⟨⟨hbind, fun h => ?_⟩, _, _, by rw [ksCall, heq]; rfl, rfl, hserved.usesIrp (by simp [World.serve])⟩
    exact absurd (hstatus.1 h) (by simp [hok])
  · obtain ⟨hledger, ctx₂, hctx, hsockets⟩ := hserved'.usesIrp (p := p) (s := s) (by simp [World.serve])
    have hledger₁ : w₁.ledger = w.ledger := hserved.ledger_eq (by simp [World.serve])
    exact .inl ⟨⟨hbind, fun _ => hconnect⟩, _, _, by rw [ksCall, heq]; rfl, rfl, hledger.trans hledger₁, ctx₂, hctx,
      hserved.sockets ▸ hsockets⟩
  · exact .inr ⟨fun h => hconnect (h.2 (hstatus.2 hok)), _, by rw [ksCall, heq]; rfl⟩

theorem bind_usesOrStrays (E : Env) (hs : w.sockets p = some s) (hidle : s.AsyncContext.Idle id) (a : SOCKADDR) :
    UsesOrStrays E w p id s (.bind a) := by
  apply usesOrStrays_of_names .WskBind Iff.rfl
  · intro hfn
    obtain ⟨io, ctx, w₁, heq, hserved⟩ := ksBind_spec E hs hidle hfn a
    exact ⟨_, _, by rw [ksCall, heq]; rfl, rfl, hserved.usesIrp (by simp [World.serve])⟩
  · intro hfn
    obtain ⟨ctx₀, -, heq⟩ := ksBind_strays E hs hidle hfn a
    exact ⟨_, by rw [ksCall, heq]; rfl⟩

theorem sendRecv_usesOrStrays (E : Env) (hs : w.sockets p = some s) (hidle : s.AsyncContext.Idle id) (b : Nat)
    (n f : UInt32) (Send : Bool) : UsesOrStrays E w p id s (if Send then .send b n f else .recv b n f) := by
  apply usesOrStrays_of_names (sendRecvFn Send)
  · cases Send <;> exact Iff.rfl
  · intro hfn
    obtain ⟨io, ctx, w₁, heq, hserved⟩ := ksSendRecv_spec E hs hidle b n f Send hfn
    have hquiet (io : IoStatusBlock) :
        (w.serve E (s.via .connection) (sendRecvCall b n f Send) io).2.wskSockets = w.wskSockets := by
      cases Send <;> simp [World.serve, sendRecvCall]
    exact ⟨_, _, by rw [ksCall_sendRecv, heq]; rfl, rfl, hserved.usesIrp hquiet⟩
  · intro hfn
    obtain ⟨ctx₀, -, heq⟩ := ksSendRecv_strays E hs hidle b n f Send hfn
    exact ⟨_, by rw [ksCall_sendRecv, heq]; rfl⟩

theorem sendRecvUdp_usesOrStrays (E : Env) (hs : w.sockets p = some s) (hidle : s.AsyncContext.Idle id) (b : Nat)
    (n f : UInt32) (a : Nat) (Send : Bool) :
    UsesOrStrays E w p id s (if Send then .sendTo b n f a else .recvFrom b n f a) := by
  apply usesOrStrays_of_names (sendRecvUdpFn Send)
  · cases Send <;> exact Iff.rfl
  · intro hfn
    obtain ⟨io, ctx, w₁, heq, hserved⟩ := ksSendRecvUdp_spec E hs hidle b n f a Send hfn
    have hquiet (io : IoStatusBlock) :
        (w.serve E (s.via .datagram) (sendRecvUdpCall b n f a Send) io).2.wskSockets = w.wskSockets := by
      cases Send <;> simp [World.serve, sendRecvUdpCall]
    exact ⟨_, _, by rw [ksCall_sendRecvUdp, heq]; rfl, rfl, hserved.usesIrp hquiet⟩
  · intro hfn
    obtain ⟨ctx₀, -, heq⟩ := ksSendRecvUdp_strays E hs hidle b n f a Send hfn
    exact ⟨_, by rw [ksCall_sendRecvUdp, heq]; rfl⟩

theorem call_usesOrStrays (E : Env) (hs : w.sockets p = some s) (hidle : s.AsyncContext.Idle id) {c : KsCall}
    (haccept : c ≠ .accept) (hclose : c ≠ .close) : UsesOrStrays E w p id s c := by
  cases c with
  | bind a => exact bind_usesOrStrays E hs hidle a
  | connect a => exact connect_usesOrStrays E hs hidle a
  | accept => exact absurd rfl haccept
  | send b n f => exact sendRecv_usesOrStrays E hs hidle b n f true
  | recv b n f => exact sendRecv_usesOrStrays E hs hidle b n f false
  | sendTo b n f a => exact sendRecvUdp_usesOrStrays E hs hidle b n f a true
  | recvFrom b n f a => exact sendRecvUdp_usesOrStrays E hs hidle b n f a false
  | close => exact absurd rfl hclose

/-! ## `KsCloseSocket` -/

theorem serve_close (E : Env) (w : World) (s : KSOCKET) {io : IoStatusBlock} (hok : ntSuccess io.Status = true) :
    (w.serve E (s.via .connection) .WskCloseSocket io).2.wskSockets = w.wskSockets.erase s.WskSocket := by
  simp [World.serve, KSOCKET.via, hok]

/-- A call that closes the `KSOCKET` at the address returns, and the ledger has
lost just what it had. -/
def GivesBack (w : World) (p : Nat) (call : Outcome Stray (NTSTATUS × World)) : Prop :=
  ∃ Status w', call = returns (Status, w') ∧ w'.ledger = w.ledger \ resources w p

theorem close_givesBack_iff (E : Env) (hs : w.sockets p = some s) (hidle : s.AsyncContext.Idle id)
    (hhas : s.has p id ⊆ w.ledger) :
    GivesBack w p (ksCloseSocket E w p) ↔ ProviderSucceeds E w (s.via .connection) .WskCloseSocket := by
  obtain ⟨io, ctx, w₁, hserved, heq⟩ := ksCloseSocket_spec E hs hidle (hhas (has_irp s p id)) (hhas (has_block s p id))
  obtain ⟨hio, hwsk, -⟩ := hserved.provider
  have hstatus : io.Status = (E.provider w.log (s.via .connection) .WskCloseSocket).io.Status := by
    rw [hio, serve_status]
  rw [ProviderSucceeds, ← hstatus]
  cases hok : ntSuccess io.Status with
  | false =>
    apply iff_of_false _ Bool.false_ne_true
    -- the provider's socket stays
    rintro ⟨_, _, heq', hledger⟩
    cases heq.symm.trans heq'
    have hmem : Resource.wskSocket s.WskSocket ∈ (discard w₁ p id).ledger := by
      show s.WskSocket ∈ w₁.wskSockets
      rw [hwsk, serve_failed E w _ _ (hstatus ▸ hok)]
      exact hhas (has_wskSocket s p id)
    rw [hledger, resources_eq hs hidle] at hmem
    exact absurd (has_wskSocket s p id) hmem.2
  | true =>
    refine iff_of_true ⟨_, _, heq, ?_⟩ rfl
    rw [resources_eq hs hidle]
    ext x
    cases x <;> simp [World.ledger, World.Outstanding, KSOCKET.has, discard, hserved.pool, hserved.irps, hwsk,
      serve_close E w s (hstatus ▸ hok), and_comm]

/-! ## Runs -/

/-- A program, with the `KSOCKET`s it has got and not closed. -/
structure Program where
  world : World
  held : Finset Nat

inductive Action where
  | create (AddressFamily : ADDRESS_FAMILY) (SocketType : UInt16) (Protocol Flags : UInt32)
  | call (p : Nat) (c : KsCall)
  deriving DecidableEq, Repr

namespace Program

/-- A `KSOCKET` is used while it is held. -/
def step (E : Env) (s : Program) : Action → Option Program
  | .create af st pr fl => (ksCreateSocket E s.world af st pr fl).map fun r =>
      ⟨r.2.2, r.2.1.elim s.held (insert · s.held)⟩
  | .call p c =>
    if p ∈ s.held then (ksCall E p s.world c).value.map fun r =>
      ⟨r.2, r.1.NewSocket.elim (if c = .close then s.held.erase p else s.held) (insert · s.held)⟩
    else none

/-- A call on a `KSOCKET` that is held does what it should to the ledger. -/
def Balanced (E : Env) (s : Program) : Action → Prop
  | .create af st pr fl => Settled s.world (ksCreateSocket E s.world af st pr fl)
  | .call p .accept => p ∈ s.held → Settled s.world (ksAccept E s.world p).value
  | .call p .close => p ∈ s.held → GivesBack s.world p (ksCloseSocket E s.world p)
  | .call p c => p ∈ s.held → ∃ r w', ksCall E p s.world c = returns (r, w') ∧ w'.ledger = s.world.ledger

/-- The pattern of failure is one of those that the call stands. -/
def Spared (E : Env) (s : Program) : Action → Prop
  | .create af st pr fl => CreateSpared E s.world af st pr fl
  | .call p c => p ∈ s.held → ∀ k ∈ s.world.sockets p, CallSpared E s.world k c

instance (E : Env) (s : Program) : (e : Action) → Decidable (Spared E s e)
  | .create _ _ _ _ => inferInstanceAs (Decidable (CreateSpared _ _ _ _ _ _))
  | .call _ _ => inferInstanceAs (Decidable (_ → _))

/-- The `KSOCKET`s that are held have an IRP that is not in use, and what is
outstanding is theirs but for the base. -/
structure Solvent (base : Set Resource) (s : Program) : Prop where
  accounts : Accounts base ↑s.held (resources s.world) s.world.ledger
  idle : ∀ p ∈ s.held, ∃ k id, s.world.sockets p = some k ∧ k.AsyncContext.Idle id

variable {base : Set Resource} {s s' : Program}

theorem solvent_start (w : World) : Solvent w.ledger ⟨w, ∅⟩ where
  accounts := by simpa using Accounts.none
  idle := by simp

theorem Solvent.has (h : Solvent base s) (hp : p ∈ s.held) :
    ∃ k id, s.world.sockets p = some k ∧ k.AsyncContext.Idle id ∧ k.has p id ⊆ s.world.ledger := by
  obtain ⟨k, id, hk, hidle⟩ := h.idle p hp
  exact ⟨k, id, hk, hidle, resources_eq hk hidle ▸ h.accounts.subset (Finset.mem_coe.2 hp)⟩

theorem Solvent.balanced_iff (h : Solvent base s) (e : Action) : Balanced E s e ↔ Spared E s e := by
  cases e with
  | create af st pr fl => exact create_settled_iff E s.world af st pr fl
  | call p c =>
    by_cases hp : p ∈ s.held
    swap
    · cases c <;> simp [Balanced, Spared, hp]
    obtain ⟨k, id, hk, hidle, hhas⟩ := h.has hp
    have hspared : Spared E s (.call p c) ↔ CallSpared E s.world k c := by simp [Spared, hp, hk]
    rw [hspared]
    have hother (haccept : c ≠ .accept) (hclose : c ≠ .close) :
        (p ∈ s.held → ∃ r w', ksCall E p s.world c = returns (r, w') ∧ w'.ledger = s.world.ledger) ↔
          CallSpared E s.world k c := by
      rcases call_usesOrStrays E hk hidle haccept hclose with ⟨hok, r, w', hcall, -, hledger, -⟩ | ⟨hnot, x, hcall⟩
      · exact iff_of_true (fun _ => ⟨r, w', hcall, hledger⟩) hok
      · refine iff_of_false (fun hret => ?_) hnot
        obtain ⟨r, w', hcall', -⟩ := hret hp
        cases hcall.symm.trans hcall'
    cases c with
    | accept => simp [Balanced, CallSpared, hp, accept_settled_iff E hk hidle]
    | close => simp [Balanced, CallSpared, hp, close_givesBack_iff E hk hidle hhas]
    | bind | connect | send | recv | sendTo | recvFrom => exact hother nofun nofun

/-! ### The `KSOCKET`s after a step -/

theorem resources_congr (hp : w'.sockets p = w.sockets p) : resources w' p = resources w p := by simp [resources, hp]

/-- The `KSOCKET`s that were held are as they were, but for contexts. -/
def Frames (s : Program) (held : Finset Nat) (w' : World) : Prop :=
  ∀ p ∈ held, resources w' p = resources s.world p ∧ ∃ k id, w'.sockets p = some k ∧ k.AsyncContext.Idle id

theorem Solvent.frames (h : Solvent base s) {held : Finset Nat} (hheld : held ⊆ s.held)
    (hsockets : ∀ p ∈ held, w'.sockets p = s.world.sockets p) : Frames s held w' := by
  intro p hp
  rw [hsockets p hp]
  exact ⟨resources_congr (hsockets p hp), h.idle p (hheld hp)⟩

/-- The context of one of them has been written back. -/
theorem Solvent.frames_store (h : Solvent base s) {k : KSOCKET} (hk : s.world.sockets p = some k)
    (hidle : k.AsyncContext.Idle id) {ctx : AsyncContext} (hctx : ctx.Idle id)
    (hsockets : ∀ q ∈ s.held, w'.sockets q =
      Function.update s.world.sockets p (some { k with AsyncContext := ctx }) q) : Frames s s.held w' := by
  intro q hq
  by_cases hqp : q = p
  · subst hqp
    have hq' := (hsockets q hq).trans (Function.update_self _ _ _)
    refine ⟨?_, _, id, hq', hctx⟩
    rw [resources_eq hk hidle, resources_eq hq' hctx]
    rfl
  · have hq' := (hsockets q hq).trans (Function.update_of_ne hqp _ _)
    exact ⟨resources_congr hq', hq' ▸ h.idle q hq⟩

theorem Solvent.keep (h : Solvent base s) (hledger : w'.ledger = s.world.ledger) (hframes : Frames s s.held w') :
    Solvent base ⟨w', s.held⟩ where
  accounts := hledger ▸ h.accounts.congr fun p hp => (hframes p hp).1
  idle p hp := (hframes p hp).2

theorem Solvent.acquire (h : Solvent base s) {q : Nat} {k : KSOCKET} (hk : w'.sockets q = some k)
    (hidle : k.AsyncContext.Idle id) (hnew : Disjoint (k.has q id) s.world.ledger)
    (hledger : w'.ledger = s.world.ledger ∪ k.has q id) (hframes : Frames s s.held w') :
    Solvent base ⟨w', insert q s.held⟩ where
  accounts := by
    rw [← resources_eq hk hidle] at hnew hledger
    have := (h.accounts.congr fun p hp => (hframes p hp).1).acquire hnew
    rwa [← hledger, ← Finset.coe_insert] at this
  idle p hp := by
    rcases Finset.mem_insert.1 hp with rfl | hp
    · exact ⟨k, id, hk, hidle⟩
    · exact (hframes p hp).2

theorem Solvent.release (h : Solvent base s) (hp : p ∈ s.held)
    (hledger : w'.ledger = s.world.ledger \ resources s.world p) (hframes : Frames s (s.held.erase p) w') :
    Solvent base ⟨w', s.held.erase p⟩ where
  accounts := by
    have := h.accounts.release (Finset.mem_coe.2 hp)
    rw [← hledger, ← Finset.coe_erase] at this
    apply this.congr
    intro q hq
    exact (hframes q hq).1
  idle q hq := (hframes q hq).2

/-- A new `KSOCKET` is at none of the addresses that are held. -/
theorem Solvent.ne_new (h : Solvent base s) {q : Nat} {k : KSOCKET} (hnew : Disjoint (k.has q id) s.world.ledger)
    (hp : p ∈ s.held) : p ≠ q := by
  rintro rfl
  obtain ⟨k', id', -, -, hhas⟩ := h.has hp
  exact Set.disjoint_left.1 hnew (has_block k p id) (hhas (has_block k' p id'))

theorem allocate_inFlight {A : Allocator} {irps : Heap} {irp : IRP}
    (hirp : (kspAsyncContextAllocate A irps).2.1.Irp = some irp) : irp.inFlight = none := by
  rcases allocate_cases A irps with ⟨_, ha, -⟩ | ⟨ctx, id, _, ha, hclean, -, -⟩
  · rw [ha] at hirp
    cases hirp
  · rw [ha] at hirp
    obtain ⟨irp', hirp', -, hflight, -⟩ := hclean.irp
    cases hirp.symm.trans hirp'
    exact hflight

/-- What an accept does to the `KSOCKET`s. -/
theorem accept_sockets (hs : w.sockets p = some k) (hidle : k.AsyncContext.Idle id) {Status : NTSTATUS}
    {o : Option Nat} (hcall : ksAccept E w p = returns (Status, o, w')) :
    ∃ ctx : AsyncContext, ctx.Idle id ∧
      let sockets := Function.update w.sockets p (some { k with AsyncContext := ctx })
      ((ntSuccess Status = false ∧ o = none ∧ w'.sockets = sockets) ∨
        ∃ q k', ntSuccess Status = true ∧ o = some q ∧ w'.sockets = Function.update sockets q (some k') ∧
          ∀ irp, k'.AsyncContext.Irp = some irp → irp.inFlight = none) := by
  by_cases hfn : k.Supports .WskAccept
  swap
  · obtain ⟨ctx₀, -, heq⟩ := ksAccept_strays E hs hidle hfn
    cases heq.symm.trans hcall
  obtain ⟨io, ctx, w₁, hserved, hcases⟩ := ksAccept_spec E hs hidle hfn
  refine ⟨ctx, hserved.completed.idle, ?_⟩
  rcases hcases with ⟨hok, heq⟩ | ⟨-, pool, -, heq⟩ | ⟨hok, q, pool, -, heq⟩
  · cases heq.symm.trans hcall
    exact .inl ⟨hok, rfl, by rw [World.store, hserved.sockets]⟩
  · cases heq.symm.trans hcall
    exact .inl ⟨ntSuccess_insufficient, rfl, by rw [World.store, hserved.sockets]⟩
  · cases heq.symm.trans hcall
    refine .inr ⟨q, _, hok, rfl, by rw [adopt, World.store, hserved.sockets], ?_⟩
    intro irp hirp
    exact allocate_inFlight hirp

/-! ### One lemma for each kind of call -/

theorem Solvent.create (h : Solvent base s) {af : ADDRESS_FAMILY} {st : UInt16} {pr fl : UInt32}
    {Status : NTSTATUS} {o : Option Nat}
    (hsettled : Settled s.world (ksCreateSocket E s.world af st pr fl))
    (hcall : ksCreateSocket E s.world af st pr fl = some (Status, o, w')) :
    Solvent base ⟨w', o.elim s.held (insert · s.held)⟩ := by
  obtain ⟨Status', o', w₁, hcall', -, hcases⟩ := ksCreateSocket_spec E s.world af st pr fl
  cases hcall.symm.trans hcall'
  rcases hcases with ⟨rfl, hok, hsockets, -⟩ | ⟨q, k, id, rfl, hok, hsockets, -, hidle, -⟩
  · rw [settled_iff_of_fails hcall hok] at hsettled
    apply h.keep hsettled
    apply h.frames subset_rfl
    intro p _
    rw [hsockets]
  · rw [settled_iff_of_succeeds hcall hok] at hsettled
    obtain ⟨k', irp, hk, hirp, -, hnew, hledger⟩ := hsettled
    have hk' : w'.sockets q = some k := by rw [hsockets, Function.update_self]
    obtain rfl := Option.some.inj (hk.symm.trans hk')
    obtain ⟨irp', hirp', -, hflight⟩ := hidle
    obtain rfl := Option.some.inj (hirp.symm.trans hirp')
    apply h.acquire hk' ⟨irp, hirp, rfl, hflight⟩ hnew hledger
    apply h.frames subset_rfl
    intro p hp
    rw [hsockets, Function.update_of_ne (h.ne_new hnew hp)]

theorem Solvent.accept (h : Solvent base s) (hp : p ∈ s.held) {Status : NTSTATUS} {o : Option Nat}
    (hsettled : Settled s.world (ksAccept E s.world p).value)
    (hcall : ksAccept E s.world p = returns (Status, o, w')) :
    Solvent base ⟨w', o.elim s.held (insert · s.held)⟩ := by
  obtain ⟨k, id, hk, hidle⟩ := h.idle p hp
  obtain ⟨ctx, hctx, ⟨hok, rfl, hsockets⟩ | ⟨q, k', hok, rfl, hsockets, hflight⟩⟩ := accept_sockets hk hidle hcall
  · rw [settled_iff_of_fails (value_eq_some.2 hcall) hok] at hsettled
    apply h.keep hsettled
    apply h.frames_store hk hidle hctx
    intro q _
    rw [hsockets]
  · rw [settled_iff_of_succeeds (value_eq_some.2 hcall) hok] at hsettled
    obtain ⟨k'', irp, hk'', hirp, -, hnew, hledger⟩ := hsettled
    have hk' : w'.sockets q = some k' := by rw [hsockets, Function.update_self]
    obtain rfl := Option.some.inj (hk''.symm.trans hk')
    apply h.acquire hk' ⟨irp, hirp, rfl, hflight irp hirp⟩ hnew hledger
    apply h.frames_store hk hidle hctx
    intro p' hp'
    rw [hsockets, Function.update_of_ne (h.ne_new hnew hp')]

theorem Solvent.close (h : Solvent base s) (hp : p ∈ s.held) {Status : NTSTATUS}
    (hgives : GivesBack s.world p (ksCloseSocket E s.world p))
    (hcall : ksCloseSocket E s.world p = returns (Status, w')) : Solvent base ⟨w', s.held.erase p⟩ := by
  obtain ⟨Status', w₁, hcall', hledger⟩ := hgives
  cases hcall.symm.trans hcall'
  obtain ⟨k, id, hk, hidle, hhas⟩ := h.has hp
  obtain ⟨io, ctx, w₁, hserved, heq⟩ := ksCloseSocket_spec E hk hidle (hhas (has_irp k p id)) (hhas (has_block k p id))
  cases hcall.symm.trans heq
  have hsockets : ∀ q ∈ s.held.erase p, (discard w₁ p id).sockets q = s.world.sockets q := by
    intro q hq
    show Function.update w₁.sockets p none q = s.world.sockets q
    rw [Function.update_of_ne (Finset.ne_of_mem_erase hq), hserved.sockets]
  exact h.release hp hledger (h.frames (Finset.erase_subset _ _) hsockets)

theorem Solvent.call (h : Solvent base s) (hp : p ∈ s.held) {c : KsCall} {r : KsResult} (haccept : c ≠ .accept)
    (hclose : c ≠ .close) (hcall : ksCall E p s.world c = returns (r, w')) :
    r.NewSocket = none ∧ Solvent base ⟨w', s.held⟩ := by
  obtain ⟨k, id, hk, hidle⟩ := h.idle p hp
  rcases call_usesOrStrays E hk hidle haccept hclose with
    ⟨-, r', w₁, hcall', hnone, hledger, ctx, hctx, hsockets⟩ | ⟨-, x, hcall'⟩
  · cases hcall.symm.trans hcall'
    refine ⟨hnone, h.keep hledger (h.frames_store hk hidle hctx ?_)⟩
    intro q _
    rw [hsockets]
  · cases hcall.symm.trans hcall'

theorem Solvent.step (h : Solvent base s) {e : Action} (hbalanced : Balanced E s e) (hs : step E s e = some s') :
    Solvent base s' := by
  cases e with
  | create af st pr fl =>
    obtain ⟨⟨Status, o, w'⟩, hcall, rfl⟩ := Option.map_eq_some_iff.1 hs
    exact h.create hbalanced hcall
  | call p c =>
    by_cases hp : p ∈ s.held
    swap
    · simp [Program.step, hp] at hs
    rw [Program.step, if_pos hp] at hs
    obtain ⟨⟨r, w'⟩, hvalue, rfl⟩ := Option.map_eq_some_iff.1 hs
    have hcall := value_eq_some.1 hvalue
    rcases eq_or_ne c .accept with rfl | haccept
    · obtain ⟨⟨Status, o, w₁⟩, haccept, heq⟩ := bind_eq_returns.1 hcall
      cases heq
      exact h.accept hp (hbalanced hp) haccept
    rcases eq_or_ne c .close with rfl | hclose
    · obtain ⟨⟨Status, w₁⟩, hclose, heq⟩ := bind_eq_returns.1 hcall
      cases heq
      exact h.close hp (hbalanced hp) hclose
    · obtain ⟨hnone, hsolvent⟩ := h.call hp haccept hclose hcall
      simpa [hnone, hclose] using hsolvent

/-! ### The ledger of a run -/

/-- Whatever fails: a `KsCreateSocket` takes all it should or nothing exactly in
the patterns that it stands, and so does a `KsAccept` on a socket whose IRP is
not in use. In a run from any world all calls do what they should to the ledger
exactly if all meet such a pattern; and then the ledger is at every point what
it was at the start and what the `KSOCKET`s that are held have, hence the one of
the start when all are closed. -/
theorem ledger_balanced (E : Env) (w : World) :
    (∀ af st pr fl, Settled w (ksCreateSocket E w af st pr fl) ↔ CreateSpared E w af st pr fl) ∧
    (∀ p s id, w.sockets p = some s → s.AsyncContext.Idle id →
      (Settled w (ksAccept E w p).value ↔ AcceptSpared E w s)) ∧
    ∀ actions, ((∀ x ∈ Run.visits (step E) ⟨w, ∅⟩ actions, Balanced E x.1 x.2) ↔
        ∀ x ∈ Run.visits (step E) ⟨w, ∅⟩ actions, Spared E x.1 x.2) ∧
      ((∀ x ∈ Run.visits (step E) ⟨w, ∅⟩ actions, Spared E x.1 x.2) →
        ∀ t, Run.exec (step E) ⟨w, ∅⟩ actions = some t →
          Accounts w.ledger ↑t.held (resources t.world) t.world.ledger ∧
            (t.held = ∅ → t.world.ledger = w.ledger)) := by
  refine ⟨create_settled_iff E w, fun _ _ _ hs hidle => accept_settled_iff E hs hidle, ?_⟩
  intro actions
  have hstart := solvent_start w
  have hiff (s : Program) (e : Action) (h : Solvent w.ledger s) : Balanced E s e ↔ Spared E s e := h.balanced_iff e
  refine ⟨Run.visits_iff hiff (fun _ _ _ h hb hs => h.step hb hs) hstart actions, ?_⟩
  intro hspared t ht
  have hstep (s : Program) (e : Action) (s' : Program) (h : Solvent w.ledger s) (hg : Spared E s e)
      (hs : step E s e = some s') : Solvent w.ledger s' := h.step ((hiff s e h).2 hg) hs
  have haccounts : Accounts w.ledger ↑t.held (resources t.world) t.world.ledger :=
    (Run.exec_inv_of_visits hstep hstart hspared ht).accounts
  refine ⟨haccounts, ?_⟩
  intro hnone
  rw [hnone, Finset.coe_empty] at haccounts
  exact haccounts.total_of_none

/-- Two connections are accepted, and all three sockets are closed. -/
theorem two_accepted_closed :
    ∃ t, Run.exec (step .obliging) ⟨.init, ∅⟩
        [.create 2 1 6 WSK_FLAG_LISTEN_SOCKET, .call 1 .accept, .call 1 .accept, .call 2 (.send 64 5 0),
          .call 1 .close, .call 2 .close, .call 3 .close] = some t ∧
      t.held = ∅ ∧ t.world.ledger = World.init.ledger := by
  have hrun : (Run.exec (step .obliging) ⟨.init, ∅⟩
      [.create 2 1 6 WSK_FLAG_LISTEN_SOCKET, .call 1 .accept, .call 1 .accept, .call 2 (.send 64 5 0), .call 1 .close,
        .call 2 .close, .call 3 .close]).map (·.held) = some ∅ := by decide +kernel
  obtain ⟨t, hexec, hheld⟩ := Option.map_eq_some_iff.1 hrun
  exact ⟨t, hexec, hheld, (((ledger_balanced .obliging .init).2.2 _).2 (by decide +kernel) t hexec).2 hheld⟩

/-- There is a block but no IRP: the call fails, and block 1 stays. -/
theorem block_stays_without_irp :
    (ksCreateSocket { Env.obliging with irp := ⟨fun _ _ => none⟩ } .init 2 1 6 WSK_FLAG_CONNECTION_SOCKET).map
        (fun r => (r.1, r.2.1, r.2.2.pool.live)) = some (STATUS_INSUFFICIENT_RESOURCES, none, {1}) ∧
      ¬Settled .init
        (ksCreateSocket { Env.obliging with irp := ⟨fun _ _ => none⟩ } .init 2 1 6 WSK_FLAG_CONNECTION_SOCKET) := by
  have hrun : (ksCreateSocket { Env.obliging with irp := ⟨fun _ _ => none⟩ } .init 2 1 6
      WSK_FLAG_CONNECTION_SOCKET).map (fun r => (r.1, r.2.1, r.2.2.pool.live)) =
        some (STATUS_INSUFFICIENT_RESOURCES, none, {1}) := by decide +kernel
  refine ⟨hrun, ?_⟩
  rintro ⟨Status, o, w', hcall, -, hsame⟩
  rw [hcall, Option.map_some, Option.some.injEq, Prod.mk.injEq, Prod.mk.injEq] at hrun
  obtain ⟨rfl, -, hlive⟩ := hrun
  have hmem : Resource.block 1 ∈ w'.ledger := by
    show 1 ∈ w'.pool.live
    rw [hlive]
    decide
  rw [hsame ntSuccess_insufficient] at hmem
  exact absurd hmem (Finset.notMem_empty 1)

end Program

end Ks

end KSock
