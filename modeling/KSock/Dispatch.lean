import KSock.Berkeley
/-!
# Which function a call reaches

A call takes the view of the dispatch table that its `Ks` function is written
with; nothing checks the kind of the socket behind the descriptor. If the
socket's table has the function, it is at that place. If not, the call is made
all the same, and goes astray to another function or to what follows the table.
-/
open KSockLib Outcome

namespace KSock

/-- The provider's functions a BSD call on a socket is for, in order. -/
def BsdCall.names : BsdCall → List WskFn
  | connect _ _ => [.WskBind, .WskConnect]
  | bind _ _ => [.WskBind]
  | accept _ => [.WskAccept]
  | send _ _ _ _ => [.WskSend]
  | sendto _ _ _ _ _ => [.WskSendTo]
  | recv _ _ _ _ => [.WskReceive]
  | recvfrom _ _ _ _ _ => [.WskReceiveFrom]
  | closesocket _ => [.WskCloseSocket]
  | _ => []

/-- `recvfrom` is not made for the function it names: it calls `KsSendTo`. -/
def BsdCall.isRecvfrom : BsdCall → Bool
  | recvfrom _ _ _ _ _ => true
  | _ => false

/-- The view the `Ks` function of the call goes through. -/
def BsdCall.view : BsdCall → SocketKind
  | bind _ _ | accept _ => .listen
  | sendto _ _ _ _ _ | recvfrom _ _ _ _ _ => .datagram
  | _ => .connection

/-- The descriptor of a call that names a function. -/
def BsdCall.sockfd : BsdCall → Option Int
  | connect fd _ | bind fd _ | accept fd | send fd _ _ _ | sendto fd _ _ _ _ | recv fd _ _ _ | recvfrom fd _ _ _ _
  | closesocket fd => some fd
  | _ => none

namespace Bsd

variable {E : Env} {b b' : Bsd} {c : BsdCall} {ret fd : Int} {p : Nat}

/-- The socket behind the descriptor of a call. -/
def socketOf (b : Bsd) (c : BsdCall) : Option KSOCKET := do
  let fd ← c.sockfd
  let p ← b.socketAt fd
  b.world.sockets p

/-! ## One call -/

/-- From `b` on the call has called the provider on the socket behind its
descriptor, for the first ones of the functions it names, through its view, and
last with `last` if that went astray. Each call ran what is in the place it read:
the function it was for exactly if the socket's table has it. -/
def Dispatched (b : Bsd) (c : BsdCall) (w : World) (last : Option Ask) : Prop :=
  ∃ s new, b.socketOf c = some s ∧ w.log = b.world.log ++ new ∧
    let asks := new.map Request.toAsk ++ last.toList
    asks ≠ [] ∧ asks.map (·.call.fn) <+: c.names.map some ∧
      (∀ a ∈ asks, ∃ fn ∈ c.names, a.call.fn = some fn ∧ a.target = s.via c.view ∧
        a.ran = reached s.WskDispatch c.view fn ∧ (a.ran = some fn ↔ fn ∈ s.WskDispatch.table)) ∧
      (∀ r ∈ new, r.ran = r.call.fn) ∧ ∀ a ∈ last, a.ran ≠ a.call.fn

/-- The functions a call names are those that its `Ks` function calls through its view. -/
theorem names_sites {fn : WskFn} (hfn : fn ∈ c.names) : (c.view, fn) ∈ sites := by
  cases c <;> simp only [BsdCall.names, BsdCall.view, List.mem_cons, List.not_mem_nil, or_false] at hfn ⊢
  case connect => rcases hfn with rfl | rfl <;> decide
  all_goals
    subst hfn
    decide

theorem dispatched_of_issued {calls : List WskCall} (hfd : c.sockfd = some fd) (hp : b.socketAt fd = some p)
    (hcalls : calls.map WskCall.fn = c.names.map some) {w : World} {last : Option Ask}
    (h : ∃ s new, w.log = b.world.log ++ new ∧ Ks.Issued b.world p c.view calls s new last) :
    Dispatched b c w last := by
  obtain ⟨s, new, hlog, hissued⟩ := h
  have hfns : (new.map Request.toAsk ++ last.toList).map (·.call.fn) <+: c.names.map some := by
    have hmap := hissued.first.map WskCall.fn
    rwa [List.map_map, hcalls] at hmap
  refine ⟨s, new, by simp [socketOf, hfd, hp, hissued.socket], hlog, hissued.nonempty, hfns, ?_, hissued.reached,
    hissued.strayed⟩
  intro a ha
  obtain ⟨fn, hfn, hafn⟩ := List.mem_map.1 (hfns.subset (List.mem_map_of_mem ha))
  have hran : a.ran = reached s.WskDispatch c.view fn := by
    simp [Ask.ran, hissued.via a ha, KSOCKET.via, ← hafn]
  exact ⟨fn, hfn, hafn.symm, hissued.via a ha, hran, by rw [hran]; exact reached_iff (names_sites hfn) _⟩

theorem install_world {r : NTSTATUS × Option Nat × World} (h : b.install r = some (ret, b')) :
    b'.world = r.2.2 := by
  unfold install at h
  split at h
  · obtain ⟨q, -, h⟩ := Option.bind_eq_some_iff.1 h
    obtain ⟨-, rfl⟩ := Prod.mk.inj (Option.some.inj h)
    rfl
  · obtain ⟨-, rfl⟩ := Prod.mk.inj (Option.some.inj h)
    rfl

/-- A call that has returned. -/
theorem dispatched_of_returns (h : b.call E c = returns (ret, b')) (hnames : c.names ≠ [])
    (hc : c.isRecvfrom = false) : Dispatched b c b'.world none := by
  cases c with
  | socketConnection d t p | socketListen d t p | socketDatagram d t p | listen fd n => exact absurd rfl hnames
  | recvfrom fd buf n f a => cases hc
  | connect fd a =>
    obtain ⟨p, r, hp, hr, h⟩ := onSocket_returns h
    obtain ⟨-, rfl⟩ := Prod.mk.inj h
    exact dispatched_of_issued rfl hp rfl ((Ks.ksConnect_issues a).returned hr).1
  | bind fd a =>
    obtain ⟨p, r, hp, hr, h⟩ := onSocket_returns h
    obtain ⟨-, rfl⟩ := Prod.mk.inj h
    exact dispatched_of_issued rfl hp rfl ((Ks.ksBind_issues a).returned hr).1
  | accept fd =>
    obtain ⟨p, hp, h⟩ := bind_eq_returns.1 h
    obtain ⟨r, hr, h⟩ := bind_eq_returns.1 h
    have hissued := (Ks.ksAccept_issues.returned hr).1
    rw [← install_world (ofOption_eq_returns.1 h)] at hissued
    exact dispatched_of_issued rfl (ofOption_eq_returns.1 hp) rfl hissued
  | send fd buf n f | recv fd buf n f =>
    obtain ⟨p, r, hp, hr, h⟩ := onSocket_returns h
    obtain ⟨-, rfl⟩ := Prod.mk.inj h
    exact dispatched_of_issued rfl hp rfl ((Ks.ksSendRecv_issues _ _ _ _).returned hr).1
  | sendto fd buf n f a =>
    obtain ⟨p, r, hp, hr, h⟩ := onSocket_returns h
    obtain ⟨-, rfl⟩ := Prod.mk.inj h
    exact dispatched_of_issued rfl hp rfl ((Ks.ksSendRecvUdp_issues _ _ _ _ _).returned hr).1
  | closesocket fd =>
    obtain ⟨i, hi, h⟩ := bind_eq_returns.1 h
    obtain ⟨p, hp, h⟩ := bind_eq_returns.1 h
    obtain ⟨r, hr, h⟩ := bind_eq_returns.1 h
    obtain ⟨-, rfl⟩ := Prod.mk.inj (returns.inj h)
    rw [ofOption_eq_returns] at hi hp
    exact dispatched_of_issued rfl (by simp [socketAt, hi, hp]) rfl (Ks.ksCloseSocket_issues.returned hr).1

/-- A call that has gone astray. -/
theorem dispatched_of_astray {x : Stray} (h : b.call E c = astray x) (hc : c.isRecvfrom = false) :
    Dispatched b c x.world (some x.ask) := by
  cases c with
  | socketConnection d t p | socketListen d t p | socketDatagram d t p => exact absurd h (ofOption_ne_astray _ _)
  | listen fd n => cases h
  | recvfrom fd buf n f a => cases hc
  | connect fd a =>
    obtain ⟨p, hp, hx⟩ := onSocket_astray h fun _ => nofun
    exact dispatched_of_issued rfl hp rfl ((Ks.ksConnect_issues a).strayed hx)
  | bind fd a =>
    obtain ⟨p, hp, hx⟩ := onSocket_astray h fun _ => nofun
    exact dispatched_of_issued rfl hp rfl ((Ks.ksBind_issues a).strayed hx)
  | accept fd =>
    obtain ⟨p, hp, hx⟩ := onSocket_astray h fun _ => ofOption_ne_astray _ _
    exact dispatched_of_issued rfl hp rfl (Ks.ksAccept_issues.strayed hx)
  | send fd buf n f | recv fd buf n f =>
    obtain ⟨p, hp, hx⟩ := onSocket_astray h fun _ => nofun
    exact dispatched_of_issued rfl hp rfl ((Ks.ksSendRecv_issues _ _ _ _).strayed hx)
  | sendto fd buf n f a =>
    obtain ⟨p, hp, hx⟩ := onSocket_astray h fun _ => nofun
    exact dispatched_of_issued rfl hp rfl ((Ks.ksSendRecvUdp_issues _ _ _ _ _).strayed hx)
  | closesocket fd =>
    rcases bind_eq_astray.1 h with h | ⟨i, hi, h⟩
    · exact absurd h (ofOption_ne_astray _ _)
    rcases bind_eq_astray.1 h with h | ⟨p, hp, h⟩
    · exact absurd h (ofOption_ne_astray _ _)
    rw [ofOption_eq_returns] at hi hp
    rcases bind_eq_astray.1 h with hx | ⟨r, -, h⟩
    swap
    · cases h
    have hp : b.socketAt fd = some p := by simp [socketAt, hi, hp]
    exact dispatched_of_issued rfl hp rfl (Ks.ksCloseSocket_issues.strayed hx)

/-- The other calls use at most the client's own functions. -/
theorem client_of_call (h : b.call E c = returns (ret, b')) (hnames : c.names = []) :
    ∃ new, b'.world.log = b.world.log ++ new ∧ ∀ r ∈ new, r.target = .client := by
  have hcreate {af : ADDRESS_FAMILY} {st : UInt16} {pr fl : UInt32} {ret : Int} {b' : Bsd}
      (h : (Ks.ksCreateSocket E b.world af st pr fl).bind b.install = some (ret, b')) :
      ∃ new, b'.world.log = b.world.log ++ new ∧ ∀ r ∈ new, r.target = .client := by
    obtain ⟨Status, o, w', heq, hlog, -⟩ := Ks.ksCreateSocket_spec E b.world af st pr fl
    rw [heq] at h
    rwa [install_world h]
  cases c with
  | socketConnection d t p => exact hcreate (ofOption_eq_returns.1 h)
  | socketListen d t p => exact hcreate (ofOption_eq_returns.1 h)
  | socketDatagram d t p => exact hcreate (ofOption_eq_returns.1 h)
  | listen fd n =>
    obtain ⟨-, rfl⟩ := Prod.mk.inj (returns.inj h)
    exact ⟨[], (List.append_nil _).symm, by simp⟩
  | connect fd a | bind fd a | accept fd | send fd buf n f | sendto fd buf n f a | recv fd buf n f
  | recvfrom fd buf n f a | closesocket fd => cases hnames

/-! ## Runs -/

def step (E : Env) (b : Bsd) (c : BsdCall) : Option Bsd := (b.call E c).value.map (·.2)

/-- The call is none that asks for a function it does not name, and the table of
the socket behind its descriptor has the functions it names. -/
def Supported (b : Bsd) (c : BsdCall) : Prop :=
  c.isRecvfrom = false ∧ ∀ s ∈ b.socketOf c, ∀ fn ∈ c.names, fn ∈ s.WskDispatch.table

instance (b : Bsd) (c : BsdCall) : Decidable (Supported b c) := inferInstanceAs (Decidable (_ ∧ _))

/-- All requests on sockets so far reached the functions they were made for. -/
def Reached (b : Bsd) : Prop :=
  ∀ r ∈ b.world.log, r.target ≠ .client → ∃ fn, r.call.fn = some fn ∧ r.ran = some fn

theorem Reached.step (h : Reached b) (hsupported : Supported b c) (hs : step E b c = some b') : Reached b' := by
  obtain ⟨⟨ret, b'⟩, hvalue, rfl⟩ := Option.map_eq_some_iff.1 hs
  have hcall := value_eq_some.1 hvalue
  intro r hr hclient
  by_cases hnames : c.names = []
  · obtain ⟨new, hlog, hnew⟩ := client_of_call hcall hnames
    rw [hlog] at hr
    rcases List.mem_append.1 hr with hr | hr
    · exact h r hr hclient
    · exact absurd (hnew r hr) hclient
  · obtain ⟨s, new, hsocket, hlog, -, -, hasks, -⟩ := dispatched_of_returns hcall hnames hsupported.1
    rw [hlog] at hr
    rcases List.mem_append.1 hr with hr | hr
    · exact h r hr hclient
    · obtain ⟨fn, hfn, hrfn, -, -, hran⟩ := hasks r.toAsk (by simpa using ⟨r, hr, rfl⟩)
      exact ⟨fn, hrfn, hran.2 (hsupported.2 s hsocket fn hfn)⟩

theorem Supported.not_astray (h : Supported b c) (x : Stray) : b.call E c ≠ astray x := by
  intro hcall
  obtain ⟨s, new, hsocket, -, -, -, hasks, -, hstrayed⟩ := dispatched_of_astray hcall h.1
  obtain ⟨fn, hfn, hafn, -, -, hran⟩ := hasks x.ask (by simp)
  apply hstrayed x.ask rfl
  rw [hafn]
  exact hran.2 (h.2 s hsocket fn hfn)

/-- In every run, each call on a descriptor but `recvfrom` that returns or goes
astray asks for the functions it names, and reaches those that the table of its
socket has. In a run whose calls name only such functions none goes astray, and
all requests reach their functions. -/
theorem calls_dispatched (E : Env) (calls : List BsdCall) :
    (∀ x ∈ Run.visits (step E) init calls, x.2.names ≠ [] → x.2.isRecvfrom = false →
      (∀ ret b', x.1.call E x.2 = returns (ret, b') → Dispatched x.1 x.2 b'.world none) ∧
        ∀ y, x.1.call E x.2 = astray y → Dispatched x.1 x.2 y.world (some y.ask)) ∧
    ((∀ x ∈ Run.visits (step E) init calls, Supported x.1 x.2) →
      (∀ x ∈ Run.visits (step E) init calls, ∀ y, x.1.call E x.2 ≠ astray y) ∧
        ∀ b, Run.exec (step E) init calls = some b → Reached b) := by
  refine ⟨?_, ?_⟩
  · intro x _ hnames hc
    exact ⟨fun ret b' h => dispatched_of_returns h hnames hc, fun y h => dispatched_of_astray h hc⟩
  · intro hsupported
    refine ⟨fun x hx y => (hsupported x hx).not_astray y, ?_⟩
    intro b hexec
    have hinit : Reached init := by simp [Reached, init, World.init]
    exact Run.exec_inv_of_visits (fun _ _ _ h hs ht => h.step hs ht) hinit hsupported hexec

/-- A datagram socket and a connection, each used with its own functions. -/
def mixed : List BsdCall :=
  [.socketDatagram 2 2 17, .socketConnection 2 1 6, .bind 0 ⟨2, 53, 0⟩, .connect 1 ⟨2, 80, 0⟩, .sendto 0 64 5 0 128,
    .send 1 64 5 0, .recv 1 64 5 0, .closesocket 0, .closesocket 1]

theorem mixed_reached : ∃ b, Run.exec (step .obliging) init mixed = some b ∧ b.world.log.length = 10 ∧ Reached b := by
  have hrun : (Run.exec (step .obliging) init mixed).map (fun b => b.world.log.length) = some 10 := by decide +kernel
  obtain ⟨b, hexec, hlength⟩ := Option.map_eq_some_iff.1 hrun
  exact ⟨b, hexec, hlength, ((calls_dispatched .obliging mixed).2 (by decide +kernel)).2 b hexec⟩

/-- On a listening socket `connect` binds, and then calls `WskAccept`. -/
theorem connect_accepts_on_listen :
    ∃ b x s, Run.exec (step .obliging) init [.socketListen 2 1 6] = some b ∧
      b.socketOf (.connect 0 ⟨2, 80, 0⟩) = some s ∧ .WskConnect ∉ s.WskDispatch.table ∧
      b.call .obliging (.connect 0 ⟨2, 80, 0⟩) = astray x ∧
      (x.world.log.drop b.world.log.length).map (fun r => (r.call.fn, r.ran)) = [(some .WskBind, some .WskBind)] ∧
      x.ask.call.fn = some .WskConnect ∧ x.ask.ran = some .WskAccept := by
  have hrun : (Run.exec (step .obliging) init [.socketListen 2 1 6]).bind (fun b =>
      (b.socketOf (.connect 0 ⟨2, 80, 0⟩)).bind fun s => (b.call .obliging (.connect 0 ⟨2, 80, 0⟩)).strayed.map fun x =>
        (s.WskDispatch, (x.world.log.drop b.world.log.length).map (fun r => (r.call.fn, r.ran)), x.ask.call.fn,
          x.ask.ran)) =
      some (.listen, [(some .WskBind, some .WskBind)], some .WskConnect, some .WskAccept) := by decide +kernel
  obtain ⟨b, hexec, h⟩ := Option.bind_eq_some_iff.1 hrun
  obtain ⟨s, hs, h⟩ := Option.bind_eq_some_iff.1 h
  obtain ⟨x, hx, h⟩ := Option.map_eq_some_iff.1 h
  obtain ⟨hkind, hlog, hcall, hran⟩ : _ ∧ _ ∧ _ ∧ _ := by simpa only [Prod.mk.injEq] using h
  exact ⟨b, x, s, hexec, hs, by rw [hkind]; decide, strayed_eq_some.1 hx, hlog, hcall, hran⟩

end Bsd

end KSock
