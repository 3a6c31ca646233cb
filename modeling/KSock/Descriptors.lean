import KSock.Berkeley
import KSock.Lib.Slots
/-!
# Descriptors and the sockets behind them

A creation takes the slot `KsIndex % 128` without looking at it. We follow the
sockets that are open and the descriptors their creators got through any run of
calls. Every socket keeps its descriptor exactly in the runs where each
successful creation finds its slot empty; the 129th socket opened in a row takes
the slot of the first.

The invariant has two parts: `Tracks`, which says where the open sockets are, and
`Backed`, which ties them to the live blocks of the pool, so that a new `KSOCKET`
is in no slot yet.
-/
open KSockLib Outcome

namespace KSock.Bsd

variable {E : Env} {b b' : Bsd} {c : BsdCall} {ret : Int}

/-! ## The effect of a call on the array -/

/-- What the `Ks` function of a creating call returns; the outer result is `none`
for the other calls. -/
def creation (E : Env) (b : Bsd) : BsdCall → Option (Option (NTSTATUS × Option Nat × World))
  | .socketConnection d t p =>
    some (Ks.ksCreateConnectionSocket E b.world (UInt32.ofInt d) (UInt16.ofInt t) (UInt32.ofInt p))
  | .socketListen d t p => some (Ks.ksCreateListenSocket E b.world (UInt32.ofInt d) (UInt16.ofInt t)
      (if p ≠ 0 then UInt32.ofInt p else IPPROTO_TCP))
  | .socketDatagram d t p =>
    some (Ks.ksCreateDatagramSocket E b.world (UInt32.ofInt d) (UInt16.ofInt t) (UInt32.ofInt p))
  | .accept fd => some (do (Ks.ksAccept E b.world (← b.socketAt fd)).value)
  | _ => none

/-- The `KSOCKET` a call creates, if it is a creating call and succeeds. -/
def newSocket (E : Env) (b : Bsd) (c : BsdCall) : Option Nat := do
  let r ← (← creation E b c)
  r.2.1

/-- The `KSOCKET` a call closes. -/
def closing (b : Bsd) : BsdCall → Option Nat
  | .closesocket fd => b.socketAt fd
  | _ => none

/-- What a call that returned did to the array and the pool. -/
inductive Effect (E : Env) (b : Bsd) (c : BsdCall) (ret : Int) (b' : Bsd) : Prop where
  | opened (q : Nat) (new : newSocket E b c = some q) (other : closing b c = none)
      (descriptor : ret = (toSocketfd b.KsIndex).val)
      (array : b'.KsArray = Function.update b.KsArray (toSocketfd b.KsIndex) (some q))
      (fresh : q ∉ b.world.pool.live) (live : b'.world.pool.live = insert q b.world.pool.live)
  | closed (i : Fin SOCKETFD_MAX) (p : Nat) (old : closing b c = some p) (other : creation E b c = none)
      (held : b.KsArray i = some p) (array : b'.KsArray = Function.update b.KsArray i none)
      (live : b'.world.pool.live = b.world.pool.live.erase p)
  | unchanged (noNew : newSocket E b c = none) (noOld : closing b c = none) (array : b'.KsArray = b.KsArray)
      (index : b'.KsIndex = b.KsIndex) (live : b.world.pool.live ⊆ b'.world.pool.live)

/-- A creating call installs what its `Ks` function made. -/
theorem effect_of_install {r : NTSTATUS × Option Nat × World} (hcreation : creation E b c = some (some r))
    (hclosing : closing b c = none)
    (hr : (r.2.1 = none ∧ ntSuccess r.1 = false ∧ b.world.pool.live ⊆ r.2.2.pool.live) ∨
      ∃ q, r.2.1 = some q ∧ ntSuccess r.1 = true ∧ q ∉ b.world.pool.live ∧
        r.2.2.pool.live = insert q b.world.pool.live)
    (h : b.install r = some (ret, b')) : Effect E b c ret b' := by
  have hnew : newSocket E b c = r.2.1 := by simp [newSocket, hcreation]
  unfold install at h
  rcases hr with ⟨ho, hok, hlive⟩ | ⟨q, ho, hok, hfresh, hlive⟩
  · simp only [hok, Bool.false_eq_true, if_false, Option.some.injEq, Prod.mk.injEq] at h
    obtain ⟨-, rfl⟩ := h
    exact .unchanged (hnew.trans ho) hclosing rfl rfl hlive
  · simp only [hok, if_true, ho, Option.bind_eq_bind, Option.bind_some, Option.pure_def, Option.some.injEq,
      Prod.mk.injEq] at h
    obtain ⟨rfl, rfl⟩ := h
    exact .opened q (hnew.trans ho) hclosing rfl rfl hfresh hlive

theorem effect_of_create {AddressFamily : ADDRESS_FAMILY} {SocketType : UInt16} {Protocol Flags : UInt32}
    (hcreation : creation E b c = some (Ks.ksCreateSocket E b.world AddressFamily SocketType Protocol Flags))
    (hclosing : closing b c = none)
    (h : (Ks.ksCreateSocket E b.world AddressFamily SocketType Protocol Flags).bind b.install = some (ret, b')) :
    Effect E b c ret b' := by
  obtain ⟨Status, o, w', heq, -, hcases⟩ :=
    Ks.ksCreateSocket_spec E b.world AddressFamily SocketType Protocol Flags
  rw [heq] at hcreation h
  refine effect_of_install hcreation hclosing ?_ h
  rcases hcases with ⟨ho, hok, -, hlive⟩ | ⟨q, s, id, ho, hok, -, -, -, -, -, hfresh, hlive⟩
  · exact .inl ⟨ho, hok, hlive⟩
  · exact .inr ⟨q, ho, hok, hfresh, hlive⟩

/-- The calls that return what a `Ks` function did with the pool unchanged. -/
theorem effect_of_pool {w' : World} (hnew : newSocket E b c = none) (hclosing : closing b c = none)
    (hpool : w'.pool = b.world.pool) : Effect E b c ret { b with world := w' } :=
  .unchanged hnew hclosing rfl rfl (hpool ▸ Finset.Subset.refl _)

theorem effect_of_call (h : b.call E c = returns (ret, b')) : Effect E b c ret b' := by
  cases c with
  | socketConnection d t p => exact effect_of_create rfl rfl (ofOption_eq_returns.1 h)
  | socketListen d t p => exact effect_of_create rfl rfl (ofOption_eq_returns.1 h)
  | socketDatagram d t p => exact effect_of_create rfl rfl (ofOption_eq_returns.1 h)
  | listen fd n =>
    obtain ⟨-, rfl⟩ := Prod.mk.inj (returns.inj h)
    exact effect_of_pool rfl rfl rfl
  | accept fd =>
    obtain ⟨p, hp, h⟩ := bind_eq_returns.1 h
    obtain ⟨r, hr, h⟩ := bind_eq_returns.1 h
    refine effect_of_install (by simp [creation, ofOption_eq_returns.1 hp, hr]) rfl ?_ (ofOption_eq_returns.1 h)
    rcases (Ks.ksAccept_issues.returned hr).2 with ⟨hok, ho, hlive⟩ | ⟨q, hok, ho, hfresh, hlive⟩
    · exact .inl ⟨ho, hok, hlive.superset⟩
    · exact .inr ⟨q, ho, hok, hfresh, hlive⟩
  | closesocket fd =>
    obtain ⟨i, hi, h⟩ := bind_eq_returns.1 h
    obtain ⟨p, hp, h⟩ := bind_eq_returns.1 h
    obtain ⟨r, hr, h⟩ := bind_eq_returns.1 h
    obtain ⟨-, rfl⟩ := Prod.mk.inj (returns.inj h)
    rw [ofOption_eq_returns] at hi hp
    exact .closed i p (by simp [closing, socketAt, hi, hp]) rfl hp rfl (Ks.ksCloseSocket_issues.returned hr).2
  | connect fd a =>
    obtain ⟨p, r, -, hr, h⟩ := onSocket_returns h
    obtain ⟨-, rfl⟩ := Prod.mk.inj h
    exact effect_of_pool rfl rfl ((Ks.ksConnect_issues a).returned hr).2
  | bind fd a =>
    obtain ⟨p, r, -, hr, h⟩ := onSocket_returns h
    obtain ⟨-, rfl⟩ := Prod.mk.inj h
    exact effect_of_pool rfl rfl ((Ks.ksBind_issues a).returned hr).2
  | send fd buf n f | recv fd buf n f =>
    obtain ⟨p, r, -, hr, h⟩ := onSocket_returns h
    obtain ⟨-, rfl⟩ := Prod.mk.inj h
    exact effect_of_pool rfl rfl ((Ks.ksSendRecv_issues _ _ _ _).returned hr).2
  | sendto fd buf n f a | recvfrom fd buf n f a =>
    obtain ⟨p, r, -, hr, h⟩ := onSocket_returns h
    obtain ⟨-, rfl⟩ := Prod.mk.inj h
    exact effect_of_pool rfl rfl ((Ks.ksSendRecvUdp_issues _ _ _ _ _).returned hr).2

/-- A creation whose `Ks` function gave a `KSOCKET` returns. -/
theorem call_of_newSocket {q : Nat} (h : newSocket E b c = some q) : ∃ ret b', b.call E c = returns (ret, b') := by
  obtain ⟨o, ho, h⟩ := Option.bind_eq_some_iff.1 h
  obtain ⟨r, rfl, hr⟩ := Option.bind_eq_some_iff.1 h
  have hinstall : ∃ ret b', b.install r = some (ret, b') := by
    unfold install
    by_cases hok : ntSuccess r.1 = true <;> simp [hok, hr]
  obtain ⟨ret, b', hb'⟩ := hinstall
  cases c with
  | socketConnection d t p | socketListen d t p | socketDatagram d t p =>
    exact ⟨ret, b', ofOption_eq_returns.2 ((congrArg (Option.bind · b.install) (Option.some.inj ho)).trans hb')⟩
  | accept fd =>
    obtain ⟨p, hp, hr'⟩ := Option.bind_eq_some_iff.1 (Option.some.inj ho)
    exact ⟨ret, b', by simp [call, accept, hp, value_eq_some.1 hr', hb']⟩
  | connect fd a | listen fd n | bind fd a | send fd buf n f | sendto fd buf n f a | recv fd buf n f
  | recvfrom fd buf n f a | closesocket fd => cases ho

/-! ## Open sockets -/

/-- The variables, and for each open `KSOCKET` the descriptor its creator got. -/
structure History where
  bsd : Bsd
  opened : List (Nat × Int)

namespace History

def init : History := ⟨.init, []⟩

/-- A call that returns. -/
def step (E : Env) (h : History) (c : BsdCall) : Option History :=
  (h.bsd.call E c).value.map fun r =>
    ⟨r.2, h.opened.filter (fun x => some x.1 ≠ closing h.bsd c) ++
      ((newSocket E h.bsd c).map fun q => (q, r.1)).toList⟩

/-- Every open socket is in the slot of its own descriptor and in no other, and
no two have the same descriptor. -/
structure Tracks (h : History) : Prop where
  held : ∀ x ∈ h.opened, ∃ i, fromSocketfd x.2 = some i ∧ ∀ j, h.bsd.KsArray j = some x.1 ↔ j = i
  distinct : (h.opened.map Prod.snd).Nodup

/-- The open sockets are in live blocks, and the array holds no others. -/
structure Backed (h : History) : Prop where
  live : ∀ x ∈ h.opened, x.1 ∈ h.bsd.world.pool.live
  covered : ∀ i p, h.bsd.KsArray i = some p → ∃ x ∈ h.opened, x.1 = p

/-- A call that returns leaves every open socket with its own descriptor; a
creation that fails changes nothing, and one that succeeds overwrites no open
socket. -/
def Sound (E : Env) (h : History) (c : BsdCall) : Prop :=
  ∀ h', step E h c = some h' → Tracks h' ∧
    ((creation E h.bsd c).isSome → newSocket E h.bsd c = none →
      h'.bsd.KsArray = h.bsd.KsArray ∧ h'.bsd.KsIndex = h.bsd.KsIndex) ∧
    ((newSocket E h.bsd c).isSome → ∀ x ∈ h.opened, h.bsd.KsArray (toSocketfd h.bsd.KsIndex) ≠ some x.1)

/-- A creation that succeeds finds its slot empty. -/
def Vacant (E : Env) (h : History) (c : BsdCall) : Prop :=
  (newSocket E h.bsd c).isSome → h.bsd.KsArray (toSocketfd h.bsd.KsIndex) = none

variable {h h' : History}

theorem tracks_init : Tracks init := ⟨by simp [init], by simp [init]⟩

theorem backed_init : Backed init := ⟨by simp [init], by simp [init, Bsd.init]⟩

theorem step_some (hs : step E h c = some h') :
    ∃ ret, Effect E h.bsd c ret h'.bsd ∧
      h'.opened = h.opened.filter (fun x => some x.1 ≠ closing h.bsd c) ++
        ((newSocket E h.bsd c).map fun q => (q, ret)).toList := by
  obtain ⟨r, hr, rfl⟩ := Option.map_eq_some_iff.1 hs
  exact ⟨r.1, effect_of_call (value_eq_some.1 hr), rfl⟩

/-! ## What each effect keeps -/

theorem fromSocketfd_val (i : Fin SOCKETFD_MAX) : fromSocketfd (i.val : Int) = some i := by
  simp [fromSocketfd]

theorem Tracks.install (ht : Tracks h) (hb : Backed h) {q : Nat} {k : Fin SOCKETFD_MAX}
    (hk : h.bsd.KsArray k = none) (hfresh : q ∉ h.bsd.world.pool.live)
    (harray : b'.KsArray = Function.update h.bsd.KsArray k (some q)) :
    Tracks ⟨b', h.opened ++ [(q, (k.val : Int))]⟩ where
  held := by
    intro x hx
    rcases List.mem_append.1 hx with hx | hx
    · obtain ⟨i, hi, hheld⟩ := ht.held x hx
      refine ⟨i, hi, ?_⟩
      intro j
      have hq : q ≠ x.1 := fun he => hfresh (he ▸ hb.live x hx)
      rw [harray, ← hheld j]
      by_cases hj : j = k
      · simp [hj, hk, hq]
      · simp [hj]
    · obtain rfl := List.mem_singleton.1 hx
      refine ⟨k, fromSocketfd_val k, ?_⟩
      intro j
      rw [harray]
      by_cases hj : j = k
      · simp [hj]
      · have hother : h.bsd.KsArray j ≠ some q := by
          intro hjq
          obtain ⟨y, hy, rfl⟩ := hb.covered j q hjq
          exact hfresh (hb.live y hy)
        simp [hj, hother]
  distinct := by
    rw [List.map_append, List.nodup_append]
    refine ⟨ht.distinct, by simp, ?_⟩
    simp only [List.map_cons, List.map_nil, List.mem_singleton]
    rintro _ hd _ rfl rfl
    obtain ⟨x, hx, hxk⟩ := List.mem_map.1 hd
    obtain ⟨i, hi, hheld⟩ := ht.held x hx
    rw [hxk, fromSocketfd_val] at hi
    obtain rfl := Option.some.inj hi
    simpa [hk] using (hheld k).2 rfl

theorem Tracks.remove (ht : Tracks h) {p : Nat} {i : Fin SOCKETFD_MAX} (hi : h.bsd.KsArray i = some p)
    (harray : b'.KsArray = Function.update h.bsd.KsArray i none) :
    Tracks ⟨b', h.opened.filter fun x => some x.1 ≠ some p⟩ where
  held := by
    intro x hx
    obtain ⟨hx, hne⟩ := List.mem_filter.1 hx
    obtain ⟨k, hk, hheld⟩ := ht.held x hx
    refine ⟨k, hk, ?_⟩
    intro j
    rw [harray, ← hheld j]
    by_cases hj : j = i
    · have hp : ¬p = x.1 := fun he => by simp [he] at hne
      simp [hj, hi, hp]
    · simp [hj]
  distinct := ht.distinct.sublist ((List.filter_sublist).map _)

theorem Backed.step (ht : Tracks h) (hb : Backed h) (hs : step E h c = some h') : Backed h' := by
  obtain ⟨ret, heffect, hopened⟩ := step_some hs
  cases heffect with
  | opened q hnew hother hret harray hfresh hlive =>
    simp only [hother, hnew, Option.map_some, Option.toList_some] at hopened
    constructor
    · intro x hx
      simp only [hopened, hlive] at hx ⊢
      rcases List.mem_append.1 hx with hx | hx
      · exact Finset.mem_insert_of_mem (hb.live x (List.mem_of_mem_filter hx))
      · simp [List.mem_singleton.1 hx]
    · intro j p hj
      rw [harray] at hj
      rcases Slots.of_fill hj with ⟨-, rfl⟩ | hj
      · exact ⟨(p, ret), by simp [hopened], rfl⟩
      · obtain ⟨x, hx, rfl⟩ := hb.covered j p hj
        exact ⟨x, by simp [hopened, hx], rfl⟩
  | closed i p hold hother hheld harray hlive =>
    have hnew : newSocket E h.bsd c = none := by simp [newSocket, hother]
    simp only [hold, hnew, Option.map_none, Option.toList_none, List.append_nil] at hopened
    constructor
    · intro x hx
      rw [hopened] at hx
      obtain ⟨hx, hne⟩ := List.mem_filter.1 hx
      rw [hlive]
      exact Finset.mem_erase.2 ⟨by simpa using hne, hb.live x hx⟩
    · intro j q hj
      rw [harray] at hj
      obtain ⟨hji, hjq⟩ := Slots.of_empty hj
      obtain ⟨x, hx, rfl⟩ := hb.covered j q hjq
      -- a socket that is in the closed slot and in this one is not an open one
      have hxp : x.1 ≠ p := by
        rintro rfl
        obtain ⟨k, -, hk⟩ := ht.held x hx
        exact hji (((hk j).1 hjq).trans ((hk i).1 hheld).symm)
      exact ⟨x, by simp [hopened, hx, hxp], rfl⟩
  | unchanged hnew hold harray hindex hlive =>
    simp only [hold, hnew, Option.map_none, Option.toList_none, List.append_nil] at hopened
    constructor
    · intro x hx
      rw [hopened] at hx
      exact hlive (hb.live x (List.mem_of_mem_filter hx))
    · intro j p hj
      obtain ⟨x, hx, rfl⟩ := hb.covered j p (harray ▸ hj)
      exact ⟨x, by simp [hopened, hx], rfl⟩

/-! ## Runs -/

theorem Vacant.sound (ht : Tracks h) (hb : Backed h) (hvacant : Vacant E h c) : Sound E h c := by
  intro h' hs
  obtain ⟨ret, heffect, hopened⟩ := step_some hs
  cases heffect with
  | opened q hnew hother hret harray hfresh hlive =>
    have hk : h.bsd.KsArray (toSocketfd h.bsd.KsIndex) = none := hvacant (by simp [hnew])
    refine ⟨?_, fun _ hnone => by simp [hnew] at hnone, fun _ x _ => by simp [hk]⟩
    have htracks := ht.install hb hk hfresh harray
    rwa [← hret, show h.opened ++ [(q, ret)] = h'.opened by simp [hopened, hother, hnew]] at htracks
  | closed i p hold hother hheld harray hlive =>
    have hnew : newSocket E h.bsd c = none := by simp [newSocket, hother]
    refine ⟨?_, by simp [hother], by simp [hnew]⟩
    have htracks := ht.remove hheld harray
    rwa [show h.opened.filter (fun x => some x.1 ≠ some p) = h'.opened by simp [hopened, hold, hnew]] at htracks
  | unchanged hnew hold harray hindex hlive =>
    refine ⟨?_, fun _ _ => ⟨harray, hindex⟩, by simp [hnew]⟩
    have hsame : h'.opened = h.opened := by simp [hopened, hold, hnew]
    exact ⟨by simpa only [hsame, harray] using ht.held, by simpa only [hsame] using ht.distinct⟩

/-- From a good state, a call is sound exactly when it is not a creation in an
occupied slot. -/
theorem sound_iff_vacant (ht : Tracks h) (hb : Backed h) : Sound E h c ↔ Vacant E h c := by
  refine ⟨?_, Vacant.sound ht hb⟩
  intro hsound hnew
  obtain ⟨q, hq⟩ := Option.isSome_iff_exists.1 hnew
  obtain ⟨ret, b', hcall⟩ := call_of_newSocket hq
  obtain ⟨-, -, hkept⟩ := hsound _ (by rw [step, hcall]; rfl)
  cases hslot : h.bsd.KsArray (toSocketfd h.bsd.KsIndex) with
  | none => rfl
  | some p =>
    obtain ⟨x, hx, rfl⟩ := hb.covered _ p hslot
    exact absurd hslot (hkept hnew x hx)

/-- Whatever the pool and the provider do, in every run of calls all open
sockets keep their own descriptors exactly if each creation that succeeds finds
its slot empty. -/
theorem descriptors_kept_iff_vacant (E : Env) (calls : List BsdCall) :
    (∀ x ∈ Run.visits (step E) init calls, Sound E x.1 x.2) ↔
      ∀ x ∈ Run.visits (step E) init calls, Vacant E x.1 x.2 :=
  Run.visits_iff (I := fun h => Tracks h ∧ Backed h) (fun _ _ hi => sound_iff_vacant hi.1 hi.2)
    (fun _ _ _ hi hsound hs => ⟨(hsound _ hs).1, hi.2.step hi.1 hs⟩) ⟨tracks_init, backed_init⟩ calls

/-- The 129th connection socket opened in a row overwrites the first one, which
is still open. -/
theorem crowd_overwrites :
    ∃ x ∈ Run.visits (step .obliging) init
        (List.replicate 128 (.socketConnection 2 1 6) ++ [.socketConnection 2 1 6]),
      ¬Sound .obliging x.1 x.2 := by
  have hrun : (Run.exec (step .obliging) init (List.replicate 128 (.socketConnection 2 1 6))).map (fun h =>
      (h.opened.head?, h.bsd.KsArray (toSocketfd h.bsd.KsIndex),
        (newSocket .obliging h.bsd (.socketConnection 2 1 6)).isSome,
        (step .obliging h (.socketConnection 2 1 6)).isSome)) = some (some (1, 0), some 1, true, true) := by
    decide +kernel
  obtain ⟨h, hexec, hh⟩ := Option.map_eq_some_iff.1 hrun
  obtain ⟨hfirst, hslot, hnew, hstep⟩ : _ ∧ _ ∧ _ ∧ _ := by simpa only [Prod.mk.injEq] using hh
  obtain ⟨h', hs⟩ := Option.isSome_iff_exists.1 hstep
  refine ⟨(h, .socketConnection 2 1 6), Run.visits_of_exec _ _ hexec, ?_⟩
  intro hsound
  exact (hsound h' hs).2.2 hnew (1, 0) (List.mem_of_mem_head? hfirst) hslot

end History

end KSock.Bsd
