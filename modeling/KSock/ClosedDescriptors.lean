import KSock.Descriptors
import KSock.Dispatch
/-!
# Calls on descriptors that are not open

Eight calls start by reading `KsArray[FROM_SOCKETFD(sockfd)]` and hand what they
find to a `Ks` function, which follows it. No call looks at the number or at the
pointer first. In every run a slot that is not NULL holds an open socket whose
creator got that descriptor (`Seated`), so exactly the descriptors of open
sockets can be used: with any other one a call reads outside the array or passes
NULL on, and none returns -1.
-/
open KSockLib Outcome

namespace KSock.Bsd

variable {E : Env} {b b' : Bsd} {c : BsdCall} {fd : Int}

/-! ## The first statement -/

/-- What `PKSOCKET Socket = KsArray[FROM_SOCKETFD(sockfd)]` comes to. -/
inductive Access where
  | outside
  | null
  | socket (p : Nat)
  deriving DecidableEq, Repr

def access (b : Bsd) (sockfd : Int) : Access :=
  match fromSocketfd sockfd with
  | none => .outside
  | some i =>
    match b.KsArray i with
    | none => .null
    | some p => .socket p

theorem access_of_socketAt_none (h : b.socketAt fd = none) :
    (b.access fd = .outside ∧ (fd < 0 ∨ SOCKETFD_MAX ≤ fd)) ∨
      (b.access fd = .null ∧ 0 ≤ fd ∧ fd < SOCKETFD_MAX) := by
  unfold access
  by_cases hin : 0 ≤ fd ∧ fd.toNat < SOCKETFD_MAX
  · have hi : fromSocketfd fd = some ⟨fd.toNat, hin.2⟩ := dif_pos hin
    have hnull : b.KsArray ⟨fd.toNat, hin.2⟩ = none := by simpa [socketAt, hi] using h
    right
    rw [hi]
    dsimp only
    rw [hnull]
    exact ⟨rfl, hin.1, by omega⟩
  · have hi : fromSocketfd fd = none := dif_neg hin
    left
    rw [hi]
    exact ⟨rfl, by omega⟩

/-- Without a socket behind its descriptor, none of the eight calls returns. -/
theorem call_of_socketAt_none (hfd : c.sockfd = some fd) (h : b.socketAt fd = none) : b.call E c = stuck := by
  cases c with
  | socketConnection d t p | socketListen d t p | socketDatagram d t p | listen fd n => cases hfd
  | connect fd a | bind fd a | accept fd | send fd buf n f | sendto fd buf n f a | recv fd buf n f
  | recvfrom fd buf n f a =>
    obtain rfl := Option.some.inj hfd
    exact congrArg (fun o => ofOption o >>= _) h
  | closesocket fd =>
    obtain rfl := Option.some.inj hfd
    change (ofOption (fromSocketfd fd) >>= _) = _
    cases hi : fromSocketfd fd with
    | none => rfl
    | some i =>
      have hslot : b.KsArray i = none := by simpa [socketAt, hi] using h
      rw [ofOption_some, returns_bind, hslot]
      rfl

/-- The call returns -1 and leaves the two variables as they are. -/
def FailsCleanly (E : Env) (b : Bsd) (c : BsdCall) : Prop :=
  ∃ b', b.call E c = returns (-1, b') ∧ b'.KsArray = b.KsArray ∧ b'.KsIndex = b.KsIndex

/-! ## Runs -/

namespace History

variable {h h' : History}

/-- The descriptor is that of an open socket, and still stands for it. -/
def Open (h : History) (fd : Int) : Prop := ∃ p, (p, fd) ∈ h.opened ∧ h.bsd.socketAt fd = some p

/-- Each slot is empty or holds an open socket that was given this descriptor,
and no two hold the same one. -/
structure Seated (h : History) : Prop where
  opened : ∀ i p, h.bsd.KsArray i = some p → (p, (i.val : Int)) ∈ h.opened
  distinct : ∀ i j p, h.bsd.KsArray i = some p → h.bsd.KsArray j = some p → i = j
  live : ∀ x ∈ h.opened, x.1 ∈ h.bsd.world.pool.live

theorem seated_init : Seated init := ⟨by simp [init, Bsd.init], by simp [init, Bsd.init], by simp [init]⟩

theorem Seated.step (hseated : Seated h) (hs : step E h c = some h') : Seated h' := by
  obtain ⟨ret, heffect, hopened⟩ := step_some hs
  cases heffect with
  | opened q hnew hother hret harray hfresh hlive =>
    have hall : h'.opened = h.opened ++ [(q, ret)] := by simp [hopened, hother, hnew]
    constructor
    · intro j p hj
      rw [harray] at hj
      rw [hall, hret]
      rcases Slots.of_fill hj with ⟨rfl, rfl⟩ | hj
      · exact List.mem_append_right _ (List.mem_singleton.2 rfl)
      · exact List.mem_append_left _ (hseated.opened j p hj)
    · rw [harray]
      apply Slots.Distinct.fill hseated.distinct
      intro j hj
      exact hfresh (hseated.live _ (hseated.opened j q hj))
    · intro x hx
      rw [hlive]
      rw [hall] at hx
      rcases List.mem_append.1 hx with hx | hx
      · exact Finset.mem_insert_of_mem (hseated.live x hx)
      · simp [List.mem_singleton.1 hx]
  | closed i p hold hother hheld harray hlive =>
    have hnew : newSocket E h.bsd c = none := by simp [newSocket, hother]
    have hall : h'.opened = h.opened.filter fun x => some x.1 ≠ some p := by simp [hopened, hold, hnew]
    constructor
    · intro j q hj
      rw [harray] at hj
      -- what is in a slot that is still in use is not what was closed
      have hqp : q ≠ p := Slots.Distinct.ne_of_empty hseated.distinct hheld hj
      rw [hall]
      exact List.mem_filter.2 ⟨hseated.opened j q (Slots.of_empty hj).2, by simpa using hqp⟩
    · rw [harray]
      exact Slots.Distinct.empty hseated.distinct
    · intro x hx
      rw [hall] at hx
      obtain ⟨hx, hne⟩ := List.mem_filter.1 hx
      rw [hlive]
      exact Finset.mem_erase.2 ⟨by simpa using hne, hseated.live x hx⟩
  | unchanged hnew hold harray hindex hlive =>
    have hall : h'.opened = h.opened := by simp [hopened, hold, hnew]
    constructor
    · rw [hall, harray]
      exact hseated.opened
    · rw [harray]
      exact hseated.distinct
    · intro x hx
      rw [hall] at hx
      exact hlive (hseated.live x hx)

/-- In every run the descriptors that can be used are those of open sockets. -/
theorem Seated.open_of_socketAt (hseated : Seated h) {p : Nat} (hp : h.bsd.socketAt fd = some p) : Open h fd := by
  obtain ⟨i, hi, hheld⟩ := Option.bind_eq_some_iff.1 hp
  have hfd : fd = (i.val : Int) := by
    unfold fromSocketfd at hi
    split at hi
    · rename_i hin
      obtain rfl := Option.some.inj hi
      exact (Int.toNat_of_nonneg hin.1).symm
    · cases hi
  exact ⟨p, hfd ▸ hseated.opened i p hheld, hp⟩

/-- After any run, a call on a descriptor that is not that of an open socket
does not fail cleanly: it reads outside the array if the number is not an index,
and passes NULL to its `Ks` function if it is. -/
theorem never_fails_cleanly (E : Env) (calls : List BsdCall) (h : History)
    (hrun : Run.exec (step E) init calls = some h) (fd : Int) (hclosed : ¬Open h fd) (c : BsdCall)
    (hfd : c.sockfd = some fd) :
    ¬FailsCleanly E h.bsd c ∧
      ((h.bsd.access fd = .outside ∧ (fd < 0 ∨ SOCKETFD_MAX ≤ fd)) ∨
        (h.bsd.access fd = .null ∧ 0 ≤ fd ∧ fd < SOCKETFD_MAX)) := by
  have hseated : Seated h := Run.exec_inv (fun _ _ _ hseated hs => hseated.step hs) seated_init hrun
  have hnone : h.bsd.socketAt fd = none := by
    cases hp : h.bsd.socketAt fd with
    | none => rfl
    | some p => exact absurd (hseated.open_of_socketAt hp) hclosed
  refine ⟨?_, access_of_socketAt_none hnone⟩
  rintro ⟨b', hcall, -⟩
  rw [call_of_socketAt_none hfd hnone] at hcall
  cases hcall

/-- A socket that was closed is not open, and closing it again passes NULL on. -/
theorem second_close_unclean :
    ∃ h, Run.exec (step .obliging) init [.socketConnection 2 1 6, .closesocket 0] = some h ∧
      ¬FailsCleanly .obliging h.bsd (.closesocket 0) ∧ h.bsd.access 0 = .null := by
  have hrun : (Run.exec (step .obliging) init [.socketConnection 2 1 6, .closesocket 0]).map (fun h => h.opened) =
      some [] := by decide +kernel
  obtain ⟨h, hexec, hopened⟩ := Option.map_eq_some_iff.1 hrun
  have hclosed : ¬Open h 0 := by
    rintro ⟨p, hp, -⟩
    simp [hopened] at hp
  obtain ⟨hunclean, hout | hnull⟩ := never_fails_cleanly .obliging _ h hexec 0 hclosed (.closesocket 0) rfl
  · exact absurd hout.2 (by decide)
  · exact ⟨h, hexec, hunclean, hnull.1⟩

/-- No memory for a `KSOCKET`. -/
def exhausted : Env := { Env.obliging with pool := ⟨fun _ _ => none⟩ }

/-- A server that does not look at what `socket_listen` returned: it is -1, and
`bind` reads `KsArray[-1]`. -/
theorem unchecked_listen_unclean :
    ∃ b, init.bsd.call exhausted (.socketListen 2 1 0) = returns (-1, b) ∧ b.access (-1) = .outside ∧
      ¬FailsCleanly exhausted b (.bind (-1) ⟨2, 9095, 0⟩) := by
  have hlisten : (init.bsd.call exhausted (.socketListen 2 1 0)).value.map (fun r =>
      (r.1, r.2.access (-1), (r.2.call exhausted (.bind (-1) ⟨2, 9095, 0⟩)).value.isSome)) =
      some (-1, .outside, false) := by decide +kernel
  obtain ⟨⟨ret, b⟩, hcall, hr⟩ := Option.map_eq_some_iff.1 hlisten
  obtain ⟨rfl, haccess, hbind⟩ : _ ∧ _ ∧ _ := by simpa only [Prod.mk.injEq] using hr
  refine ⟨b, value_eq_some.1 hcall, haccess, ?_⟩
  rintro ⟨b', hb', -⟩
  rw [hb'] at hbind
  cases hbind

end History

end KSock.Bsd
