import KSock.Descriptors
import KSock.GetAddrInfo
/-!
# The lists a program holds

A list that `getaddrinfo` returns is copied from the resolver's but for the
addresses, which both lists point to, and the resolver's list is released with
its addresses. So the list can be used exactly if it has no addresses. We show
that, and that without addresses it stays usable through any run of calls until
it is freed, unless its names are passed as hints: a failing conversion frees
the names of the hints.
-/
open KSockLib Outcome

namespace KSock

/-- The variables of `berkeley.c`, and the lists that were returned and are not
freed yet. -/
structure Holder where
  bsd : Bsd
  results : List (List ADDRINFOA)

inductive HolderCall where
  | bsd (c : BsdCall)
  | getaddrinfo (node service : Option (List UInt8)) (hints : List ADDRINFOA)
  | freeaddrinfo (res : List ADDRINFOA)
  deriving DecidableEq, Repr

/-- The blocks that are freed with a list. -/
def listBlocks (l : List ADDRINFOA) : List Nat := ownBlocks (fun a => a) l

/-- The resolver's list in a call of `getaddrinfo` that succeeds. -/
def resolverList (N : NameEnv) (w : World) (node service : Option (List UInt8)) (hints : List ADDRINFOA) :
    Option (List ADDRINFOEXW) := do
  let r ← Bsd.getaddrinfo N w node service hints
  if r.Status = STATUS_SUCCESS then r.Result else none

namespace Holder

def init : Holder := ⟨.init, []⟩

/-- A call that returns. A program frees only lists it holds. -/
def step (N : NameEnv) (s : Holder) : HolderCall → Option Holder
  | .bsd c => (s.bsd.call N.toEnv c).value.map fun r => { s with bsd := r.2 }
  | .getaddrinfo node service hints => (Bsd.getaddrinfo N s.bsd.world node service hints).map fun r =>
      ⟨{ s.bsd with world := r.world }, if r.Status = STATUS_SUCCESS then r.res.toList ++ s.results else s.results⟩
  | .freeaddrinfo res =>
    if res ∈ s.results then (Bsd.freeaddrinfo s.bsd.world res).map fun w =>
      ⟨{ s.bsd with world := w }, s.results.erase res⟩
    else none

/-- Every block reached from a list that is held is live. -/
def Usable (s : Holder) : Prop := ∀ l ∈ s.results, ∀ p ∈ l.flatMap (·.reachable), p ∈ s.bsd.world.pool.live

/-- The blocks of the lists that are held and of the sockets in the array. -/
def Has (s : Holder) (p : Nat) : Prop := (∃ l ∈ s.results, p ∈ listBlocks l) ∨ ∃ i, s.bsd.KsArray i = some p

instance (s : Holder) (p : Nat) : Decidable (s.Has p) := inferInstanceAs (Decidable (_ ∨ _))

/-- A call of `getaddrinfo` that succeeds has got a list without addresses, and
none of its hints has its name in a block of a held list or of a socket. -/
def Spares (N : NameEnv) (s : Holder) : HolderCall → Prop
  | .getaddrinfo node service hints =>
    (∀ Result ∈ resolverList N s.bsd.world node service hints, ∀ a ∈ Result, a.ai_addr = none) ∧
      ∀ a ∈ hints, ∀ p ∈ a.ai_canonname.map Str.Buffer, ¬s.Has p
  | _ => True

instance (N : NameEnv) (s : Holder) : (e : HolderCall) → Decidable (Spares N s e)
  | .getaddrinfo _ _ _ => inferInstanceAs (Decidable (_ ∧ _))
  | .bsd _ | .freeaddrinfo _ => inferInstanceAs (Decidable True)

/-! ## At the return of a call -/

variable {N : NameEnv} {s s' : Holder}

/-- What a list without addresses reaches is its own. -/
theorem reachable_eq {l : List ADDRINFOA} (h : ∀ a ∈ l, a.ai_addr = none) :
    l.flatMap (·.reachable) = listBlocks l := by
  unfold listBlocks ownBlocks
  rw [List.flatMap_def, List.flatMap_def]
  apply congrArg List.flatten
  apply List.map_congr_left
  intro a ha
  simp [AddrInfo.reachable, h a ha]

/-- The addresses of the list that is returned are the resolver's. -/
theorem addrs_none {h : Heap} {r : Resolved} {Result : List ADDRINFOEXW} {res : List ADDRINFOA}
    (ha : Bsd.Answer h r Result res) (hnone : ∀ a ∈ Result, a.ai_addr = none) : ∀ b ∈ res, b.ai_addr = none := by
  intro b hb
  have hmem : b.ai_addr ∈ Result.map (·.ai_addr) := ha.addrs ▸ List.mem_map_of_mem (f := (·.ai_addr)) hb
  obtain ⟨a, hmem, hab⟩ := List.mem_map.1 hmem
  exact hab.symm.trans (hnone a hmem)

/-- The resolver's addresses are gone at the return. -/
theorem answer_usable_iff {h : Heap} {r : Resolved} {Result : List ADDRINFOEXW} {res : List ADDRINFOA}
    (ha : Bsd.Answer h r Result res) :
    (∀ p ∈ res.flatMap (·.reachable), p ∈ r.world.pool.live) ↔ ∀ a ∈ Result, a.ai_addr = none := by
  constructor
  · intro hlive a hmem
    cases haddr : a.ai_addr with
    | none => rfl
    | some p =>
      have hres : some p ∈ res.map (·.ai_addr) := by
        rw [ha.addrs, ← haddr]
        exact List.mem_map_of_mem (f := fun a : ADDRINFOEXW => a.ai_addr) hmem
      obtain ⟨b, hb, hbp⟩ := List.mem_map.1 hres
      have hp : p ∈ r.world.pool.live := hlive p (List.mem_flatMap.2 ⟨b, hb, by simp [AddrInfo.reachable, hbp]⟩)
      exact absurd hp (ha.released p (List.mem_flatMap.2 ⟨a, hmem, by simp [AddrInfo.reachable, haddr]⟩))
  · intro hnone
    rw [reachable_eq (addrs_none ha hnone)]
    exact ha.live

/-! ## Runs -/

/-- The blocks of the sockets and of the lists are live and all different, and
the lists have no addresses. -/
structure Kept (s : Holder) : Prop where
  live : ∀ p, s.Has p → p ∈ s.bsd.world.pool.live
  apart : s.results.Pairwise fun l l' => (listBlocks l).Disjoint (listBlocks l')
  sockets : ∀ i p, s.bsd.KsArray i = some p → ∀ l ∈ s.results, p ∉ listBlocks l
  injective : ∀ i j p, s.bsd.KsArray i = some p → s.bsd.KsArray j = some p → i = j
  addrs : ∀ l ∈ s.results, ∀ a ∈ l, a.ai_addr = none

theorem Kept.usable (h : Kept s) : Usable s := fun l hl p hp => by
  rw [reachable_eq (h.addrs l hl)] at hp
  exact h.live p (.inl ⟨l, hl, hp⟩)

theorem kept_init : Kept init := by
  constructor <;> simp [init, Bsd.init, Has]

/-- The pool changes, but none of the blocks that are held. -/
theorem Kept.frame (h : Kept s) {w : World} (hlive : ∀ p, s.Has p → p ∈ w.pool.live) :
    Kept { s with bsd := { s.bsd with world := w } } :=
  ⟨hlive, h.apart, h.sockets, h.injective, h.addrs⟩

/-- A call on the sockets takes new blocks and frees that of the closed socket. -/
theorem Kept.bsd (h : Kept s) {c : BsdCall} {ret : Int} {b' : Bsd}
    (heffect : Bsd.Effect N.toEnv s.bsd c ret b') : Kept { s with bsd := b' } := by
  cases heffect with
  | opened q _ _ _ harray hfresh hlive =>
    have hnew : ¬s.Has q := fun hq => hfresh (h.live q hq)
    have hslot {i : Fin SOCKETFD_MAX} {p : Nat} (hi : b'.KsArray i = some p) :
        (i = Bsd.toSocketfd s.bsd.KsIndex ∧ p = q) ∨ s.bsd.KsArray i = some p := Slots.of_fill (harray ▸ hi)
    refine ⟨?_, h.apart, ?_, ?_, h.addrs⟩
    · intro p hp
      simp only [hlive, Finset.mem_insert]
      rcases hp with hp | ⟨i, hi⟩
      · exact .inr (h.live p (.inl hp))
      · exact (hslot hi).imp (fun he => he.2) fun hi => h.live p (.inr ⟨i, hi⟩)
    · intro i p hi l hl hp
      rcases hslot hi with ⟨-, rfl⟩ | hi
      · exact hnew (.inl ⟨l, hl, hp⟩)
      · exact h.sockets i p hi l hl hp
    · show Slots.Distinct b'.KsArray
      rw [harray]
      apply Slots.Distinct.fill h.injective
      intro i hi
      exact hnew (.inr ⟨i, hi⟩)
  | closed i q _ _ hheld harray hlive =>
    have hslot {j : Fin SOCKETFD_MAX} {p : Nat} (hj : b'.KsArray j = some p) : s.bsd.KsArray j = some p ∧ p ≠ q := by
      rw [harray] at hj
      exact ⟨(Slots.of_empty hj).2, Slots.Distinct.ne_of_empty h.injective hheld hj⟩
    refine ⟨?_, h.apart, fun j p hj => h.sockets j p (hslot hj).1,
      fun j k p hj hk => h.injective j k p (hslot hj).1 (hslot hk).1, h.addrs⟩
    intro p hp
    simp only [hlive, Finset.mem_erase]
    rcases hp with ⟨l, hl, hp⟩ | ⟨j, hj⟩
    · refine ⟨?_, h.live p (.inl ⟨l, hl, hp⟩)⟩
      rintro rfl
      exact h.sockets i p hheld l hl hp
    · exact ⟨(hslot hj).2, h.live p (.inr ⟨j, (hslot hj).1⟩)⟩
  | unchanged _ _ harray _ hlive =>
    refine ⟨?_, h.apart, fun i p hi => h.sockets i p (harray ▸ hi),
      fun i j p hi hj => h.injective i j p (harray ▸ hi) (harray ▸ hj), h.addrs⟩
    intro p hp
    rcases hp with hp | ⟨i, hi⟩
    · exact hlive (h.live p (.inl hp))
    · exact hlive (h.live p (.inr ⟨i, harray ▸ hi⟩))

/-- A list more, in new blocks and without addresses. -/
theorem Kept.add (h : Kept s) {r : Resolved} {Result : List ADDRINFOEXW} {res : List ADDRINFOA}
    (hkeeps : ∀ p, s.Has p → p ∈ r.world.pool.live) (ha : Bsd.Answer s.bsd.world.pool r Result res)
    (hnone : ∀ a ∈ Result, a.ai_addr = none) : Kept ⟨{ s.bsd with world := r.world }, res :: s.results⟩ where
  live p hp := by
    rcases hp with ⟨l, hl, hp⟩ | hi
    · rcases List.mem_cons.1 hl with rfl | hl
      · exact ha.live p hp
      · exact hkeeps p (.inl ⟨l, hl, hp⟩)
    · exact hkeeps p (.inr hi)
  apart := by
    refine List.pairwise_cons.2 ⟨?_, h.apart⟩
    intro l hl p hp hpl
    exact ha.fresh p hp (h.live p (.inl ⟨l, hl, hpl⟩))
  sockets i p hi l hl hp := by
    rcases List.mem_cons.1 hl with rfl | hl
    · exact ha.fresh p hp (h.live p (.inr ⟨i, hi⟩))
    · exact h.sockets i p hi l hl hp
  injective := h.injective
  addrs := List.forall_mem_cons.2 ⟨addrs_none ha hnone, h.addrs⟩

/-- A list is freed, and no block of the others. -/
theorem Kept.remove (h : Kept s) {res : List ADDRINFOA} {w : World} (hres : res ∈ s.results)
    (hfree : Bsd.freeaddrinfo s.bsd.world res = some w) :
    Kept ⟨{ s.bsd with world := w }, s.results.erase res⟩ := by
  obtain ⟨pool, hpool, rfl⟩ := Option.map_eq_some_iff.1 hfree
  have hothers : ∀ l ∈ s.results.erase res, (listBlocks res).Disjoint (listBlocks l) :=
    (List.pairwise_cons.1 ((List.perm_cons_erase hres).pairwise h.apart fun hd => hd.symm)).1
  have hsub {l : List ADDRINFOA} (hl : l ∈ s.results.erase res) : l ∈ s.results := List.mem_of_mem_erase hl
  refine ⟨?_, h.apart.sublist List.erase_sublist, fun i p hi l hl => h.sockets i p hi l (hsub hl),
    h.injective, fun l hl => h.addrs l (hsub hl)⟩
  intro p hp
  apply (freeList_some hpool p).2
  rcases hp with ⟨l, hl, hp⟩ | ⟨i, hi⟩
  · exact ⟨h.live p (.inl ⟨l, hsub hl, hp⟩), fun hpres => hothers l hl hpres hp⟩
  · exact ⟨h.live p (.inr ⟨i, hi⟩), h.sockets i p hi res hres⟩

theorem Kept.step (h : Kept s) {e : HolderCall} (hspares : Spares N s e) (hs : step N s e = some s') : Kept s' := by
  cases e with
  | bsd c =>
    obtain ⟨⟨ret, b'⟩, hcall, rfl⟩ := Option.map_eq_some_iff.1 hs
    exact h.bsd (Bsd.effect_of_call (value_eq_some.1 hcall))
  | getaddrinfo node service hints =>
    obtain ⟨r, hr, rfl⟩ := Option.map_eq_some_iff.1 hs
    have hkeeps : ∀ p, s.Has p → p ∈ r.world.pool.live := fun p hp =>
      Bsd.getaddrinfo_keeps hr (h.live p hp) fun a ha hname => hspares.2 a ha p hname hp
    by_cases hstatus : r.Status = STATUS_SUCCESS
    · obtain ⟨Result, res, ha⟩ := Bsd.getaddrinfo_success hr hstatus
      have hnone := hspares.1 Result (by simp [resolverList, hr, hstatus, ha.resolver])
      simpa [hstatus, ha.returned] using h.add hkeeps ha hnone
    · simpa [hstatus] using h.frame hkeeps
  | freeaddrinfo res =>
    simp only [Holder.step] at hs
    split at hs
    · obtain ⟨w, hw, rfl⟩ := Option.map_eq_some_iff.1 hs
      exact h.remove ‹_› hw
    · cases hs

/-- In a call that succeeds, every block reached from the list it returns is live
exactly if the resolver's list has no addresses. In a run where the lists of all
calls that succeed have none, and hints come with names of their own, every list
stays usable until it is freed. -/
theorem lists_usable (N : NameEnv) :
    (∀ w node service hints r, Bsd.getaddrinfo N w node service hints = some r → r.Status = STATUS_SUCCESS →
      ∃ Result res, r.Result = some Result ∧ r.res = some res ∧
        ((∀ p ∈ res.flatMap (·.reachable), p ∈ r.world.pool.live) ↔ ∀ a ∈ Result, a.ai_addr = none)) ∧
    ∀ calls, (∀ x ∈ Run.visits (Holder.step N) init calls, Spares N x.1 x.2) →
      ∀ s, Run.exec (Holder.step N) init calls = some s → Usable s := by
  constructor
  · intro w node service hints r hr hstatus
    obtain ⟨Result, res, ha⟩ := Bsd.getaddrinfo_success hr hstatus
    exact ⟨Result, res, ha.resolver, ha.returned, answer_usable_iff ha⟩
  · intro calls hspares s hexec
    have hstep (s : Holder) (e : HolderCall) (s' : Holder) (h : Kept s) (hs : Spares N s e)
        (ht : Holder.step N s e = some s') : Kept s' := h.step hs ht
    have hkept : Kept s := Run.exec_inv_of_visits hstep kept_init hspares hexec
    exact hkept.usable

/-- A record with its name and maybe an address, in the blocks after `last`. -/
def recordAfter (last : Nat) (withAddr : Bool) : ADDRINFOEXW where
  block := last + 1
  ai_flags := 0
  ai_family := 2
  ai_socktype := 1
  ai_protocol := 6
  ai_addrlen := 16
  ai_canonname := some ⟨last + 2, [104]⟩
  ai_addr := if withAddr then some (last + 3) else none
  ai_blob := none
  ai_bloblen := 0
  ai_provider := none

theorem recordAfter_fresh (withAddr : Bool) (live : Finset Nat) :
    ∀ p ∈ [recordAfter (live.sup id) withAddr].flatMap (·.reachable), p ∉ live := by
  intro p hp hlive
  have hle : p ≤ live.sup id := Finset.le_sup (f := id) hlive
  cases withAddr <;> simp [AddrInfo.reachable, AddrInfo.own, recordAfter] at hp <;> omega

/-- Memory never runs out, strings are converted unit by unit, and the resolver
finds one record. -/
def lookup (withAddr : Bool) : NameEnv where
  toEnv := .obliging
  ansiToUnicode _ text := (STATUS_SUCCESS, text.map (·.toUInt16))
  unicodeToAnsi _ text := (STATUS_SUCCESS, text.map (·.toUInt8))
  resolve _ _ live := ⟨[recordAfter (live.sup id) withAddr], recordAfter_fresh withAddr live⟩

/-- What `KSocket::connect` passes. -/
def streamHints : List ADDRINFOA := [⟨0, 2, 2, 1, 0, 0, none, none⟩]

/-- Two lists and a socket: the first list is freed and the socket closed, and the
second list stays usable. -/
theorem held_while_freed :
    ∃ s, Run.exec (Holder.step (lookup false)) init
        [.getaddrinfo (some [104]) (some [56, 48]) streamHints, .bsd (.socketConnection 2 1 6),
          .getaddrinfo (some [104]) none streamHints, .bsd (.closesocket 0),
          .freeaddrinfo [⟨6, 0, 2, 1, 6, 16, some ⟨7, [104]⟩, none⟩]] = some s ∧
      s.results.length = 1 ∧ Usable s := by
  have hrun : (Run.exec (Holder.step (lookup false)) init
      [.getaddrinfo (some [104]) (some [56, 48]) streamHints, .bsd (.socketConnection 2 1 6),
        .getaddrinfo (some [104]) none streamHints, .bsd (.closesocket 0),
        .freeaddrinfo [⟨6, 0, 2, 1, 6, 16, some ⟨7, [104]⟩, none⟩]]).map (fun s => s.results.length) = some 1 := by
    decide +kernel
  obtain ⟨s, hexec, hlength⟩ := Option.map_eq_some_iff.1 hrun
  exact ⟨s, hexec, hlength, (lists_usable (lookup false)).2 _ (by decide +kernel) s hexec⟩

/-- One record with an address: the call succeeds, and the address block of the
list it returns is dead. -/
theorem address_dead_at_return :
    ∃ r a p, Bsd.getaddrinfo (lookup true) .init (some [104]) (some [56, 48]) streamHints = some r ∧
      r.Status = STATUS_SUCCESS ∧ r.res = some [a] ∧ a.ai_addr = some p ∧ p ∉ r.world.pool.live := by
  have hrun : (Bsd.getaddrinfo (lookup true) .init (some [104]) (some [56, 48]) streamHints).map (fun r =>
      (r.Status, r.res, decide (6 ∈ r.world.pool.live))) =
        some (STATUS_SUCCESS, some [⟨7, 0, 2, 1, 6, 16, some ⟨8, [104]⟩, some 6⟩], false) := by
    decide +kernel
  obtain ⟨r, hr, h⟩ := Option.map_eq_some_iff.1 hrun
  obtain ⟨hstatus, hres, hdead⟩ : _ ∧ _ ∧ _ := by simpa only [Prod.mk.injEq] using h
  exact ⟨r, _, 6, hr, hstatus, hres, rfl, of_decide_eq_false hdead⟩

end Holder

end KSock
