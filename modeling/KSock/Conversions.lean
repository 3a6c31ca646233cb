import KSock.AddrInfo
/-!
# What the conversions release

A conversion that fails at some record unwinds through all records before it.
At each it frees one of two local strings, and only a record with a name has
initialised them. `failsAt` is the record that a pattern of failing allocations
and string conversions stops at; what the unwinding then does depends on the
records before that one alone.
-/
open KSockLib

namespace KSock

variable {R S C D : Type} {K : Conversion R S C D} {A : Allocator} {l rest : List R} {r : R} {h h' : Heap}

/-- The index of the first record whose allocation or string conversion fails. -/
def Conversion.failsAt (K : Conversion R S C D) (A : Allocator) : List R → Heap → Option Nat
  | [], _ => none
  | r :: rest, h =>
    match h.alloc A with
    | (none, _) => some 0
    | (some _, h) =>
      let c := convertName A K.convert ((K.fields r).ai_canonname.map Str.text) h
      if ntSuccess c.1 then (K.failsAt A rest c.2.2).map (· + 1) else some 0

/-- A conversion returns. If it succeeds, freeing its list releases exactly the
blocks it has allocated; if it fails, the blocks that were live are. -/
def Releases (convert : List R → Heap → Option (NTSTATUS × Option (List S) × Heap))
    (free : List S → Heap → Option Heap) (l : List R) (h : Heap) : Prop :=
  ∃ Status o h', convert l h = some (Status, o, h') ∧
    (ntSuccess Status = true → ∃ l' h'', o = some l' ∧ free l' h' = some h'' ∧ h''.live = h.live) ∧
    (ntSuccess Status = false → h'.live = h.live)

/-! ## Freeing a list -/

/-- A list that is not empty and has its blocks for itself can be freed. -/
theorem freeList_live {fields : R → AddrInfo C} (hne : l ≠ []) (hlive : ∀ p ∈ ownBlocks fields l, p ∈ h.live)
    (hnodup : (ownBlocks fields l).Nodup) : ∃ h', freeList fields l h = some h' := by
  induction l generalizing h with
  | nil => exact absurd rfl hne
  | cons r rest ih =>
    rw [ownBlocks, List.flatMap_cons] at hlive hnodup
    obtain ⟨hown, hrest, hdisjoint⟩ := List.nodup_append.1 hnodup
    obtain ⟨h₁, hfree₁, hkept₁⟩ : ∃ h₁, (if rest.isEmpty then some h else freeList fields rest h) = some h₁ ∧
        ∀ p ∈ (fields r).own, p ∈ h₁.live := by
      cases rest with
      | nil => exact ⟨h, rfl, fun p hp => hlive p (List.mem_append_left _ hp)⟩
      | cons r' rest =>
        obtain ⟨h₁, hfree⟩ := ih (List.cons_ne_nil r' rest) (fun p hp => hlive p (List.mem_append_right _ hp)) hrest
        refine ⟨h₁, hfree, ?_⟩
        intro p hp
        exact (freeList_some hfree p).2 ⟨hlive p (List.mem_append_left _ hp), fun hin => hdisjoint p hp p hin rfl⟩
    unfold AddrInfo.own at hown hkept₁
    have hblock : (fields r).block ∈ h₁.live := hkept₁ _ List.mem_cons_self
    cases hname : (fields r).ai_canonname with
    | none =>
      refine ⟨{ h₁ with live := h₁.live.erase (fields r).block }, ?_⟩
      rw [freeList, hfree₁, Option.bind_eq_bind, Option.bind_some, hname]
      exact Heap.free_live hblock
    | some name =>
      rw [hname] at hown hkept₁
      have hbuffer : name.Buffer ∈ h₁.live := hkept₁ _ (by simp)
      have hfree₂ := Heap.free_live hbuffer
      have hblock₂ : (fields r).block ∈ h₁.live.erase name.Buffer :=
        Finset.mem_erase.2 ⟨by simpa using hown, hblock⟩
      refine ⟨{ h₁ with live := (h₁.live.erase name.Buffer).erase (fields r).block }, ?_⟩
      rw [freeList, hfree₁, Option.bind_eq_bind, Option.bind_some, hname, freeName, hfree₂, Option.bind_some]
      exact Heap.free_live hblock₂

/-! ## A record and the rest -/

/-- The conversion of a record, once its allocation and its name have succeeded. -/
theorem Conversion.list_cons {p : Nat} {h₁ h₂ : Heap} {Status : NTSTATUS} {made : Option (Str D)}
    (hrecord : h.alloc A = (some p, h₁))
    (hname : convertName A K.convert ((K.fields r).ai_canonname.map Str.text) h₁ = (Status, made, h₂))
    (hok : ntSuccess Status = true) :
    K.list A (r :: rest) h = (K.list A rest h₂).bind fun x =>
      if ntSuccess x.1 = false then
        (K.error3 (K.fields r).ai_canonname made).bind fun Buffer =>
          (x.2.2.free Buffer).bind fun h => (h.free p).map fun h => (x.1, none, h)
      else x.2.1.map fun next =>
        (x.1, some (K.record { (K.fields r) with block := p, ai_canonname := made } :: next), x.2.2) := by
  rw [Conversion.list]
  simp only [hrecord, hname, hok, Bool.not_true, Bool.false_eq_true, if_false, Option.bind_eq_bind]
  congr 1
  funext x
  cases hx : ntSuccess x.1 <;> simp [Option.map_eq_bind]

/-- A record whose own conversion succeeds passes a failure on. -/
theorem Conversion.failsAt_cons {p : Nat} {h₁ h₂ : Heap} {Status : NTSTATUS} {made : Option (Str D)}
    (hrecord : h.alloc A = (some p, h₁))
    (hname : convertName A K.convert ((K.fields r).ai_canonname.map Str.text) h₁ = (Status, made, h₂))
    (hok : ntSuccess Status = true) : K.failsAt A (r :: rest) h = (K.failsAt A rest h₂).map (· + 1) := by
  rw [failsAt]
  simp only [hrecord, hname, hok, if_true]

/-- The first record's own conversion fails, and releases the record, or it
succeeds, with its blocks new. -/
theorem Conversion.record_cases (K : Conversion R S C D) (A : Allocator) (r : R) (rest : List R) (h : Heap) :
    (K.failsAt A (r :: rest) h = some 0 ∧ ∃ Status h', K.list A (r :: rest) h = some (Status, none, h') ∧
        ntSuccess Status = false ∧ h'.live = h.live) ∨
      ∃ p Status made h₁ h₂, h.alloc A = (some p, h₁) ∧
        convertName A K.convert ((K.fields r).ai_canonname.map Str.text) h₁ = (Status, made, h₂) ∧
        ntSuccess Status = true ∧ made.isSome = (K.fields r).ai_canonname.isSome ∧
        h.Grows (p :: (made.map Str.Buffer).toList) h₂ := by
  rcases hrecord : h.alloc A with ⟨_ | p, h₁⟩
  · exact .inl ⟨by simp [failsAt, hrecord], STATUS_INSUFFICIENT_RESOURCES, h₁, by simp [list, hrecord],
      ntSuccess_insufficient, Heap.alloc_none hrecord⟩
  have hnew := Heap.Grows.alloc hrecord
  rcases hname : convertName A K.convert ((K.fields r).ai_canonname.map Str.text) h₁ with ⟨Status, made, h₂⟩
  rcases convertName_cases hname with ⟨hok, hmade, hgrows⟩ | ⟨hok, hlive⟩
  · exact .inr ⟨p, Status, made, h₁, h₂, rfl, hname, hok, by simpa using hmade, hnew.append hgrows⟩
  · have hp : p ∈ h₂.live := by
      rw [hlive, hnew.live]
      exact .inr List.mem_cons_self
    have herase : h₂.live.erase p = h.live := by
      rw [hlive, (Heap.alloc_some hrecord).2]
      exact Finset.erase_insert (Heap.alloc_some hrecord).1
    exact .inl ⟨by simp [failsAt, hrecord, hname, hok], Status, { h₂ with live := h₂.live.erase p },
      by simp [list, hrecord, hname, hok, Heap.free_live hp], hok, herase⟩

/-! ## The whole list -/

/-- Where nothing fails the conversion succeeds. -/
theorem Conversion.list_of_failsAt_none (hnone : K.failsAt A l h = none) :
    ∃ Status o h', K.list A l h = some (Status, o, h') ∧ ntSuccess Status = true := by
  induction l generalizing h with
  | nil => exact ⟨_, _, _, rfl, ntSuccess_success⟩
  | cons r rest ih =>
    rcases record_cases K A r rest h with ⟨hzero, -⟩ | ⟨p, Status, made, h₁, h₂, hrecord, hname, hok, -, -⟩
    · rw [hnone] at hzero
      cases hzero
    · rw [failsAt_cons hrecord hname hok, Option.map_eq_none_iff] at hnone
      obtain ⟨Status', o, h', hlist, hok'⟩ := ih hnone
      obtain ⟨l', rfl, -⟩ := list_success hlist hok'
      rw [list_cons hrecord hname hok, hlist, Option.bind_some, if_neg (by simp [hok'])]
      exact ⟨Status', _, h', rfl, hok'⟩

/-- A record whose name must have been converted for its `Error3`, and has been,
is released together with it. -/
theorem Conversion.list_unwinds {k : Nat} (hfails : K.failsAt A l h = some k)
    (hnames : ∀ r ∈ l.take k, ∀ made : Option (Str D), made.isSome = (K.fields r).ai_canonname.isSome →
      ∃ Buffer, K.error3 (K.fields r).ai_canonname made = some Buffer ∧ made.map Str.Buffer = some Buffer) :
    ∃ Status h', K.list A l h = some (Status, none, h') ∧ ntSuccess Status = false ∧ h'.live = h.live := by
  induction l generalizing h k with
  | nil => cases hfails
  | cons r rest ih =>
    rcases record_cases K A r rest h with ⟨-, hzero⟩ | ⟨p, Status, made, h₁, h₂, hrecord, hname, hok, hmade, hgrows⟩
    · exact hzero
    rw [failsAt_cons hrecord hname hok] at hfails
    obtain ⟨k, hrest, rfl⟩ := Option.map_eq_some_iff.1 hfails
    rw [List.take_succ_cons, List.forall_mem_cons] at hnames
    obtain ⟨Status', h₃, hlist, hfail, hlive⟩ := ih hrest hnames.2
    obtain ⟨Buffer, herror3, hbuffer⟩ := hnames.1 made hmade
    rw [hbuffer, Option.toList_some] at hgrows
    have hbuffer₃ : Buffer ∈ h₃.live := by
      rw [hlive, hgrows.live]
      exact .inr (by simp)
    have hne : p ≠ Buffer := by
      have := hgrows.nodup
      simpa using this
    let h₄ : Heap := { h₃ with live := h₃.live.erase Buffer }
    have hp₄ : p ∈ h₄.live := by
      rw [Finset.mem_erase, hlive, hgrows.live]
      exact ⟨hne, .inr (by simp)⟩
    refine ⟨Status', { h₄ with live := h₄.live.erase p }, ?_, hfail, ?_⟩
    · rw [list_cons hrecord hname hok, hlist, Option.bind_some, if_pos hfail, herror3, Option.bind_some,
        Heap.free_live hbuffer₃, Option.bind_some, Heap.free_live hp₄]
      rfl
    · ext q
      have hp := hgrows.fresh p (by simp)
      have hb := hgrows.fresh Buffer (by simp)
      simp only [h₄, Finset.mem_erase, hlive, hgrows.live, List.mem_cons, List.not_mem_nil, or_false]
      constructor
      · rintro ⟨hqp, hqb, hq | hq | hq⟩
        · exact hq
        · exact absurd hq hqp
        · exact absurd hq hqb
      · intro hq
        exact ⟨fun he => hp (he ▸ hq), fun he => hb (he ▸ hq), .inl hq⟩

/-- Where something fails the conversion does not succeed. -/
theorem Conversion.list_fails {k : Nat} {Status : NTSTATUS} {o : Option (List S)} (hfails : K.failsAt A l h = some k)
    (hlist : K.list A l h = some (Status, o, h')) : ntSuccess Status = false := by
  induction l generalizing h k Status o h' with
  | nil => cases hfails
  | cons r rest ih =>
    rcases record_cases K A r rest h with ⟨-, Status', h₁, hzero, hfail, -⟩ |
      ⟨p, Status', made, h₁, h₂, hrecord, hname, hok, -, -⟩
    · rw [hlist] at hzero
      cases hzero
      exact hfail
    rw [failsAt_cons hrecord hname hok] at hfails
    obtain ⟨k, hrest, rfl⟩ := Option.map_eq_some_iff.1 hfails
    rw [list_cons hrecord hname hok] at hlist
    obtain ⟨⟨Status₃, o₃, h₃⟩, hlist₃, hlist⟩ := Option.bind_eq_some_iff.1 hlist
    have hfail₃ := ih hrest hlist₃
    rw [if_pos hfail₃] at hlist
    obtain ⟨Buffer, -, hlist⟩ := Option.bind_eq_some_iff.1 hlist
    obtain ⟨h₄, -, hlist⟩ := Option.bind_eq_some_iff.1 hlist
    obtain ⟨h₅, -, hlist⟩ := Option.map_eq_some_iff.1 hlist
    cases hlist
    exact hfail₃

/-- If a record before the failing one has not initialised the string of its
`Error3`, the conversion has no result. -/
theorem Conversion.list_stuck {k : Nat} (hfails : K.failsAt A l h = some k)
    (hname : ∃ r ∈ l.take k, ∀ made : Option (Str D), made.isSome = (K.fields r).ai_canonname.isSome →
      K.error3 (K.fields r).ai_canonname made = none) : K.list A l h = none := by
  induction l generalizing h k with
  | nil => cases hfails
  | cons r rest ih =>
    rcases record_cases K A r rest h with ⟨hzero, -⟩ | ⟨p, Status, made, h₁, h₂, hrecord, hname', hok, hmade, -⟩
    · obtain rfl : k = 0 := Option.some.inj (hfails.symm.trans hzero)
      simp at hname
    rw [failsAt_cons hrecord hname' hok] at hfails
    obtain ⟨k, hrest, rfl⟩ := Option.map_eq_some_iff.1 hfails
    rw [List.take_succ_cons] at hname
    obtain ⟨r', hr', hnone⟩ := hname
    rw [list_cons hrecord hname' hok]
    cases hlist : K.list A rest h₂ with
    | none => rfl
    | some x =>
      rcases List.mem_cons.1 hr' with rfl | hr'
      · rw [Option.bind_some, if_pos (list_fails hrest hlist), hnone made hmade]
        rfl
      · rw [ih hrest ⟨r', hr', hnone⟩] at hlist
        cases hlist

/-! ## The two functions -/

/-- A conversion that succeeds has made blocks that freeing its list releases,
unless there is no list. -/
theorem Conversion.releases_of_failsAt_none (hnone : K.failsAt A l h = none) :
    Releases (K.list A) (freeList K.result) l h ↔ l ≠ [] := by
  obtain ⟨Status, o, h', hlist, hok⟩ := list_of_failsAt_none hnone
  obtain ⟨l', rfl, hgrows, haddr⟩ := list_success hlist hok
  have hlength : l'.length = l.length := by simpa using congrArg List.length haddr
  constructor
  · rintro ⟨Status', o', h₁, hlist', hsuccess, -⟩ rfl
    rw [hlist'] at hlist
    cases hlist
    obtain ⟨l₁, h₂, hl₁, hfree, -⟩ := hsuccess hok
    obtain rfl := Option.some.inj hl₁
    rw [List.length_eq_zero_iff.1 hlength] at hfree
    cases hfree
  · intro hne
    have hne' : l' ≠ [] := by
      rintro rfl
      exact hne (List.length_eq_zero_iff.1 hlength.symm)
    obtain ⟨h'', hfree⟩ :=
      @freeList_live S D l' h' K.result hne' (fun p hp => (hgrows.live p).2 (.inr hp)) hgrows.nodup
    refine ⟨Status, some l', h', hlist, fun _ => ⟨l', h'', rfl, hfree, ?_⟩, fun hfail => ?_⟩
    · ext p
      rw [freeList_some hfree, hgrows.live]
      apply Heap.given_back
      intro hp hown
      exact hgrows.fresh p hown hp
    · rw [hok] at hfail
      cases hfail

/-- The blocks of the caller's list are live. -/
def Owned (l : List ADDRINFOA) (h : Heap) : Prop := ∀ p ∈ ownBlocks (fun a => a) l, p ∈ h.live

/-- To Unicode: nothing fails and there is a list, or the first record fails. At
a later one the unwinding frees a name of the caller's or a string that is not
initialised. -/
theorem toAddrInfoEx_releases_iff (f : (n : Nat) → List UInt8 → NTSTATUS × List UInt16) {l : List ADDRINFOA}
    (howned : Owned l h) :
    Releases (kspUtilAddrInfoToAddrInfoEx A f) kspUtilFreeAddrInfoEx l h ↔
      match (toAddrInfoEx f).failsAt A l h with
      | none => l ≠ []
      | some k => k = 0 := by
  cases hfails : (toAddrInfoEx f).failsAt A l h with
  | none => exact Conversion.releases_of_failsAt_none hfails
  | some k =>
    constructor
    · rintro ⟨Status, o, h', hlist, -, hkept⟩
      have hfail := Conversion.list_fails hfails hlist
      cases l with
      | nil => cases hfails
      | cons r rest =>
        cases Conversion.step_of_list hlist with
        | error1 hrecord => simpa [Conversion.failsAt, hrecord] using hfails.symm
        | error2 hrecord hname hbad _ => simpa [Conversion.failsAt, hrecord, hname, hbad] using hfails.symm
        | converted _ _ _ _ hok =>
          rw [hok] at hfail
          cases hfail
        | @error3 p Buffer Status₁ _ made next h₁ h₂ h₃ h₄ _ _ _ _ _ _ hstring hfreeString hfree =>
          -- the name is the caller's, and it is gone
          obtain ⟨name, hname, rfl⟩ := Option.map_eq_some_iff.1 hstring
          have hlive : name.Buffer ∈ h.live := howned _ (by
            have hname' : r.ai_canonname = some name := hname
            simp [ownBlocks, AddrInfo.own, hname'])
          rw [← hkept hfail, Heap.mem_free hfree, Heap.mem_free hfreeString] at hlive
          exact absurd rfl hlive.1.2
    · rintro rfl
      obtain ⟨Status, h', hlist, hfail, hlive⟩ := Conversion.list_unwinds hfails (by simp)
      refine ⟨Status, none, h', hlist, ?_, fun _ => hlive⟩
      intro hok
      simp [hfail] at hok

/-- From Unicode: nothing fails and there is a list, or all records before the
one that fails have names. -/
theorem toAddrInfo_releases_iff (f : (n : Nat) → List UInt16 → NTSTATUS × List UInt8) (l : List ADDRINFOEXW)
    (h : Heap) :
    Releases (kspUtilAddrInfoExToAddrInfo A f) kspUtilFreeAddrInfo l h ↔
      match (toAddrInfo f).failsAt A l h with
      | none => l ≠ []
      | some k => ∀ a ∈ l.take k, a.ai_canonname ≠ none := by
  cases hfails : (toAddrInfo f).failsAt A l h with
  | none => exact Conversion.releases_of_failsAt_none hfails
  | some k =>
    constructor
    · rintro ⟨Status, o, h', hlist, -⟩ a ha hnone
      have hstuck := Conversion.list_stuck hfails ⟨a, ha, fun made hmade => by
        rw [show ((toAddrInfo f).fields a).ai_canonname = none from hnone, Option.isSome_none,
          Option.isSome_eq_false_iff, Option.isNone_iff_eq_none] at hmade
        rw [hmade]
        rfl⟩
      rw [kspUtilAddrInfoExToAddrInfo, hstuck] at hlist
      cases hlist
    · intro hnames
      obtain ⟨Status, h', hlist, hfail, hlive⟩ := Conversion.list_unwinds hfails fun a ha made hmade => by
        have hsome : made.isSome = true := by
          rw [hmade]
          exact Option.isSome_iff_ne_none.2 (hnames a ha)
        obtain ⟨name, rfl⟩ := Option.isSome_iff_exists.1 hsome
        exact ⟨name.Buffer, rfl, rfl⟩
      refine ⟨Status, none, h', hlist, ?_, fun _ => hlive⟩
      intro hok
      simp [hfail] at hok

/-- For every list, allocator and converter of strings: the conversion to
Unicode of a list on the heap releases what it should exactly if nothing fails
and the list is not empty, or its first record fails; the one from Unicode
exactly if nothing fails and the list is not empty, or each record before the
one that fails has a name. -/
theorem conversions_release_iff (A : Allocator) (ansiToUnicode : (n : Nat) → List UInt8 → NTSTATUS × List UInt16)
    (unicodeToAnsi : (n : Nat) → List UInt16 → NTSTATUS × List UInt8) (h : Heap) :
    (∀ l : List ADDRINFOA, Owned l h →
      (Releases (kspUtilAddrInfoToAddrInfoEx A ansiToUnicode) kspUtilFreeAddrInfoEx l h ↔
        match (toAddrInfoEx ansiToUnicode).failsAt A l h with
        | none => l ≠ []
        | some k => k = 0)) ∧
    ∀ l : List ADDRINFOEXW, Releases (kspUtilAddrInfoExToAddrInfo A unicodeToAnsi) kspUtilFreeAddrInfo l h ↔
      match (toAddrInfo unicodeToAnsi).failsAt A l h with
      | none => l ≠ []
      | some k => ∀ a ∈ l.take k, a.ai_canonname ≠ none :=
  ⟨fun _ howned => toAddrInfoEx_releases_iff ansiToUnicode howned, fun l => toAddrInfo_releases_iff unicodeToAnsi l h⟩

/-- A list of the caller's: a record with a name and one without. -/
def callersList : List ADDRINFOA :=
  [⟨1, 0, 2, 1, 6, 16, some ⟨2, [104]⟩, none⟩, ⟨3, 0, 2, 1, 6, 16, none, none⟩]

/-- The heap has nothing but the caller's list. -/
def callersHeap : Heap := ⟨{1, 2, 3}, 0⟩

/-- Strings are converted character by character. -/
def widen (_ : Nat) (text : List UInt8) : NTSTATUS × List UInt16 := (STATUS_SUCCESS, text.map UInt8.toUInt16)

theorem callersList_owned : Owned callersList callersHeap := by
  unfold Owned
  decide

theorem callersList_released :
    Releases (kspUtilAddrInfoToAddrInfoEx .next widen) kspUtilFreeAddrInfoEx callersList callersHeap := by
  have hnone : (toAddrInfoEx widen).failsAt .next callersList callersHeap = none := by decide +kernel
  refine ((conversions_release_iff .next widen (fun _ _ => (STATUS_SUCCESS, [])) callersHeap).1 callersList
    callersList_owned).2 ?_
  rw [hnone]
  exact List.cons_ne_nil _ _

/-- The first two requests succeed, and no other. -/
def twice : Allocator := ⟨fun n live => if n < 2 then some (nextBlock live) else none⟩

/-- The second record gets no memory. The caller's name, block 2, has been
freed, and the converted one, block 5, has not. -/
theorem callers_name_freed :
    (kspUtilAddrInfoToAddrInfoEx twice widen callersList callersHeap).map (fun r => (r.1, r.2.2.live)) =
        some (STATUS_INSUFFICIENT_RESOURCES, {1, 3, 5}) ∧
      ¬Releases (kspUtilAddrInfoToAddrInfoEx twice widen) kspUtilFreeAddrInfoEx callersList callersHeap := by
  have hrun : (kspUtilAddrInfoToAddrInfoEx twice widen callersList callersHeap).map (fun r => (r.1, r.2.2.live)) =
      some (STATUS_INSUFFICIENT_RESOURCES, {1, 3, 5}) := by decide +kernel
  refine ⟨hrun, ?_⟩
  rintro ⟨Status, o, h', hlist, -, hkept⟩
  rw [hlist, Option.map_some, Option.some.injEq, Prod.mk.injEq] at hrun
  obtain ⟨rfl, hlive⟩ := hrun
  rw [hkept ntSuccess_insufficient] at hlive
  revert hlive
  decide

end KSock
