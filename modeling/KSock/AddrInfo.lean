import KSock.Lib.Heap
import KSock.Wsk
/-!
# Converting and freeing address lists

The two conversions of `berkeley.c` and the two functions that free a list.
The conversions are one recursion over the list but for the string that is
released when a later record fails: the converted name in one of them, the
caller's own name in the other.

A function has no result where the code would free a block that is not live,
free a string it has not initialised or follow a NULL pointer.
-/
open KSockLib

namespace KSock

variable {R S C D : Type}

def STATUS_NO_MEMORY : NTSTATUS := 0xC0000017

@[simp] theorem ntSuccess_noMemory : ntSuccess STATUS_NO_MEMORY = false := by decide

/-- `RtlAnsiStringToUnicodeString` and its inverse, which allocate the buffer of
the result. `convert` says what becomes of the text in the `n`-th request. -/
def rtlConvert (A : Allocator) (convert : (n : Nat) → List C → NTSTATUS × List D) (text : List C) (h : Heap) :
    NTSTATUS × Option (Str D) × Heap :=
  let c := convert h.requests text
  if ntSuccess c.1 then
    match h.alloc A with
    | (none, h) => (STATUS_NO_MEMORY, none, h)
    | (some p, h) => (c.1, some ⟨p, c.2⟩, h)
  else (c.1, none, { h with requests := h.requests + 1 })

/-- The same for a name that may be NULL. -/
def convertName (A : Allocator) (convert : (n : Nat) → List C → NTSTATUS × List D) (name : Option (List C))
    (h : Heap) : NTSTATUS × Option (Str D) × Heap :=
  match name with
  | none => (STATUS_SUCCESS, none, h)
  | some text => rtlConvert A convert text h

/-- What the two conversions differ in. `error3` is the buffer that is freed at
`Error3`, if its string is initialised. -/
structure Conversion (R S C D : Type) where
  fields : R → AddrInfo C
  result : S → AddrInfo D
  record : AddrInfo D → S
  result_record : ∀ a, result (record a) = a
  convert : (n : Nat) → List C → NTSTATUS × List D
  error3 : (source : Option (Str C)) → (made : Option (Str D)) → Option Nat

/-- The new list is returned through the out-parameter, which a failure leaves
unset. -/
def Conversion.list (K : Conversion R S C D) (A : Allocator) :
    List R → Heap → Option (NTSTATUS × Option (List S) × Heap)
  | [], h => some (STATUS_SUCCESS, some [], h)
  | r :: rest, h =>
    let a := K.fields r
    match h.alloc A with
    | (none, h) => some (STATUS_INSUFFICIENT_RESOURCES, none, h)
    | (some p, h) => do
      let (Status, name, h) := convertName A K.convert (a.ai_canonname.map Str.text) h
      if !ntSuccess Status then
        -- Error2
        let h ← h.free p
        return (Status, none, h)
      let (Status, next, h) ← K.list A rest h
      if !ntSuccess Status then
        -- Error3, and on to Error2
        let Buffer ← K.error3 a.ai_canonname name
        let h ← h.free Buffer
        let h ← h.free p
        return (Status, none, h)
      let next ← next
      let result := ⟨p, a.ai_flags, a.ai_family, a.ai_socktype, a.ai_protocol, a.ai_addrlen, name, a.ai_addr⟩
      return (Status, some (K.record result :: next), h)

/-- A name is freed if it is not NULL. -/
def freeName (name : Option (Str C)) (h : Heap) : Option Heap :=
  match name with
  | none => some h
  | some name => h.free name.Buffer

/-- Frees a list from its end. -/
def freeList (fields : R → AddrInfo C) : List R → Heap → Option Heap
  | [], _ => none
  | r :: rest, h => do
    let h ← (if rest.isEmpty then some h else freeList fields rest h)
    let h ← freeName (fields r).ai_canonname h
    h.free (fields r).block

/-! ## The functions -/

/-- At `Error3` the string that is freed is `CanonicalNameAnsi`, which is the caller's. -/
def toAddrInfoEx (ansiToUnicode : (n : Nat) → List UInt8 → NTSTATUS × List UInt16) :
    Conversion ADDRINFOA ADDRINFOEXW UInt8 UInt16 where
  fields a := a
  result a := a.toAddrInfo
  record a := ⟨a, none, 0, none⟩
  result_record _ := rfl
  convert := ansiToUnicode
  error3 source _ := source.map Str.Buffer

/-- Here `CanonicalNameAnsi` is the converted name. -/
def toAddrInfo (unicodeToAnsi : (n : Nat) → List UInt16 → NTSTATUS × List UInt8) :
    Conversion ADDRINFOEXW ADDRINFOA UInt16 UInt8 where
  fields a := a.toAddrInfo
  result a := a
  record a := a
  result_record _ := rfl
  convert := unicodeToAnsi
  error3 _ made := made.map Str.Buffer

def kspUtilAddrInfoToAddrInfoEx (A : Allocator) (ansiToUnicode : (n : Nat) → List UInt8 → NTSTATUS × List UInt16)
    (AddrInfo : List ADDRINFOA) (h : Heap) : Option (NTSTATUS × Option (List ADDRINFOEXW) × Heap) :=
  (toAddrInfoEx ansiToUnicode).list A AddrInfo h

def kspUtilAddrInfoExToAddrInfo (A : Allocator) (unicodeToAnsi : (n : Nat) → List UInt16 → NTSTATUS × List UInt8)
    (AddrInfoEx : List ADDRINFOEXW) (h : Heap) : Option (NTSTATUS × Option (List ADDRINFOA) × Heap) :=
  (toAddrInfo unicodeToAnsi).list A AddrInfoEx h

def kspUtilFreeAddrInfo (AddrInfo : List ADDRINFOA) (h : Heap) : Option Heap := freeList (fun a => a) AddrInfo h

def kspUtilFreeAddrInfoEx (AddrInfo : List ADDRINFOEXW) (h : Heap) : Option Heap :=
  freeList ADDRINFOEXW.toAddrInfo AddrInfo h

/-! ## What a conversion does -/

/-- The blocks of a list that are freed with it. -/
def ownBlocks (fields : R → AddrInfo C) (l : List R) : List Nat := l.flatMap fun r => (fields r).own

variable {K : Conversion R S C D} {A : Allocator} {l rest : List R} {r : R} {h h' : Heap} {Status : NTSTATUS}
  {o : Option (List S)}

/-- A name is converted, with a new block if it is not NULL, or nothing changes. -/
theorem convertName_cases {convert : (n : Nat) → List C → NTSTATUS × List D} {name : Option (List C)}
    {made : Option (Str D)} (hc : convertName A convert name h = (Status, made, h')) :
    (ntSuccess Status = true ∧ made.isSome = name.isSome ∧ h.Grows (made.map Str.Buffer).toList h') ∨
      (ntSuccess Status = false ∧ h'.live = h.live) := by
  cases name with
  | none =>
    cases hc
    exact .inl ⟨ntSuccess_success, rfl, .of_live rfl⟩
  | some text =>
    simp only [convertName, rtlConvert] at hc
    cases hok : ntSuccess (convert h.requests text).1 with
    | false =>
      simp only [hok, Bool.false_eq_true, if_false] at hc
      cases hc
      exact .inr ⟨hok, rfl⟩
    | true =>
      rcases ha : h.alloc A with ⟨_ | p, h₁⟩ <;> simp only [hok, if_true, ha] at hc <;> cases hc
      · exact .inr ⟨ntSuccess_noMemory, Heap.alloc_none ha⟩
      · exact .inl ⟨hok, rfl, .alloc ha⟩

/-- How the conversion of a record and the rest of its list goes. -/
inductive Conversion.Step (K : Conversion R S C D) (A : Allocator) (r : R) (rest : List R) (h : Heap) :
    NTSTATUS → Option (List S) → Heap → Prop where
  | error1 {h' : Heap} (noRecord : h.alloc A = (none, h')) : Step K A r rest h STATUS_INSUFFICIENT_RESOURCES none h'
  | error2 {p : Nat} {Status : NTSTATUS} {made : Option (Str D)} {h₁ h₂ h' : Heap} (record : h.alloc A = (some p, h₁))
      (noName : convertName A K.convert ((K.fields r).ai_canonname.map Str.text) h₁ = (Status, made, h₂))
      (failed : ntSuccess Status = false) (free : h₂.free p = some h') : Step K A r rest h Status none h'
  | error3 {p Buffer : Nat} {Status₁ Status : NTSTATUS} {made : Option (Str D)} {next : Option (List S)}
      {h₁ h₂ h₃ h₄ h' : Heap} (record : h.alloc A = (some p, h₁))
      (name : convertName A K.convert ((K.fields r).ai_canonname.map Str.text) h₁ = (Status₁, made, h₂))
      (named : ntSuccess Status₁ = true) (noNext : K.list A rest h₂ = some (Status, next, h₃))
      (failed : ntSuccess Status = false) (string : K.error3 (K.fields r).ai_canonname made = some Buffer)
      (freeString : h₃.free Buffer = some h₄) (free : h₄.free p = some h') : Step K A r rest h Status none h'
  | converted {p : Nat} {Status₁ Status : NTSTATUS} {made : Option (Str D)} {next : List S} {h₁ h₂ h' : Heap}
      (record : h.alloc A = (some p, h₁))
      (name : convertName A K.convert ((K.fields r).ai_canonname.map Str.text) h₁ = (Status₁, made, h₂))
      (named : ntSuccess Status₁ = true) (converts : K.list A rest h₂ = some (Status, some next, h'))
      (succeeded : ntSuccess Status = true) :
      Step K A r rest h Status (some (K.record { (K.fields r) with block := p, ai_canonname := made } :: next)) h'

theorem Conversion.step_of_list (hl : K.list A (r :: rest) h = some (Status, o, h')) :
    K.Step A r rest h Status o h' := by
  unfold Conversion.list at hl
  rcases ha : h.alloc A with ⟨_ | p, h₁⟩
  · simp only [ha, Option.some.injEq, Prod.mk.injEq] at hl
    obtain ⟨rfl, rfl, rfl⟩ := hl
    exact .error1 ha
  simp only [ha] at hl
  rcases hn : convertName A K.convert ((K.fields r).ai_canonname.map Str.text) h₁ with ⟨Status₁, made, h₂⟩
  simp only [hn] at hl
  cases hok₁ : ntSuccess Status₁ with
  | false =>
    simp only [hok₁, Bool.not_false, if_true] at hl
    obtain ⟨h₃, hfree, hl⟩ := Option.bind_eq_some_iff.1 hl
    obtain ⟨rfl, rfl, rfl⟩ : _ ∧ _ ∧ _ := by simpa using hl
    exact .error2 ha hn hok₁ hfree
  | true =>
    simp only [hok₁, Bool.not_true, Bool.false_eq_true, if_false] at hl
    obtain ⟨⟨Status₂, next, h₃⟩, hnext, hl⟩ := Option.bind_eq_some_iff.1 hl
    cases hok₂ : ntSuccess Status₂ with
    | false =>
      simp only [hok₂, Bool.not_false, if_true] at hl
      obtain ⟨Buffer, hstring, hl⟩ := Option.bind_eq_some_iff.1 hl
      obtain ⟨h₄, hfree₁, hl⟩ := Option.bind_eq_some_iff.1 hl
      obtain ⟨h₅, hfree₂, hl⟩ := Option.bind_eq_some_iff.1 hl
      obtain ⟨rfl, rfl, rfl⟩ : _ ∧ _ ∧ _ := by simpa using hl
      exact .error3 ha hn hok₁ hnext hok₂ hstring hfree₁ hfree₂
    | true =>
      simp only [hok₂, Bool.not_true, Bool.false_eq_true, if_false] at hl
      obtain ⟨next', rfl, hl⟩ := Option.bind_eq_some_iff.1 hl
      obtain ⟨rfl, rfl, rfl⟩ : _ ∧ _ ∧ _ := by simpa using hl
      exact .converted ha hn hok₁ hnext hok₂

/-- A conversion that succeeds has made a record, then a name if there is one, then the rest. -/
theorem Conversion.list_cons_success (hl : K.list A (r :: rest) h = some (Status, o, h'))
    (hok : ntSuccess Status = true) :
    ∃ p Status₁ made h₁ h₂ next, h.alloc A = (some p, h₁) ∧
      convertName A K.convert ((K.fields r).ai_canonname.map Str.text) h₁ = (Status₁, made, h₂) ∧
      ntSuccess Status₁ = true ∧ K.list A rest h₂ = some (Status, some next, h') ∧
      o = some (K.record { (K.fields r) with block := p, ai_canonname := made } :: next) := by
  cases step_of_list hl with
  | error1 => simp at hok
  | error2 _ _ hfailed => simp [hfailed] at hok
  | error3 _ _ _ _ hfailed => simp [hfailed] at hok
  | converted hrecord hname hnamed hnext => exact ⟨_, _, _, _, _, _, hrecord, hname, hnamed, hnext, rfl⟩

/-- A conversion that succeeds has allocated the blocks of its result, and
copied the pointers to the addresses. -/
theorem Conversion.list_success (hl : K.list A l h = some (Status, o, h')) (hok : ntSuccess Status = true) :
    ∃ l', o = some l' ∧ h.Grows (ownBlocks K.result l') h' ∧
      l'.map (fun s => (K.result s).ai_addr) = l.map fun r => (K.fields r).ai_addr := by
  induction l generalizing h h' o with
  | nil =>
    cases hl
    exact ⟨[], rfl, .of_live rfl, rfl⟩
  | cons r rest ih =>
    obtain ⟨p, Status₁, made, h₁, h₂, next, hrecord, hname, hnamed, hnext, rfl⟩ := list_cons_success hl hok
    obtain ⟨l', hl', hgrows, haddr⟩ := ih hnext
    obtain rfl := Option.some.inj hl'
    rcases convertName_cases hname with ⟨-, -, hmade⟩ | ⟨hfailed, -⟩
    · refine ⟨_, rfl, ?_, by simp [K.result_record, haddr]⟩
      simpa [ownBlocks, AddrInfo.own, K.result_record] using ((Heap.Grows.alloc hrecord).append hmade).append hgrows
    · simp [hfailed] at hnamed

/-- A conversion that fails leaves the live blocks live, but for those that
`Error3` frees and the conversion has not made. -/
theorem Conversion.list_failure (hl : K.list A l h = some (Status, o, h')) (hfail : ntSuccess Status = false)
    {p : Nat} (hp : p ∈ h.live)
    (hkept : ∀ r ∈ l, ∀ made, K.error3 (K.fields r).ai_canonname made = some p → made.map Str.Buffer = some p) :
    p ∈ h'.live := by
  induction l generalizing h h' o Status with
  | nil =>
    cases hl
    simp at hfail
  | cons r rest ih =>
    cases step_of_list hl with
    | error1 hrecord => exact (Heap.alloc_none hrecord).symm ▸ hp
    | @error2 q _ made h₁ h₂ _ hrecord hname _ hfree =>
      have hq := Heap.Grows.alloc hrecord
      have hpq : p ≠ q := fun he => hq.fresh q (by simp) (he ▸ hp)
      rcases convertName_cases hname with ⟨hok, -, -⟩ | ⟨-, hlive⟩
      · simp [hfail] at hok
      · rw [Heap.mem_free hfree, hlive, hq.live]
        exact ⟨.inl hp, hpq⟩
    | @error3 q Buffer _ _ made _ h₁ h₂ h₃ h₄ _ hrecord hname hnamed hrest _ hstring hfreeString hfree =>
      have hq := Heap.Grows.alloc hrecord
      have hpq : p ≠ q := fun he => hq.fresh q (by simp) (he ▸ hp)
      have hp₁ : p ∈ h₁.live := (hq.live p).2 (.inl hp)
      rcases convertName_cases hname with ⟨-, -, hmade⟩ | ⟨hbad, -⟩
      · have hp₃ : p ∈ h₃.live := ih hrest hfail ((hmade.live p).2 (.inl hp₁)) fun r' hr' => hkept r' (by simp [hr'])
        -- the converted name is in a new block, so it is not `p`
        have hpb : p ≠ Buffer := by
          rintro rfl
          have hbuffer := hkept r (by simp) made hstring
          exact hmade.fresh p (by simp [hbuffer]) hp₁
        rw [Heap.mem_free hfree, Heap.mem_free hfreeString]
        exact ⟨⟨hp₃, hpb⟩, hpq⟩
      · simp [hnamed] at hbad
    | converted _ _ _ _ hok => simp [hfail] at hok

/-- A list is freed with all the blocks that are its own. -/
theorem freeList_some {fields : R → AddrInfo C} (hf : freeList fields l h = some h') :
    ∀ p, p ∈ h'.live ↔ p ∈ h.live ∧ p ∉ ownBlocks fields l := by
  induction l generalizing h h' with
  | nil => cases hf
  | cons r rest ih =>
    obtain ⟨h₁, hrest, hf⟩ := Option.bind_eq_some_iff.1 hf
    obtain ⟨h₂, hname, hf⟩ := Option.bind_eq_some_iff.1 hf
    have hshrinks₁ : ∀ p, p ∈ h₁.live ↔ p ∈ h.live ∧ p ∉ ownBlocks fields rest := by
      cases rest with
      | nil =>
        obtain rfl := Option.some.inj hrest
        simp [ownBlocks]
      | cons r' rest => exact ih hrest
    have hshrinks₂ : ∀ p, p ∈ h₂.live ↔ p ∈ h₁.live ∧ p ∉ ((fields r).ai_canonname.map Str.Buffer).toList := by
      cases hc : (fields r).ai_canonname with
      | none =>
        rw [hc] at hname
        obtain rfl := Option.some.inj hname
        simp
      | some name =>
        rw [hc] at hname
        simpa using Heap.mem_free hname
    intro p
    rw [Heap.mem_free hf, hshrinks₂, hshrinks₁]
    simp only [ownBlocks, List.flatMap_cons, AddrInfo.own, List.mem_append, List.mem_cons]
    tauto

end KSock
