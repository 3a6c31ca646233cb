import KSock.Conversions
import Mathlib.Data.List.Forall2
/-!
# What the conversions make

A conversion that succeeds makes a record for each record of its list, in
order, with a converted name for a name and NULL for NULL. Converting back what
was converted gives a list that says what the first one says, in other blocks,
if the one conversion of strings undoes the other on the names of the list.
-/
open KSockLib

namespace KSock

variable {R S C D E : Type} {K : Conversion R S C D} {A : Allocator} {l rest : List R} {r : R} {h h' : Heap}
  {Status : NTSTATUS}

/-! ## Attempts -/

/-- How each allocation and string conversion goes that a conversion attempts. -/
def Conversion.attempts (K : Conversion R S C D) (A : Allocator) : List R → Heap → List Bool
  | [], _ => []
  | r :: rest, h =>
    let name := (K.fields r).ai_canonname.map Str.text
    match h.alloc A with
    | (none, _) => [false]
    | (some _, h) =>
      let (Status, _, h) := convertName A K.convert name h
      let converted := name.toList.map fun _ => ntSuccess Status
      true :: converted ++ if ntSuccess Status then K.attempts A rest h else []

/-- No record fails exactly if all attempts succeed. -/
theorem Conversion.failsAt_none_iff (l : List R) (h : Heap) :
    K.failsAt A l h = none ↔ ∀ ok ∈ K.attempts A l h, ok = true := by
  induction l generalizing h with
  | nil => simp [failsAt, attempts]
  | cons r rest ih =>
    unfold failsAt attempts
    rcases h.alloc A with ⟨_ | p, h₁⟩
    · simp
    rcases hname : convertName A K.convert ((K.fields r).ai_canonname.map Str.text) h₁ with ⟨Status, made, h₂⟩
    cases hok : ntSuccess Status with
    | true =>
      simp only [hname, hok, if_true, Option.map_eq_none_iff, ih]
      simp
    | false =>
      -- NULL is not converted, which cannot fail
      have hsome : (K.fields r).ai_canonname ≠ none := by
        intro hnone
        rw [hnone] at hname
        cases hname
        simp at hok
      obtain ⟨name, hsome⟩ := Option.ne_none_iff_exists'.1 hsome
      simp only [hname, hok]
      simp [hsome]

/-- A conversion succeeds exactly if all it attempts does. -/
theorem Conversion.list_succeeds_iff (l : List R) (h : Heap) :
    (∃ Status l' h', K.list A l h = some (Status, some l', h') ∧ ntSuccess Status = true) ↔
      ∀ ok ∈ K.attempts A l h, ok = true := by
  rw [← failsAt_none_iff]
  constructor
  · rintro ⟨Status, l', h', hlist, hok⟩
    cases hfails : K.failsAt A l h with
    | none => rfl
    | some k =>
      rw [list_fails hfails hlist] at hok
      cases hok
  · intro hnone
    obtain ⟨Status, o, h', hlist, hok⟩ := list_of_failsAt_none hnone
    obtain ⟨l', rfl, -⟩ := list_success hlist hok
    exact ⟨Status, l', h', hlist, hok⟩

/-! ## Records -/

/-- One of the requests converts a text to the other. -/
def Converts (convert : (n : Nat) → List C → NTSTATUS × List D) (text : List C) (converted : List D) : Prop :=
  ∃ n, ntSuccess (convert n text).1 = true ∧ (convert n text).2 = converted

/-- Two records agree but for their blocks, where names agree if both are NULL or
their texts are related. -/
structure Agrees (names : List C → List D → Prop) (a : AddrInfo C) (b : AddrInfo D) : Prop where
  ai_flags : b.ai_flags = a.ai_flags
  ai_family : b.ai_family = a.ai_family
  ai_socktype : b.ai_socktype = a.ai_socktype
  ai_protocol : b.ai_protocol = a.ai_protocol
  ai_addrlen : b.ai_addrlen = a.ai_addrlen
  ai_canonname : Option.Rel (fun s t => names s.text t.text) a.ai_canonname b.ai_canonname
  ai_addr : b.ai_addr = a.ai_addr

/-- A name that is not NULL is converted by one of the requests. -/
theorem convertName_text {convert : (n : Nat) → List C → NTSTATUS × List D} {name : Option (Str C)}
    {made : Option (Str D)} (hname : convertName A convert (name.map Str.text) h = (Status, made, h'))
    (hok : ntSuccess Status = true) :
    Option.Rel (fun s t => Converts convert s.text t.text) name made := by
  cases name with
  | none =>
    cases hname
    exact .none
  | some s =>
    unfold convertName rtlConvert at hname
    dsimp only [Option.map_some] at hname
    cases hconv : ntSuccess (convert h.requests s.text).1 with
    | false =>
      simp only [hconv, Bool.false_eq_true, if_false] at hname
      cases hname
      rw [hconv] at hok
      cases hok
    | true =>
      rcases halloc : h.alloc A with ⟨_ | p, h₁⟩
      · simp only [hconv, if_true, halloc] at hname
        cases hname
        simp at hok
      · simp only [hconv, if_true, halloc] at hname
        cases hname
        exact .some ⟨h.requests, hconv, rfl⟩

/-- The records of the result are made by the conversion and agree with the
records of the list, in order. -/
theorem Conversion.list_agrees {o : Option (List S)} (hlist : K.list A l h = some (Status, o, h'))
    (hok : ntSuccess Status = true) :
    ∃ l', o = some l' ∧ List.Forall₂ (fun r s =>
      ∃ b, s = K.record b ∧ Agrees (Converts K.convert) (K.fields r) b) l l' := by
  induction l generalizing h h' o with
  | nil =>
    cases hlist
    exact ⟨[], rfl, .nil⟩
  | cons r rest ih =>
    obtain ⟨p, Status₁, made, h₁, h₂, next, -, hname, hnamed, hnext, rfl⟩ := list_cons_success hlist hok
    obtain ⟨l', hl', hrest⟩ := ih hnext
    obtain rfl := Option.some.inj hl'
    have hnames := convertName_text hname hnamed
    refine ⟨_, rfl, .cons ⟨_, rfl, ?_⟩ hrest⟩
    constructor
    case ai_canonname => exact hnames
    all_goals rfl

/-! ## There and back -/

/-- Two relations one after the other, on values that may be missing. -/
theorem optionRel_trans {X Y Z : Type} {there : X → Y → Prop} {back : Y → Z → Prop} {both : X → Z → Prop}
    {x : Option X} {y : Option Y} {z : Option Z} (hxy : Option.Rel there x y) (hyz : Option.Rel back y z)
    (h : ∀ a ∈ x, ∀ b c, there a b → back b c → both a c) : Option.Rel both x z := by
  cases hxy with
  | none =>
    cases hyz
    exact .none
  | some hab =>
    cases hyz with
    | some hbc => exact .some (h _ rfl _ _ hab hbc)

theorem Agrees.trans {there : List C → List D → Prop} {back : List D → List E → Prop} {names : List C → List E → Prop}
    {a : AddrInfo C} {b : AddrInfo D} {c : AddrInfo E} (hthere : Agrees there a b) (hback : Agrees back b c)
    (hnames : ∀ name ∈ a.ai_canonname, ∀ t u, there name.text t → back t u → names name.text u) :
    Agrees names a c where
  ai_flags := hback.ai_flags.trans hthere.ai_flags
  ai_family := hback.ai_family.trans hthere.ai_family
  ai_socktype := hback.ai_socktype.trans hthere.ai_socktype
  ai_protocol := hback.ai_protocol.trans hthere.ai_protocol
  ai_addrlen := hback.ai_addrlen.trans hthere.ai_addrlen
  ai_canonname := by
    apply optionRel_trans hthere.ai_canonname hback.ai_canonname
    intro name hname t u ht hu
    exact hnames name hname t.text u.text ht hu
  ai_addr := hback.ai_addr.trans hthere.ai_addr

/-- The conversion from Unicode undoes the one to it on the names of a list. -/
def Undoes (unicodeToAnsi : (n : Nat) → List UInt16 → NTSTATUS × List UInt8)
    (ansiToUnicode : (n : Nat) → List UInt8 → NTSTATUS × List UInt16) (l : List ADDRINFOA) : Prop :=
  ∀ a ∈ l, ∀ name ∈ a.ai_canonname, ∀ wide narrow, Converts ansiToUnicode name.text wide →
    Converts unicodeToAnsi wide narrow → narrow = name.text

variable {ansiToUnicode : (n : Nat) → List UInt8 → NTSTATUS × List UInt16}
  {unicodeToAnsi : (n : Nat) → List UInt16 → NTSTATUS × List UInt8}

/-- What the conversion to Unicode makes of a record. -/
def ToEx (ansiToUnicode : (n : Nat) → List UInt8 → NTSTATUS × List UInt16) (a : ADDRINFOA) (b : ADDRINFOEXW) : Prop :=
  Agrees (Converts ansiToUnicode) a b.toAddrInfo ∧ b.ai_blob = none ∧ b.ai_bloblen = 0 ∧ b.ai_provider = none

theorem kspUtilAddrInfoToAddrInfoEx_agrees {l : List ADDRINFOA} {o : Option (List ADDRINFOEXW)}
    (hlist : kspUtilAddrInfoToAddrInfoEx A ansiToUnicode l h = some (Status, o, h'))
    (hok : ntSuccess Status = true) : ∃ l', o = some l' ∧ List.Forall₂ (ToEx ansiToUnicode) l l' := by
  obtain ⟨l', rfl, hrecords⟩ := Conversion.list_agrees hlist hok
  refine ⟨l', rfl, hrecords.imp ?_⟩
  rintro a _ ⟨b, rfl, hagrees⟩
  exact ⟨hagrees, rfl, rfl, rfl⟩

theorem kspUtilAddrInfoExToAddrInfo_agrees {l : List ADDRINFOEXW} {o : Option (List ADDRINFOA)}
    (hlist : kspUtilAddrInfoExToAddrInfo A unicodeToAnsi l h = some (Status, o, h')) (hok : ntSuccess Status = true) :
    ∃ l', o = some l' ∧
      List.Forall₂ (fun (a : ADDRINFOEXW) b => Agrees (Converts unicodeToAnsi) a.toAddrInfo b) l l' := by
  obtain ⟨l', rfl, hrecords⟩ := Conversion.list_agrees hlist hok
  refine ⟨l', rfl, hrecords.imp ?_⟩
  rintro a _ ⟨b, rfl, hagrees⟩
  exact hagrees

/-- What agrees with a converted list agrees with the list. -/
theorem there_and_back {l l₂ : List ADDRINFOA} {l₁ : List ADDRINFOEXW} (hundoes : Undoes unicodeToAnsi ansiToUnicode l)
    (hthere : List.Forall₂ (ToEx ansiToUnicode) l l₁)
    (hback : List.Forall₂ (fun (a : ADDRINFOEXW) b => Agrees (Converts unicodeToAnsi) a.toAddrInfo b) l₁ l₂) :
    List.Forall₂ (Agrees Eq) l l₂ := by
  induction hthere generalizing l₂ with
  | nil =>
    cases hback
    exact .nil
  | @cons a b l l₁ hab _ ih =>
    cases hback with
    | cons hbc hback =>
      unfold Undoes at hundoes
      rw [List.forall_mem_cons] at hundoes
      refine .cons (hab.1.trans hbc ?_) (ih hundoes.2 hback)
      intro name hname wide narrow hwide hnarrow
      exact (hundoes.1 name hname wide narrow hwide hnarrow).symm

/-- For every allocator and every converter of strings: either conversion
succeeds exactly if all allocations and string conversions it attempts do, and
then makes the records of its list anew, in order. Converting back, from any
heap, what was converted gives a list that agrees with the first. -/
theorem conversions_inverse (A : Allocator) (ansiToUnicode : (n : Nat) → List UInt8 → NTSTATUS × List UInt16)
    (unicodeToAnsi : (n : Nat) → List UInt16 → NTSTATUS × List UInt8) (h : Heap) :
    (∀ l : List ADDRINFOA,
      ((∃ Status l' h', kspUtilAddrInfoToAddrInfoEx A ansiToUnicode l h = some (Status, some l', h') ∧
          ntSuccess Status = true) ↔ ∀ ok ∈ (toAddrInfoEx ansiToUnicode).attempts A l h, ok = true) ∧
        ∀ Status o h', kspUtilAddrInfoToAddrInfoEx A ansiToUnicode l h = some (Status, o, h') →
          ntSuccess Status = true → ∃ l', o = some l' ∧ List.Forall₂ (ToEx ansiToUnicode) l l') ∧
    (∀ l : List ADDRINFOEXW,
      ((∃ Status l' h', kspUtilAddrInfoExToAddrInfo A unicodeToAnsi l h = some (Status, some l', h') ∧
          ntSuccess Status = true) ↔ ∀ ok ∈ (toAddrInfo unicodeToAnsi).attempts A l h, ok = true) ∧
        ∀ Status o h', kspUtilAddrInfoExToAddrInfo A unicodeToAnsi l h = some (Status, o, h') →
          ntSuccess Status = true → ∃ l', o = some l' ∧
            List.Forall₂ (fun (a : ADDRINFOEXW) b => Agrees (Converts unicodeToAnsi) a.toAddrInfo b) l l') ∧
    ∀ (l : List ADDRINFOA) (Status₁ : NTSTATUS) (l₁ : List ADDRINFOEXW) (h₁ : Heap) (B : Allocator) (h₂ : Heap)
      (Status₂ : NTSTATUS) (o : Option (List ADDRINFOA)) (h₃ : Heap), Undoes unicodeToAnsi ansiToUnicode l →
      kspUtilAddrInfoToAddrInfoEx A ansiToUnicode l h = some (Status₁, some l₁, h₁) → ntSuccess Status₁ = true →
      kspUtilAddrInfoExToAddrInfo B unicodeToAnsi l₁ h₂ = some (Status₂, o, h₃) → ntSuccess Status₂ = true →
      ∃ l₂, o = some l₂ ∧ List.Forall₂ (Agrees Eq) l l₂ := by
  refine ⟨fun l => ⟨Conversion.list_succeeds_iff l h, ?_⟩, fun l => ⟨Conversion.list_succeeds_iff l h, ?_⟩, ?_⟩
  · intro Status o h' hlist hok
    exact kspUtilAddrInfoToAddrInfoEx_agrees hlist hok
  · intro Status o h' hlist hok
    exact kspUtilAddrInfoExToAddrInfo_agrees hlist hok
  · intro l Status₁ l₁ h₁ B h₂ Status₂ o h₃ hundoes hthere hok₁ hback hok₂
    obtain ⟨l', hl', hrecords⟩ := kspUtilAddrInfoToAddrInfoEx_agrees hthere hok₁
    obtain rfl := Option.some.inj hl'
    obtain ⟨l₂, rfl, hrecords₂⟩ := kspUtilAddrInfoExToAddrInfo_agrees hback hok₂
    exact ⟨l₂, rfl, there_and_back hundoes hrecords hrecords₂⟩

/-- Strings are converted back character by character. -/
def narrow (_ : Nat) (text : List UInt16) : NTSTATUS × List UInt8 := (STATUS_SUCCESS, text.map UInt16.toUInt8)

theorem narrow_undoes_widen (l : List ADDRINFOA) : Undoes narrow widen l := by
  rintro a - name - _ _ ⟨n, -, rfl⟩ ⟨m, -, rfl⟩
  dsimp only [narrow, widen]
  rw [List.map_map]
  calc name.text.map (UInt16.toUInt8 ∘ UInt8.toUInt16) = name.text.map id := by
        apply List.map_congr_left
        intro c _
        exact UInt8.toUInt8_toUInt16 c
    _ = name.text := List.map_id _

/-- What is made of `callersList`, and of that in turn. -/
def convertedList : List ADDRINFOEXW :=
  [⟨⟨4, 0, 2, 1, 6, 16, some ⟨5, [104]⟩, none⟩, none, 0, none⟩, ⟨⟨6, 0, 2, 1, 6, 16, none, none⟩, none, 0, none⟩]

def convertedBack : List ADDRINFOA :=
  [⟨7, 0, 2, 1, 6, 16, some ⟨8, [104]⟩, none⟩, ⟨9, 0, 2, 1, 6, 16, none, none⟩]

theorem callersList_and_back :
    ∃ h₁ h₂, kspUtilAddrInfoToAddrInfoEx .next widen callersList callersHeap =
        some (STATUS_SUCCESS, some convertedList, h₁) ∧
      kspUtilAddrInfoExToAddrInfo .next narrow convertedList h₁ = some (STATUS_SUCCESS, some convertedBack, h₂) ∧
      List.Forall₂ (Agrees Eq) callersList convertedBack := by
  obtain ⟨h₁, hh₁⟩ : ∃ h : Heap, h = ⟨{6, 5, 4, 1, 2, 3}, 3⟩ := ⟨_, rfl⟩
  have hthere : kspUtilAddrInfoToAddrInfoEx .next widen callersList callersHeap =
      some (STATUS_SUCCESS, some convertedList, h₁) := by
    rw [hh₁]
    rfl
  obtain ⟨h₂, hback⟩ : ∃ h₂, kspUtilAddrInfoExToAddrInfo .next narrow convertedList h₁ =
      some (STATUS_SUCCESS, some convertedBack, h₂) := by
    rw [hh₁]
    exact ⟨⟨{9, 8, 7, 6, 5, 4, 1, 2, 3}, 6⟩, rfl⟩
  obtain ⟨l₂, hl₂, hagrees⟩ := (conversions_inverse .next widen narrow callersHeap).2.2 _ _ _ _ _ _ _ _ _
    (narrow_undoes_widen callersList) hthere ntSuccess_success hback ntSuccess_success
  obtain rfl := Option.some.inj hl₂
  exact ⟨h₁, h₂, hthere, hback, hagrees⟩

end KSock
