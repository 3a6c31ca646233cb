import KSock.AddressLists
import KSock.Conversions
/-!
# What `getaddrinfo` leaves behind

`getaddrinfo` frees what it has acquired through two labels, and its success
returns before them. Here it is taken with any two conversions that are all or
nothing. What it leaves then depends on which of its five steps fails and on
which arguments are NULL.
-/
open KSockLib

namespace KSock

variable {R S C D : Type}

/-- A conversion makes a list in new blocks, or fails with the live blocks as
they were. Only an empty list is converted to an empty list. -/
def AllOrNothing (fields : S → AddrInfo D) (convert : List R → Heap → Option (NTSTATUS × Option (List S) × Heap))
    (l : List R) : Prop :=
  ∀ h, ∃ Status o h', convert l h = some (Status, o, h') ∧
    (ntSuccess Status = true → ∃ l', o = some l' ∧ (l' = [] ↔ l = []) ∧ h.Grows (ownBlocks fields l') h') ∧
    (ntSuccess Status = false → h'.live = h.live)

/-- The two conversions that `getaddrinfo` calls. -/
structure Converters where
  kspUtilAddrInfoToAddrInfoEx : List ADDRINFOA → Heap → Option (NTSTATUS × Option (List ADDRINFOEXW) × Heap)
  kspUtilAddrInfoExToAddrInfo : List ADDRINFOEXW → Heap → Option (NTSTATUS × Option (List ADDRINFOA) × Heap)

/-- The library's own. -/
def Converters.ofEnv (N : NameEnv) : Converters where
  kspUtilAddrInfoToAddrInfoEx := KSock.kspUtilAddrInfoToAddrInfoEx N.pool N.ansiToUnicode
  kspUtilAddrInfoExToAddrInfo := KSock.kspUtilAddrInfoExToAddrInfo N.pool N.unicodeToAnsi

namespace Converters

def returnResult (c : Converters) (w : World) (NodeName ServiceName : Option (Str UInt16))
    (Result : List ADDRINFOEXW) : Option Resolved := do
  let (Status, res, pool) ← c.kspUtilAddrInfoExToAddrInfo Result w.pool
  let w := Ks.ksFreeAddrInfo { w with pool := pool } Result
  if !ntSuccess Status then Bsd.error3 Status NodeName ServiceName (some Result) w else
  return ⟨STATUS_SUCCESS, res, some Result, w⟩

def resolve (c : Converters) (N : NameEnv) (w : World) (NodeName ServiceName : Option (Str UInt16))
    (hints : List ADDRINFOA) : Option Resolved := do
  let (Status, Hints, pool) ← c.kspUtilAddrInfoToAddrInfoEx hints w.pool
  let w := { w with pool := pool }
  if !ntSuccess Status then Bsd.error3 Status NodeName ServiceName none w else
  let Hints ← Hints
  let (Status, Result, w) ← Ks.ksGetAddrInfo N w NodeName ServiceName Hints
  let pool ← kspUtilFreeAddrInfoEx Hints w.pool
  let w := { w with pool := pool }
  if !ntSuccess Status then Bsd.error3 Status NodeName ServiceName none w else
  let Result ← Result
  c.returnResult w NodeName ServiceName Result

/-- `getaddrinfo` with these conversions. -/
def getaddrinfo (c : Converters) (N : NameEnv) (w : World) (node service : Option (List UInt8))
    (hints : List ADDRINFOA) : Option Resolved :=
  let (Status, NodeName, pool) := convertName N.pool N.ansiToUnicode node w.pool
  let w := { w with pool := pool }
  if !ntSuccess Status then some ⟨Status, none, none, w⟩ else
  let (Status, ServiceName, pool) := convertName N.pool N.ansiToUnicode service w.pool
  let w := { w with pool := pool }
  if !ntSuccess Status then Bsd.error2 Status NodeName none w else
  c.resolve N w NodeName ServiceName hints

theorem getaddrinfo_ofEnv (N : NameEnv) : (ofEnv N).getaddrinfo N = Bsd.getaddrinfo N := rfl

end Converters

/-! ## Where a call fails -/

/-- The steps of `getaddrinfo` that can fail. -/
inductive Stage where
  | node
  | service
  | hints
  | resolver
  | result
  deriving DecidableEq, Repr

/-- What follows a step, unless that fails. -/
def Stage.andThen {α β : Type} (stage : Stage) (step : Option (NTSTATUS × Option α × β))
    (next : α → β → Option Stage) : Option Stage :=
  match step with
  | some (Status, some a, b) => if ntSuccess Status then next a b else some stage
  | _ => some stage

section

variable {α β : Type} {stage : Stage} {Status : NTSTATUS} {next : α → β → Option Stage} {b : β}

theorem Stage.andThen_failed {o : Option α} (hfail : ntSuccess Status = false) :
    stage.andThen (some (Status, o, b)) next = some stage := by
  cases o with
  | none => rfl
  | some a => simp [Stage.andThen, hfail]

theorem Stage.andThen_succeeded {a : α} (hok : ntSuccess Status = true) :
    stage.andThen (some (Status, some a, b)) next = next a b := if_pos hok

theorem Stage.mem_andThen {step : Option (NTSTATUS × Option α × β)} {s : Stage}
    (h : stage.andThen step next = some s) : s = stage ∨ ∃ a b, next a b = some s := by
  unfold Stage.andThen at h
  split at h
  · split at h
    · exact .inr ⟨_, _, h⟩
    · exact .inl (Option.some.inj h).symm
  · exact .inl (Option.some.inj h).symm

end

namespace Converters

/-- The step that fails, of those after the names. -/
def failsLater (c : Converters) (N : NameEnv) (w : World) (NodeName ServiceName : Option (Str UInt16))
    (hints : List ADDRINFOA) : Option Stage :=
  Stage.hints.andThen (c.kspUtilAddrInfoToAddrInfoEx hints w.pool) fun Hints pool =>
    Stage.resolver.andThen (Ks.ksGetAddrInfo N { w with pool := pool } NodeName ServiceName Hints) fun Result w =>
      Stage.result.andThen (c.kspUtilAddrInfoExToAddrInfo Result ((kspUtilFreeAddrInfoEx Hints w.pool).getD w.pool))
        fun _ _ => none

/-- The step that fails, if one does. -/
def failsAt (c : Converters) (N : NameEnv) (w : World) (node service : Option (List UInt8)) (hints : List ADDRINFOA) :
    Option Stage :=
  let a := convertName N.pool N.ansiToUnicode node w.pool
  let b := convertName N.pool N.ansiToUnicode service a.2.2
  if !ntSuccess a.1 then some .node
  else if !ntSuccess b.1 then some .service
  else c.failsLater N { w with pool := b.2.2 } a.2.1 b.2.1 hints

end Converters

/-- A call returns, and all blocks live at the end that were not before are
those of the list it returns, or none if it fails. -/
def Tidy (w : World) (call : Option Resolved) : Prop :=
  ∃ r, call = some r ∧
    (ntSuccess r.Status = true → ∃ res, r.res = some res ∧ w.pool.Grows (ownBlocks (fun a => a) res) r.world.pool) ∧
    (ntSuccess r.Status = false → r.world.pool.live = w.pool.live)

/-- The arguments that a call with the given failure has to have. -/
def Spared (node service : Option (List UInt8)) (hints : List ADDRINFOA) : Option Stage → Prop
  | some .node => True
  | some .service => node ≠ none
  | some .hints => node ≠ none ∧ service ≠ none
  | some .resolver | some .result => hints ≠ [] ∧ node ≠ none ∧ service ≠ none
  | none => hints ≠ [] ∧ node = none ∧ service = none

instance (node service : Option (List UInt8)) (hints : List ADDRINFOA) :
    (stage : Option Stage) → Decidable (Spared node service hints stage)
  | some .node => inferInstanceAs (Decidable True)
  | some .service => inferInstanceAs (Decidable (_ ≠ _))
  | some .hints | some .resolver | some .result | none => inferInstanceAs (Decidable (_ ∧ _))

/-! ## The error labels -/

variable {w w' : World} {NodeName ServiceName : Option (Str UInt16)} {Status : NTSTATUS}
  {o : Option (List ADDRINFOEXW)} {pool : Heap}

/-- At `Error2` only a name is left to free, and there must be one. -/
theorem tidy_error2 (hgrows : w.pool.Grows (NodeName.map Str.Buffer).toList w'.pool)
    (hfail : ntSuccess Status = false) : Tidy w (Bsd.error2 Status NodeName o w') ↔ NodeName ≠ none := by
  cases NodeName with
  | none =>
    apply iff_of_false
    · rintro ⟨r, hcall, -⟩
      cases hcall
    · intro hne
      exact hne rfl
  | some name =>
    refine iff_of_true ?_ (Option.some_ne_none name)
    have hlive : name.Buffer ∈ w'.pool.live := (hgrows.live _).2 (.inr (by simp))
    have hfree := Heap.free_live hlive
    refine ⟨⟨Status, none, o, { w' with pool := { w'.pool with live := w'.pool.live.erase name.Buffer } }⟩, ?_, ?_, ?_⟩
    · simp [Bsd.error2, hfree]
    · intro hok
      simp [hfail] at hok
    · intro _
      exact (@Heap.Grows.free_last w.pool name.Buffer [] _ _ hgrows hfree).live_eq

/-- At `Error3` there must be both. -/
theorem tidy_error3 (hgrows : w.pool.Grows (nameBlocks NodeName ServiceName) w'.pool)
    (hfail : ntSuccess Status = false) :
    Tidy w (Bsd.error3 Status NodeName ServiceName o w') ↔ NodeName ≠ none ∧ ServiceName ≠ none := by
  cases ServiceName with
  | none =>
    apply iff_of_false
    · rintro ⟨r, hcall, -⟩
      cases hcall
    · intro hne
      exact hne.2 rfl
  | some name =>
    have hlive : name.Buffer ∈ w'.pool.live := (hgrows.live _).2 (.inr (by simp [nameBlocks]))
    have hfree := Heap.free_live hlive
    have hafter := hgrows.free_last hfree
    rw [Bsd.error3, Option.bind_eq_bind, Option.bind_some, hfree, Option.bind_eq_bind, Option.bind_some,
      tidy_error2 hafter hfail]
    simp

/-! ## After the names -/

namespace Converters

variable {c : Converters} {N : NameEnv} {hints : List ADDRINFOA} {Result : List ADDRINFOEXW} {h : Heap}

/-- The blocks of `h` and the resolver's are live at the start, and those of `h`
and of the list that is returned at the end. -/
theorem returnResult_cases (hconv : AllOrNothing (fun a => a) c.kspUtilAddrInfoExToAddrInfo Result)
    (hfresh : ∀ p ∈ Result.flatMap (·.reachable), p ∉ h.live)
    (hlive : ∀ p, p ∈ w.pool.live ↔ p ∈ h.live ∨ p ∈ Result.flatMap (·.reachable)) :
    (∃ Status w', c.returnResult w NodeName ServiceName Result =
          Bsd.error3 Status NodeName ServiceName (some Result) w' ∧
        ntSuccess Status = false ∧ w'.pool.live = h.live ∧
        Stage.result.andThen (c.kspUtilAddrInfoExToAddrInfo Result w.pool) (fun _ _ => none) = some .result) ∨
      ∃ res w', c.returnResult w NodeName ServiceName Result = some ⟨STATUS_SUCCESS, some res, some Result, w'⟩ ∧
        h.Grows (ownBlocks (fun a => a) res) w'.pool ∧
        Stage.result.andThen (c.kspUtilAddrInfoExToAddrInfo Result w.pool) (fun _ _ => none) = none := by
  obtain ⟨Status, o, pool, hrun, hsuccess, hfailure⟩ := hconv w.pool
  let w₁ := Ks.ksFreeAddrInfo { w with pool := pool } Result
  have hmem (p : Nat) : p ∈ w₁.pool.live ↔ p ∈ pool.live ∧ p ∉ Result.flatMap (·.reachable) := by
    simp [w₁, Ks.ksFreeAddrInfo]
  cases hok : ntSuccess Status with
  | false =>
    refine .inl ⟨Status, w₁, ?_, hok, ?_, ?_⟩
    · simp [returnResult, hrun, hok, w₁]
    · ext p
      rw [hmem, hfailure hok, hlive]
      apply Heap.given_back
      intro hp hr
      exact hfresh p hr hp
    · rw [hrun, Stage.andThen_failed hok]
  | true =>
    obtain ⟨res, rfl, -, hgrows⟩ := hsuccess hok
    refine .inr ⟨res, w₁, ?_, ⟨fun p hp hh => hgrows.fresh p hp ((hlive p).2 (.inl hh)), hgrows.nodup, ?_⟩, ?_⟩
    · simp [returnResult, hrun, hok, w₁]
    · intro p
      rw [hmem, hgrows.live, hlive, or_right_comm]
      apply Heap.given_back
      rintro (hp | hp) hr
      · exact hfresh p hr hp
      · exact hgrows.fresh p hp ((hlive p).2 (.inr hr))
    · rw [hrun, Stage.andThen_succeeded hok]

/-- How a call goes once it has its names. A step of it fails, and it goes to
`Error3` with nothing else live; without hints it follows a NULL pointer; or it
returns a list. -/
theorem resolve_cases (hhints : AllOrNothing ADDRINFOEXW.toAddrInfo c.kspUtilAddrInfoToAddrInfoEx hints)
    (hresults : ∀ log call live, AllOrNothing (fun a => a) c.kspUtilAddrInfoExToAddrInfo (N.resolve log call live).val) :
    (∃ stage Status o w', c.failsLater N w NodeName ServiceName hints = some stage ∧
        (stage = .hints ∨ (stage = .resolver ∨ stage = .result) ∧ hints ≠ []) ∧
        c.resolve N w NodeName ServiceName hints = Bsd.error3 Status NodeName ServiceName o w' ∧
        ntSuccess Status = false ∧ w'.pool.live = w.pool.live) ∨
      (hints = [] ∧ (∀ stage ∈ c.failsLater N w NodeName ServiceName hints, stage = .resolver ∨ stage = .result) ∧
        c.resolve N w NodeName ServiceName hints = none) ∨
      ∃ res Result w', c.failsLater N w NodeName ServiceName hints = none ∧ hints ≠ [] ∧
        c.resolve N w NodeName ServiceName hints = some ⟨STATUS_SUCCESS, some res, some Result, w'⟩ ∧
        w.pool.Grows (ownBlocks (fun a => a) res) w'.pool := by
  obtain ⟨Status, o, pool, hrun, hsuccess, hfailure⟩ := hhints w.pool
  cases hok : ntSuccess Status with
  | false =>
    refine .inl ⟨.hints, Status, none, { w with pool := pool }, ?_, .inl rfl, ?_, hok, hfailure hok⟩
    · rw [failsLater, hrun, Stage.andThen_failed hok]
    · simp [resolve, hrun, hok]
  | true =>
    obtain ⟨Hints, rfl, hempty, hgrows⟩ := hsuccess hok
    obtain ⟨Status', o', w₁, hget, hcases⟩ := ksGetAddrInfo_spec N { w with pool := pool } NodeName ServiceName Hints
    by_cases hnil : hints = []
    · -- the list of the hints is NULL, and it is freed
      obtain rfl := hempty.2 hnil
      refine .inr (.inl ⟨hnil, ?_, ?_⟩)
      · intro stage hstage
        rw [failsLater, hrun, Stage.andThen_succeeded hok] at hstage
        rcases Stage.mem_andThen hstage with rfl | ⟨Result, w₂, hstage⟩
        · exact .inl rfl
        · rcases Stage.mem_andThen hstage with rfl | ⟨_, _, hstage⟩
          · exact .inr rfl
          · cases hstage
      · simp [resolve, hrun, hok, hget, kspUtilFreeAddrInfoEx, freeList]
    · have hnames : ∀ p ∈ ownBlocks ADDRINFOEXW.toAddrInfo Hints, p ∈ w₁.pool.live := by
        intro p hp
        rcases hcases with ⟨-, hpool⟩ | ⟨Result, -, -, -, -, hlive⟩
        · exact hpool ▸ (hgrows.live p).2 (.inr hp)
        · exact (hlive p).2 (.inl ((hgrows.live p).2 (.inr hp)))
      obtain ⟨pool', hfree⟩ := freeList_live (fun h => hnil (hempty.1 h)) hnames hgrows.nodup
      have hfree' : kspUtilFreeAddrInfoEx Hints w₁.pool = some pool' := hfree
      rcases hcases with ⟨hok', hpool⟩ | ⟨Result, hok', rfl, ⟨log, call, live, hResult⟩, hfresh, hlive⟩
      · refine .inl ⟨.resolver, Status', none, { w₁ with pool := pool' }, ?_, .inr ⟨.inl rfl, hnil⟩, ?_, hok', ?_⟩
        · rw [failsLater, hrun, Stage.andThen_succeeded hok, hget, Stage.andThen_failed hok']
        · simp [resolve, hrun, hok, hget, hfree', hok']
        · ext p
          rw [freeList_some hfree, hpool, hgrows.live]
          apply Heap.given_back
          intro hp hown
          exact hgrows.fresh p hown hp
      · have hlater : c.failsLater N w NodeName ServiceName hints =
            Stage.result.andThen (c.kspUtilAddrInfoExToAddrInfo Result pool') fun _ _ => none := by
          rw [failsLater, hrun, Stage.andThen_succeeded hok, hget, Stage.andThen_succeeded hok', hfree', Option.getD_some]
        have hrest : c.resolve N w NodeName ServiceName hints =
            c.returnResult { w₁ with pool := pool' } NodeName ServiceName Result := by
          simp [resolve, hrun, hok, hget, hfree', hok']
        have hafter (p : Nat) : p ∈ pool'.live ↔ p ∈ w.pool.live ∨ p ∈ Result.flatMap (·.reachable) := by
          rw [freeList_some hfree, hlive, hgrows.live, or_right_comm]
          apply Heap.given_back
          rintro (hp | hp) hown
          · exact hgrows.fresh p hown hp
          · exact hfresh p hp ((hgrows.live p).2 (.inr hown))
        have hnew : ∀ p ∈ Result.flatMap (·.reachable), p ∉ w.pool.live := fun p hp hw =>
          hfresh p hp ((hgrows.live p).2 (.inl hw))
        rw [hlater, hrest]
        rcases @returnResult_cases { w₁ with pool := pool' } NodeName ServiceName c Result w.pool
            (hResult ▸ hresults log call live) hnew hafter with
          ⟨Status'', w₂, hreturn, hfail, hlive₂, hstage⟩ | ⟨res, w₂, hreturn, hgrows₂, hstage⟩
        · exact .inl ⟨.result, Status'', some Result, w₂, hstage, .inr ⟨.inr rfl, hnil⟩, hreturn, hfail, hlive₂⟩
        · exact .inr (.inr ⟨res, Result, w₂, hstage, hnil, hreturn, hgrows₂⟩)

/-! ## The whole call -/

/-- For any two conversions that are all or nothing, on these hints and on the
lists of the resolver: a call leaves nothing behind exactly if it is spared by
its failure. The first conversion of a name may fail; the second may if there
is a first name. Of a failure after that both names must be there, and of a
success none. From the resolver on there must be hints. -/
theorem getaddrinfo_tidy_iff (c : Converters) (N : NameEnv) (w : World) (node service : Option (List UInt8))
    (hints : List ADDRINFOA) (hhints : AllOrNothing ADDRINFOEXW.toAddrInfo c.kspUtilAddrInfoToAddrInfoEx hints)
    (hresults : ∀ log call live, AllOrNothing (fun a => a) c.kspUtilAddrInfoExToAddrInfo (N.resolve log call live).val) :
    Tidy w (c.getaddrinfo N w node service hints) ↔
      Spared node service hints (c.failsAt N w node service hints) := by
  rcases hnode : convertName N.pool N.ansiToUnicode node w.pool with ⟨Status, NodeName, pool⟩
  rcases hservice : convertName N.pool N.ansiToUnicode service pool with ⟨Status', ServiceName, pool'⟩
  simp only [getaddrinfo, failsAt, hnode, hservice]
  rcases convertName_cases hnode with ⟨hok, hsome, hgrows⟩ | ⟨hok, hlive⟩
  case inr =>
    simp only [hok, Bool.not_false, if_true, Spared, iff_true]
    refine ⟨_, rfl, ?_, fun _ => hlive⟩
    intro h
    simp [hok] at h
  have hnodeName : NodeName ≠ none ↔ node ≠ none := by
    rw [← Option.isSome_iff_ne_none, hsome, Option.isSome_iff_ne_none]
  rcases convertName_cases hservice with ⟨hok', hsome', hgrows'⟩ | ⟨hok', hlive'⟩
  case inr =>
    simp only [hok, hok', Bool.not_false, Bool.not_true, Bool.false_eq_true, if_true, if_false, Spared]
    rw [tidy_error2 (hgrows.congr hlive') hok', hnodeName]
  have hserviceName : ServiceName ≠ none ↔ service ≠ none := by
    rw [← Option.isSome_iff_ne_none, hsome', Option.isSome_iff_ne_none]
  have hnames : w.pool.Grows (nameBlocks NodeName ServiceName) pool' := hgrows.append hgrows'
  simp only [hok, hok', Bool.not_true, Bool.false_eq_true, if_false]
  rcases @resolve_cases { w with pool := pool' } NodeName ServiceName c N hints hhints hresults with
    ⟨stage, Status₁, o, w₁, hstage, hwhich, hcall, hfail, hlive⟩ | ⟨rfl, hstage, hcall⟩ |
    ⟨res, Result, w₁, hstage, hne, hcall, hgrows₁⟩
  · rw [hcall, hstage, tidy_error3 (hnames.congr hlive) hfail, hnodeName, hserviceName]
    rcases hwhich with rfl | ⟨rfl | rfl, hne⟩
    · rfl
    · simp [Spared, hne]
    · simp [Spared, hne]
  · rw [hcall]
    constructor
    · rintro ⟨r, hr, -⟩
      cases hr
    · intro hspared
      cases hlater : c.failsLater N { w with pool := pool' } NodeName ServiceName [] with
      | none => exact absurd rfl (hlater ▸ hspared : Spared node service [] none).1
      | some stage =>
        rw [hlater] at hspared
        rcases hstage stage hlater with rfl | rfl <;> exact absurd rfl hspared.1
  · rw [hcall, hstage]
    constructor
    · rintro ⟨r, hr, hsuccess, -⟩
      cases hr
      obtain ⟨res', hres', hnew⟩ := hsuccess ntSuccess_success
      obtain rfl := Option.some.inj hres'
      -- a name would be among the blocks of the list, which are newer
      have hnone : ∀ p, p ∉ nameBlocks NodeName ServiceName := by
        intro p hp
        have hp' : p ∈ pool'.live := (hnames.live p).2 (.inr hp)
        rcases (hnew.live p).1 ((hgrows₁.live p).2 (.inl hp')) with hw | hown
        · exact hnames.fresh p hp hw
        · exact hgrows₁.fresh p hown hp'
      refine ⟨hne, ?_, ?_⟩
      · by_contra hnode
        obtain ⟨name, rfl⟩ := Option.ne_none_iff_exists'.1 (hnodeName.2 hnode)
        exact hnone name.Buffer (by simp [nameBlocks])
      · by_contra hservice
        obtain ⟨name, rfl⟩ := Option.ne_none_iff_exists'.1 (hserviceName.2 hservice)
        exact hnone name.Buffer (by simp [nameBlocks])
    · rintro ⟨-, rfl, rfl⟩
      obtain rfl : NodeName = none := by simpa using hsome
      obtain rfl : ServiceName = none := by simpa using hsome'
      refine ⟨_, rfl, fun _ => ⟨res, rfl, ?_⟩, fun h => by simp at h⟩
      simpa [nameBlocks] using hnames.append hgrows₁

end Converters

/-! ## The library's conversions -/

/-- A record that fails is one of the list. -/
theorem Conversion.failsAt_lt {K : Conversion R S C D} {A : Allocator} {l : List R} {h : Heap} {k : Nat}
    (hfails : K.failsAt A l h = some k) : k < l.length := by
  induction l generalizing h k with
  | nil => cases hfails
  | cons r rest ih =>
    rcases record_cases K A r rest h with ⟨hzero, -⟩ | ⟨p, Status, made, h₁, h₂, hrecord, hname, hok, -, -⟩
    · obtain rfl : k = 0 := Option.some.inj (hfails.symm.trans hzero)
      exact Nat.succ_pos _
    · rw [failsAt_cons hrecord hname hok] at hfails
      obtain ⟨k, hrest, rfl⟩ := Option.map_eq_some_iff.1 hfails
      exact Nat.succ_lt_succ (ih hrest)

/-- A conversion is all or nothing on a list where each record but the last frees
its converted name at `Error3`. -/
theorem Conversion.allOrNothing {K : Conversion R S C D} {A : Allocator} {l : List R}
    (hnames : ∀ r ∈ l.dropLast, ∀ made : Option (Str D), made.isSome = (K.fields r).ai_canonname.isSome →
      ∃ Buffer, K.error3 (K.fields r).ai_canonname made = some Buffer ∧ made.map Str.Buffer = some Buffer) :
    AllOrNothing K.result (K.list A) l := by
  intro h
  cases hfails : K.failsAt A l h with
  | none =>
    obtain ⟨Status, o, h', hlist, hok⟩ := list_of_failsAt_none hfails
    obtain ⟨l', rfl, hgrows, haddr⟩ := list_success hlist hok
    have hlength : l'.length = l.length := by simpa using congrArg List.length haddr
    refine ⟨Status, _, h', hlist, fun _ => ⟨l', rfl, ?_, hgrows⟩, fun hfail => by simp [hok] at hfail⟩
    rw [← List.length_eq_zero_iff, hlength, List.length_eq_zero_iff]
  | some k =>
    have hbefore : ∀ r ∈ l.take k, r ∈ l.dropLast := by
      intro r hr
      rw [List.dropLast_eq_take]
      exact List.take_subset_take_left l (Nat.le_sub_one_of_lt (failsAt_lt hfails)) hr
    obtain ⟨Status, h', hlist, hfail, hlive⟩ := list_unwinds hfails fun r hr => hnames r (hbefore r hr)
    refine ⟨Status, none, h', hlist, ?_, fun _ => hlive⟩
    intro hok
    simp [hfail] at hok

/-- The library's are so on a list of one record, which is what hints are. -/
theorem Conversion.allOrNothing_singleton (K : Conversion R S C D) (A : Allocator) (r : R) :
    AllOrNothing K.result (K.list A) [r] := allOrNothing (by simp)

/-- The resolver is not reached. -/
def unreachable : NameEnv := { Holder.lookup false with irp := ⟨fun _ _ => none⟩ }

/-- With both names an error after them leaves nothing behind. -/
theorem unreachable_tidy :
    Tidy .init (Bsd.getaddrinfo unreachable .init (some [104]) (some [56, 48]) Holder.streamHints) :=
  (Converters.getaddrinfo_tidy_iff (.ofEnv unreachable) unreachable .init (some [104]) (some [56, 48])
    Holder.streamHints (Conversion.allOrNothing_singleton (toAddrInfoEx _) _ _)
    fun _ _ _ => Conversion.allOrNothing_singleton (toAddrInfo _) _ _).2 (by decide +kernel)

/-- A call with a node succeeds. Block 1 is the node's name, and it is live. -/
theorem node_name_left :
    AllOrNothing ADDRINFOEXW.toAddrInfo (Converters.ofEnv (Holder.lookup false)).kspUtilAddrInfoToAddrInfoEx
        Holder.streamHints ∧
      (∀ log call live, AllOrNothing (fun a => a) (Converters.ofEnv (Holder.lookup false)).kspUtilAddrInfoExToAddrInfo
        ((Holder.lookup false).resolve log call live).val) ∧
      (Bsd.getaddrinfo (Holder.lookup false) .init (some [104]) none Holder.streamHints).map (fun r =>
        (r.Status, r.res.map (ownBlocks fun a => a), r.world.pool.live)) = some (STATUS_SUCCESS, some [5, 6], {1, 5, 6}) ∧
      ¬Tidy .init (Bsd.getaddrinfo (Holder.lookup false) .init (some [104]) none Holder.streamHints) := by
  have hrun : (Bsd.getaddrinfo (Holder.lookup false) .init (some [104]) none Holder.streamHints).map (fun r =>
      (r.Status, r.res.map (ownBlocks fun a => a), r.world.pool.live)) =
        some (STATUS_SUCCESS, some [5, 6], {1, 5, 6}) := by
    decide +kernel
  refine ⟨Conversion.allOrNothing_singleton (toAddrInfoEx _) _ _,
    fun _ _ _ => Conversion.allOrNothing_singleton (toAddrInfo _) _ _, hrun, ?_⟩
  rintro ⟨r, hr, hsuccess, -⟩
  rw [hr, Option.map_some, Option.some.injEq, Prod.mk.injEq, Prod.mk.injEq] at hrun
  obtain ⟨hstatus, hblocks, hlive⟩ := hrun
  obtain ⟨res, hres, hgrows⟩ := hsuccess (hstatus ▸ ntSuccess_success)
  rw [hres, Option.map_some, Option.some.injEq] at hblocks
  have hone := (hgrows.live 1).1 (hlive ▸ by decide)
  rw [hblocks] at hone
  revert hone
  decide

end KSock
