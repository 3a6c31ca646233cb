import KSock.AddrInfo
import KSock.Berkeley
/-!
# `getaddrinfo`

The call goes through four lists of blocks: the converted names, the converted
hints, the resolver's list and the list it returns. `getaddrinfo_names` and
`resolve_cases` say how it goes; `getaddrinfo_keeps` and `getaddrinfo_success`
say which blocks are live at the end.
-/
open KSockLib

namespace KSock

/-- The choices of the environment, with what becomes of strings in conversions
and the list that the resolver makes. That list is in new blocks. -/
structure NameEnv extends Env where
  ansiToUnicode : (n : Nat) → List UInt8 → NTSTATUS × List UInt16
  unicodeToAnsi : (n : Nat) → List UInt16 → NTSTATUS × List UInt8
  resolve : (log : List Request) → (call : WskCall) → (live : Finset Nat) →
    { l : List ADDRINFOEXW // ∀ p ∈ l.flatMap (·.reachable), p ∉ live }

/-- The blocks of the resolver's list are live. -/
def World.resolved (w : World) (Result : List ADDRINFOEXW) : World :=
  { w with pool := { w.pool with live := w.pool.live ∪ (Result.flatMap (·.reachable)).toFinset } }

namespace Ks

def ksGetAddrInfo (N : NameEnv) (w : World) (NodeName ServiceName : Option (Str UInt16)) (Hints : List ADDRINFOEXW) :
    Option (NTSTATUS × Option (List ADDRINFOEXW) × World) :=
  let a := AsyncContext.kspAsyncContextAllocate N.irp w.irps
  let w := { w with irps := a.2.2 }
  if !ntSuccess a.1 then some (a.1, none, w) else do
  let call : WskCall := .WskGetAddressInfo (NodeName.map Str.text) (ServiceName.map Str.text) Hints
  let Result := (N.resolve w.log call w.pool.live).val
  let (Status, ctx, w) ← w.request N.toEnv a.2.1 .client call
  let (Status, ctx) ← ctx.kspAsyncContextWaitForCompletion Status
  let irps ← ctx.kspAsyncContextFree w.irps
  let w := { w with irps := irps }
  if ntSuccess Status then return (Status, some Result, w.resolved Result)
  else return (Status, none, w)

/-- `WskFreeAddressInfo` releases every block of the resolver's list. -/
def ksFreeAddrInfo (w : World) (AddrInfo : List ADDRINFOEXW) : World :=
  { w with pool := { w.pool with live := w.pool.live \ (AddrInfo.flatMap (·.reachable)).toFinset } }

end Ks

/-- What `getaddrinfo` returns and sets `*res` to, and its variable `Result`,
which is the resolver's list. -/
structure Resolved where
  Status : NTSTATUS
  res : Option (List ADDRINFOA)
  Result : Option (List ADDRINFOEXW)
  world : World

namespace Bsd

/-- `Error2`. If there was no name its string is not initialised. -/
def error2 (Status : NTSTATUS) (NodeName : Option (Str UInt16)) (Result : Option (List ADDRINFOEXW)) (w : World) :
    Option Resolved := do
  let NodeNameUnicode ← NodeName
  let pool ← w.pool.free NodeNameUnicode.Buffer
  return ⟨Status, none, Result, { w with pool := pool }⟩

/-- `Error3`, and on to `Error2`. -/
def error3 (Status : NTSTATUS) (NodeName ServiceName : Option (Str UInt16)) (Result : Option (List ADDRINFOEXW))
    (w : World) : Option Resolved := do
  let ServiceNameUnicode ← ServiceName
  let pool ← w.pool.free ServiceNameUnicode.Buffer
  error2 Status NodeName Result { w with pool := pool }

/-- The end of `getaddrinfo`: the resolver's list is converted and released. -/
def returnResult (N : NameEnv) (w : World) (NodeName ServiceName : Option (Str UInt16)) (Result : List ADDRINFOEXW) :
    Option Resolved := do
  let (Status, res, pool) ← kspUtilAddrInfoExToAddrInfo N.pool N.unicodeToAnsi Result w.pool
  let w := Ks.ksFreeAddrInfo { w with pool := pool } Result
  if !ntSuccess Status then error3 Status NodeName ServiceName (some Result) w else
  -- the strings of the names are not freed here
  return ⟨STATUS_SUCCESS, res, some Result, w⟩

/-- `getaddrinfo` from where the names are converted. -/
def resolve (N : NameEnv) (w : World) (NodeName ServiceName : Option (Str UInt16)) (hints : List ADDRINFOA) :
    Option Resolved := do
  let (Status, Hints, pool) ← kspUtilAddrInfoToAddrInfoEx N.pool N.ansiToUnicode hints w.pool
  let w := { w with pool := pool }
  if !ntSuccess Status then error3 Status NodeName ServiceName none w else
  let Hints ← Hints
  let (Status, Result, w) ← Ks.ksGetAddrInfo N w NodeName ServiceName Hints
  let pool ← kspUtilFreeAddrInfoEx Hints w.pool
  let w := { w with pool := pool }
  if !ntSuccess Status then error3 Status NodeName ServiceName none w else
  let Result ← Result
  returnResult N w NodeName ServiceName Result

def getaddrinfo (N : NameEnv) (w : World) (node service : Option (List UInt8)) (hints : List ADDRINFOA) :
    Option Resolved :=
  let (Status, NodeName, pool) := convertName N.pool N.ansiToUnicode node w.pool
  let w := { w with pool := pool }
  -- Error1
  if !ntSuccess Status then some ⟨Status, none, none, w⟩ else
  let (Status, ServiceName, pool) := convertName N.pool N.ansiToUnicode service w.pool
  let w := { w with pool := pool }
  if !ntSuccess Status then error2 Status NodeName none w else
  resolve N w NodeName ServiceName hints

def freeaddrinfo (w : World) (res : List ADDRINFOA) : Option World :=
  (kspUtilFreeAddrInfo res w.pool).map fun pool => { w with pool := pool }

end Bsd

/-! ## Which blocks are live -/

open AsyncContext

variable {N : NameEnv} {w : World} {NodeName ServiceName : Option (Str UInt16)} {Hints Result : List ADDRINFOEXW}
  {hints res : List ADDRINFOA} {r : Resolved} {node service : Option (List UInt8)} {p : Nat}

/-- `KsGetAddrInfo` fails and leaves the pool alone, or the resolver's list is
now live. -/
theorem ksGetAddrInfo_spec (N : NameEnv) (w : World) (NodeName ServiceName : Option (Str UInt16))
    (Hints : List ADDRINFOEXW) :
    ∃ Status o w', Ks.ksGetAddrInfo N w NodeName ServiceName Hints = some (Status, o, w') ∧
      ((ntSuccess Status = false ∧ w'.pool = w.pool) ∨
        ∃ Result : List ADDRINFOEXW, ntSuccess Status = true ∧ o = some Result ∧
          (∃ log call live, Result = (N.resolve log call live).val) ∧
          (∀ p ∈ Result.flatMap (·.reachable), p ∉ w.pool.live) ∧
          ∀ p, p ∈ w'.pool.live ↔ p ∈ w.pool.live ∨ p ∈ Result.flatMap (·.reachable)) := by
  rcases allocate_cases N.irp w.irps with ⟨irps, ha, -⟩ | ⟨ctx, id, irps, ha, hclean, -, hlive⟩
  · exact ⟨STATUS_INSUFFICIENT_RESOURCES, none, { w with irps := irps }, by simp [Ks.ksGetAddrInfo, ha],
      .inl ⟨ntSuccess_insufficient, rfl⟩⟩
  let w₁ : World := { w with irps := irps }
  let call : WskCall := .WskGetAddressInfo (NodeName.map Str.text) (ServiceName.map Str.text) Hints
  obtain ⟨Status, ctx₁, w₂, ctx₂, io, hrequest, hwait, hserved⟩ :=
    Ks.runs_served N.toEnv w₁ hclean .client call fun _ => rfl
  obtain ⟨irp, hirp, hid, hflight, -⟩ := hserved.completed
  have hidlive : id ∈ w₂.irps.live := by
    rw [hserved.irps]
    exact hlive ▸ Finset.mem_insert_self _ _
  have hfree : ctx₂.kspAsyncContextFree w₂.irps = some { w₂.irps with live := w₂.irps.live.erase id } := by
    simp [kspAsyncContextFree, hirp, hflight, hid, Heap.free_live hidlive]
  let w₃ : World := { w₂ with irps := { w₂.irps with live := w₂.irps.live.erase id } }
  cases hok : ntSuccess io.Status with
  | false =>
    exact ⟨io.Status, none, w₃, by simp [Ks.ksGetAddrInfo, ha, hrequest, hwait, hfree, hok, w₃, w₁, call],
      .inl ⟨hok, hserved.pool⟩⟩
  | true =>
    let l := N.resolve w.log call w.pool.live
    have hpool : w₃.pool.live = w.pool.live := congrArg Heap.live hserved.pool
    exact ⟨io.Status, some l.val, w₃.resolved l.val,
      by simp [Ks.ksGetAddrInfo, ha, hrequest, hwait, hfree, hok, w₃, w₁, l, call],
      .inr ⟨l.val, hok, rfl, ⟨_, _, _, rfl⟩, l.property, fun p => by simp [World.resolved, hpool]⟩⟩

/-- The blocks of the converted names. -/
def nameBlocks (NodeName ServiceName : Option (Str UInt16)) : List Nat :=
  (NodeName.map Str.Buffer).toList ++ (ServiceName.map Str.Buffer).toList

namespace Bsd

/-- The error paths return no list and free only the names. -/
theorem error2_some {Status : NTSTATUS} {o : Option (List ADDRINFOEXW)} (h : error2 Status NodeName o w = some r) :
    r.Status = Status ∧ ∀ p ∈ w.pool.live, p ∉ (NodeName.map Str.Buffer).toList → p ∈ r.world.pool.live := by
  obtain ⟨name, rfl, h⟩ := Option.bind_eq_some_iff.1 h
  obtain ⟨pool, hfree, h⟩ := Option.bind_eq_some_iff.1 h
  obtain rfl := Option.some.inj h
  exact ⟨rfl, fun p hp hname => (Heap.mem_free hfree p).2 ⟨hp, by simpa using hname⟩⟩

theorem error3_some {Status : NTSTATUS} {o : Option (List ADDRINFOEXW)}
    (h : error3 Status NodeName ServiceName o w = some r) :
    r.Status = Status ∧ ∀ p ∈ w.pool.live, p ∉ nameBlocks NodeName ServiceName → p ∈ r.world.pool.live := by
  obtain ⟨name, rfl, h⟩ := Option.bind_eq_some_iff.1 h
  obtain ⟨pool, hfree, h⟩ := Option.bind_eq_some_iff.1 h
  obtain ⟨hstatus, hkeeps⟩ := error2_some h
  refine ⟨hstatus, ?_⟩
  intro p hp hnames
  simp only [nameBlocks, List.mem_append, not_or] at hnames
  exact hkeeps p ((Heap.mem_free hfree p).2 ⟨hp, by simpa using hnames.2⟩) hnames.1

/-- What a call that succeeds has returned: a copy of the resolver's list in new
blocks, which shares its addresses. The resolver's own blocks are gone. -/
structure Answer (h : Heap) (r : Resolved) (Result : List ADDRINFOEXW) (res : List ADDRINFOA) : Prop where
  resolver : r.Result = some Result
  returned : r.res = some res
  fresh : ∀ p ∈ ownBlocks (fun a => a) res, p ∉ h.live
  nodup : (ownBlocks (fun a => a) res).Nodup
  live : ∀ p ∈ ownBlocks (fun a => a) res, p ∈ r.world.pool.live
  released : ∀ p ∈ Result.flatMap (·.reachable), p ∉ r.world.pool.live
  addrs : res.map (·.ai_addr) = Result.map (·.ai_addr)

/-! ### The end of the call -/

theorem returnResult_keeps (h : returnResult N w NodeName ServiceName Result = some r) (hp : p ∈ w.pool.live)
    (hresult : p ∉ Result.flatMap (·.reachable)) (hnames : p ∉ nameBlocks NodeName ServiceName) :
    p ∈ r.world.pool.live := by
  obtain ⟨⟨Status, o, pool⟩, hconv, h⟩ := Option.bind_eq_some_iff.1 h
  have hafter : p ∈ pool.live → p ∈ (Ks.ksFreeAddrInfo { w with pool := pool } Result).pool.live := by
    intro hpool
    simpa [Ks.ksFreeAddrInfo, hpool] using hresult
  cases hok : ntSuccess Status with
  | false =>
    simp only [hok, Bool.not_false, if_true] at h
    have hpool : p ∈ pool.live :=
      Conversion.list_failure hconv hok hp fun a _ made hmade => by simpa [toAddrInfo] using hmade
    exact (error3_some h).2 p (hafter hpool) hnames
  | true =>
    simp only [hok, Bool.not_true, Bool.false_eq_true, if_false] at h
    obtain rfl := Option.some.inj h
    obtain ⟨res, -, hgrows, -⟩ := Conversion.list_success hconv hok
    exact hafter ((hgrows.live p).2 (.inl hp))

theorem returnResult_success (h : returnResult N w NodeName ServiceName Result = some r)
    (hlive : ∀ p ∈ Result.flatMap (·.reachable), p ∈ w.pool.live) (hstatus : r.Status = STATUS_SUCCESS) :
    ∃ res, Answer w.pool r Result res := by
  obtain ⟨⟨Status, o, pool⟩, hconv, h⟩ := Option.bind_eq_some_iff.1 h
  cases hok : ntSuccess Status with
  | false =>
    simp only [hok, Bool.not_false, if_true] at h
    have hstatus' := (error3_some h).1
    rw [← hstatus', hstatus] at hok
    simp at hok
  | true =>
    simp only [hok, Bool.not_true, Bool.false_eq_true, if_false] at h
    obtain rfl := Option.some.inj h
    obtain ⟨res, rfl, hgrows, haddrs⟩ := Conversion.list_success hconv hok
    refine ⟨res, rfl, rfl, hgrows.fresh, hgrows.nodup, ?_, ?_, haddrs⟩
    · intro p hp
      have hother : p ∉ Result.flatMap (·.reachable) := fun hr => hgrows.fresh p hp (hlive p hr)
      simpa [Ks.ksFreeAddrInfo, (hgrows.live p).2 (.inr hp)] using hother
    · intro p hp
      simp only [Ks.ksFreeAddrInfo, Finset.mem_sdiff, List.mem_toFinset, not_and, not_not]
      exact fun _ => hp

/-! ### From the hints on -/

/-- The call ends in an error, with at most names of the hints freed, or the
resolver's list is in blocks that are new and live when it is returned. -/
theorem resolve_cases (h : resolve N w NodeName ServiceName hints = some r) :
    (∃ Status w', error3 Status NodeName ServiceName none w' = some r ∧ ntSuccess Status = false ∧
      ∀ p ∈ w.pool.live, (∀ a ∈ hints, a.ai_canonname.map Str.Buffer ≠ some p) → p ∈ w'.pool.live) ∨
    ∃ Result w', returnResult N w' NodeName ServiceName Result = some r ∧
      (∀ p ∈ Result.flatMap (·.reachable), p ∈ w'.pool.live) ∧
      ∀ p ∈ w.pool.live, p ∈ w'.pool.live ∧ p ∉ Result.flatMap (·.reachable) := by
  obtain ⟨⟨Status, o, pool⟩, hconv, h⟩ := Option.bind_eq_some_iff.1 h
  cases hok : ntSuccess Status with
  | false =>
    simp only [hok, Bool.not_false, if_true] at h
    refine .inl ⟨Status, _, h, hok, ?_⟩
    intro p hp hhints
    exact Conversion.list_failure hconv hok hp fun a ha made hmade => absurd hmade (hhints a ha)
  | true =>
    simp only [hok, Bool.not_true, Bool.false_eq_true, if_false] at h
    obtain ⟨Hints, hHints, hgrows, -⟩ := Conversion.list_success hconv hok
    obtain ⟨Status', o', w', hget, hcases⟩ := ksGetAddrInfo_spec N { w with pool := pool } NodeName ServiceName Hints
    simp only [hHints, Option.bind_eq_bind, Option.bind_some, hget] at h
    obtain ⟨pool', hfree, h⟩ := Option.bind_eq_some_iff.1 h
    have hold {p : Nat} (hp : p ∈ w.pool.live) : p ∈ pool.live ∧ p ∉ ownBlocks ADDRINFOEXW.toAddrInfo Hints :=
      ⟨(hgrows.live p).2 (.inl hp), fun hown => hgrows.fresh p hown hp⟩
    rcases hcases with ⟨hok', hpool⟩ | ⟨Result, hok', hResult, -, hfresh, hlive⟩
    · simp only [hok', Bool.not_false, if_true] at h
      refine .inl ⟨Status', _, h, hok', ?_⟩
      intro p hp _
      exact (freeList_some hfree p).2 ⟨hpool ▸ (hold hp).1, (hold hp).2⟩
    · simp only [hok', hResult, Bool.not_true, Bool.false_eq_true, if_false, Option.bind_some] at h
      refine .inr ⟨Result, _, h, ?_, ?_⟩
      · intro p hp
        -- the resolver's blocks are none of the converted hints
        have hown : p ∉ ownBlocks ADDRINFOEXW.toAddrInfo Hints := fun hown =>
          hfresh p hp ((hgrows.live p).2 (.inr hown))
        exact (freeList_some hfree p).2 ⟨(hlive p).2 (.inr hp), hown⟩
      · intro p hp
        exact ⟨(freeList_some hfree p).2 ⟨(hlive p).2 (.inl (hold hp).1), (hold hp).2⟩,
          fun hr => hfresh p hr (hold hp).1⟩

theorem resolve_keeps (h : resolve N w NodeName ServiceName hints = some r) (hp : p ∈ w.pool.live)
    (hhints : ∀ a ∈ hints, a.ai_canonname.map Str.Buffer ≠ some p) (hnames : p ∉ nameBlocks NodeName ServiceName) :
    p ∈ r.world.pool.live := by
  rcases resolve_cases h with ⟨Status, w', h, -, hkept⟩ | ⟨Result, w', h, -, hkept⟩
  · exact (error3_some h).2 p (hkept p hp hhints) hnames
  · exact returnResult_keeps h (hkept p hp).1 (hkept p hp).2 hnames

theorem resolve_success (h : resolve N w NodeName ServiceName hints = some r) (hstatus : r.Status = STATUS_SUCCESS) :
    ∃ Result res, Answer w.pool r Result res := by
  rcases resolve_cases h with ⟨Status, w', h, hfail, -⟩ | ⟨Result, w', h, hlive, hkept⟩
  · simp [← (error3_some h).1, hstatus] at hfail
  · obtain ⟨res, ha⟩ := returnResult_success h hlive hstatus
    exact ⟨Result, res, { ha with fresh := fun p hp hw => ha.fresh p hp (hkept p hw).1 }⟩

/-! ### The whole call -/

/-- How a call begins: with an error, or with its names in new blocks. -/
theorem getaddrinfo_names (h : getaddrinfo N w node service hints = some r) :
    (ntSuccess r.Status = false ∧ ∀ p ∈ w.pool.live, p ∈ r.world.pool.live) ∨
      ∃ NodeName ServiceName pool, w.pool.Grows (nameBlocks NodeName ServiceName) pool ∧
        resolve N { w with pool := pool } NodeName ServiceName hints = some r := by
  unfold getaddrinfo at h
  rcases hnode : convertName N.pool N.ansiToUnicode node w.pool with ⟨Status, NodeName, pool⟩
  rcases hservice : convertName N.pool N.ansiToUnicode service pool with ⟨Status', ServiceName, pool'⟩
  simp only [hnode, hservice] at h
  rcases convertName_cases hnode with ⟨hok, -, hgrows⟩ | ⟨hok, hlive⟩
  · simp only [hok, Bool.not_true, Bool.false_eq_true, if_false] at h
    rcases convertName_cases hservice with ⟨hok', -, hgrows'⟩ | ⟨hok', hlive'⟩
    · simp only [hok', Bool.not_true, Bool.false_eq_true, if_false] at h
      exact .inr ⟨NodeName, ServiceName, pool', hgrows.append hgrows', h⟩
    · simp only [hok', Bool.not_false, if_true] at h
      refine .inl ⟨(error2_some h).1 ▸ hok', ?_⟩
      intro p hp
      have hp' : p ∈ pool'.live := hlive' ▸ (hgrows.live p).2 (.inl hp)
      exact (error2_some h).2 p hp' fun hname => hgrows.fresh p hname hp
  · simp only [hok, Bool.not_false, if_true, Option.some.injEq] at h
    subst h
    exact .inl ⟨hok, fun p hp => hlive ▸ hp⟩

/-- Only names of the caller's hints may be freed. -/
theorem getaddrinfo_keeps (h : getaddrinfo N w node service hints = some r) (hp : p ∈ w.pool.live)
    (hhints : ∀ a ∈ hints, a.ai_canonname.map Str.Buffer ≠ some p) : p ∈ r.world.pool.live := by
  rcases getaddrinfo_names h with ⟨-, hkeeps⟩ | ⟨NodeName, ServiceName, pool, hgrows, h⟩
  · exact hkeeps p hp
  · exact resolve_keeps h ((hgrows.live p).2 (.inl hp)) hhints fun hname => hgrows.fresh p hname hp

theorem getaddrinfo_success (h : getaddrinfo N w node service hints = some r) (hstatus : r.Status = STATUS_SUCCESS) :
    ∃ Result res, Answer w.pool r Result res := by
  rcases getaddrinfo_names h with ⟨hfail, -⟩ | ⟨NodeName, ServiceName, pool, hgrows, h⟩
  · simp [hstatus] at hfail
  · obtain ⟨Result, res, hanswer⟩ := resolve_success h hstatus
    exact ⟨Result, res, { hanswer with fresh := fun p hp hw => hanswer.fresh p hp ((hgrows.live p).2 (.inl hw)) }⟩

end Bsd

end KSock
