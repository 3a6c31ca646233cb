import KSock.Lib.Heap
import KSock.Wsk
/-!
# IRPs and their completion event

The five `Ksp` functions of `ksocket.c` that every request goes through. The
completion event resets itself when a wait is satisfied, but a request that is
complete before its function returns is not waited for, and leaves it signalled.

A step has no result where the code would follow a NULL pointer, use an IRP that
is still in flight or wait for ever. `request_completes` is what the callers
use: reset, request and wait return, with the status of that request.
-/
open KSockLib

namespace KSock

/-- An IRP is in flight with the status it is going to complete with. -/
structure IRP where
  id : Nat
  inFlight : Option IoStatusBlock
  completionRoutine : Bool
  IoStatus : IoStatusBlock
  deriving DecidableEq, Repr

/-- `KSOCKET_ASYNC_CONTEXT` -/
structure AsyncContext where
  CompletionEvent : Bool
  Irp : Option IRP
  deriving DecidableEq, Repr

/-- A request is complete when its function returns, or that one returns
`STATUS_PENDING` and it completes before its caller waits or only then. -/
inductive Timing where
  | now
  | early
  | late
  deriving DecidableEq, Repr

structure Completion where
  timing : Timing
  io : IoStatusBlock
  deriving DecidableEq, Repr

namespace AsyncContext

/-! ## The functions -/

def kspAsyncContextAllocate (A : Allocator) (irps : Heap) : NTSTATUS × AsyncContext × Heap :=
  match irps.alloc A with
  | (none, irps) => (STATUS_INSUFFICIENT_RESOURCES, ⟨false, none⟩, irps)
  | (some id, irps) => (STATUS_SUCCESS, ⟨false, some ⟨id, none, true, ⟨STATUS_SUCCESS, 0⟩⟩⟩, irps)

def kspAsyncContextFree (ctx : AsyncContext) (irps : Heap) : Option Heap := do
  let irp ← ctx.Irp
  if irp.inFlight.isSome then none
  else irps.free irp.id

def kspAsyncContextReset (ctx : AsyncContext) : Option AsyncContext := do
  let irp ← ctx.Irp
  if irp.inFlight.isSome then none
  else some ⟨false, some { irp with completionRoutine := true, IoStatus := ⟨STATUS_UNSUCCESSFUL, 0⟩ }⟩

/-- The IRP completes. `KspAsyncContextCompletionRoutine`, if set, signals the
event. -/
def complete (ctx : AsyncContext) (irp : IRP) (io : IoStatusBlock) : AsyncContext where
  CompletionEvent := ctx.CompletionEvent || irp.completionRoutine
  Irp := some { irp with inFlight := none, completionRoutine := false, IoStatus := io }

/-- A provider's function is called with the IRP. -/
def request (ctx : AsyncContext) (c : Completion) : Option (NTSTATUS × AsyncContext) := do
  let irp ← ctx.Irp
  match c.timing with
  | .now => some (c.io.Status, ctx.complete irp c.io)
  | .early => some (STATUS_PENDING, ctx.complete irp c.io)
  | .late => some (STATUS_PENDING, { ctx with Irp := some { irp with inFlight := some c.io } })

/-- `KeWaitForSingleObject`. If the event is not signalled, only the request in
flight can signal it. -/
def keWait (ctx : AsyncContext) : Option AsyncContext :=
  if ctx.CompletionEvent then some { ctx with CompletionEvent := false } else do
    let irp ← ctx.Irp
    let io ← irp.inFlight
    let ctx := ctx.complete irp io
    if ctx.CompletionEvent then some { ctx with CompletionEvent := false } else none

def kspAsyncContextWaitForCompletion (ctx : AsyncContext) (Status : NTSTATUS) : Option (NTSTATUS × AsyncContext) :=
  if Status = STATUS_PENDING then do
    let ctx ← ctx.keWait
    let irp ← ctx.Irp
    return (irp.IoStatus.Status, ctx)
  else some (Status, ctx)

/-! ## A request from reset to completion -/

/-- The context has the IRP `id`, and it is not in flight. -/
def Idle (ctx : AsyncContext) (id : Nat) : Prop := ∃ irp, ctx.Irp = some irp ∧ irp.id = id ∧ irp.inFlight = none

/-- What a function may be called with: an IRP that is not in flight and has its
completion routine set, and an event that is not signalled. -/
structure Clean (ctx : AsyncContext) (id : Nat) : Prop where
  unsignalled : ctx.CompletionEvent = false
  irp : ∃ irp, ctx.Irp = some irp ∧ irp.id = id ∧ irp.inFlight = none ∧ irp.completionRoutine = true

/-- The last request made with the IRP completed with `io`. -/
def Completed (ctx : AsyncContext) (id : Nat) (io : IoStatusBlock) : Prop :=
  ∃ irp, ctx.Irp = some irp ∧ irp.id = id ∧ irp.inFlight = none ∧ irp.IoStatus = io

variable {ctx : AsyncContext} {id : Nat}

theorem Clean.idle (h : ctx.Clean id) : ctx.Idle id := by
  obtain ⟨irp, hirp, hid, hflight, -⟩ := h.irp
  exact ⟨irp, hirp, hid, hflight⟩

theorem Completed.idle {io : IoStatusBlock} (h : ctx.Completed id io) : ctx.Idle id := by
  obtain ⟨irp, hirp, hid, hflight, -⟩ := h
  exact ⟨irp, hirp, hid, hflight⟩

/-- The allocation fails, or gives a clean context with an IRP of its own. -/
theorem allocate_cases (A : Allocator) (irps : Heap) :
    (∃ irps', kspAsyncContextAllocate A irps = (STATUS_INSUFFICIENT_RESOURCES, ⟨false, none⟩, irps') ∧
        irps'.live = irps.live) ∨
      ∃ ctx id irps', kspAsyncContextAllocate A irps = (STATUS_SUCCESS, ctx, irps') ∧ ctx.Clean id ∧
        id ∉ irps.live ∧ irps'.live = insert id irps.live := by
  unfold kspAsyncContextAllocate
  rcases h : irps.alloc A with ⟨_ | id, irps'⟩
  · exact .inl ⟨irps', rfl, Heap.alloc_none h⟩
  · obtain ⟨hid, hlive⟩ := Heap.alloc_some h
    exact .inr ⟨_, id, irps', rfl, ⟨rfl, _, rfl, rfl, rfl, rfl⟩, hid, hlive⟩

theorem allocate_live (A : Allocator) (irps : Heap) : irps.live ⊆ (kspAsyncContextAllocate A irps).2.2.live := by
  rcases allocate_cases A irps with ⟨irps', h, hlive⟩ | ⟨ctx, id, irps', h, -, -, hlive⟩
  · rw [h, hlive]
  · rw [h, hlive]
    exact Finset.subset_insert _ _

theorem reset_clean (h : ctx.Idle id) : ∃ ctx', ctx.kspAsyncContextReset = some ctx' ∧ ctx'.Clean id := by
  obtain ⟨irp, hirp, hid, hflight⟩ := h
  let irp' : IRP := { irp with completionRoutine := true, IoStatus := ⟨STATUS_UNSUCCESSFUL, 0⟩ }
  refine ⟨⟨false, some irp'⟩, ?_, ⟨rfl, irp', rfl, hid, hflight, rfl⟩⟩
  simp [kspAsyncContextReset, hirp, hflight, irp']

/-- A reset that returns had an idle IRP. -/
theorem idle_of_reset {ctx' : AsyncContext} (h : ctx.kspAsyncContextReset = some ctx') : ∃ id, ctx.Idle id := by
  obtain ⟨irp, hirp, h⟩ := Option.bind_eq_some_iff.1 h
  split at h
  · cases h
  · rename_i hflight
    exact ⟨irp.id, irp, hirp, rfl, by simpa using hflight⟩

/-- A request on a clean context is waited for until it is complete, whenever
that is, and the wait gives its status. -/
theorem request_completes (h : ctx.Clean id) (c : Completion) :
    ∃ Status ctx₁ ctx₂, ctx.request c = some (Status, ctx₁) ∧
      ctx₁.kspAsyncContextWaitForCompletion Status = some (c.io.Status, ctx₂) ∧ ctx₂.Completed id c.io := by
  obtain ⟨hevent, irp, hirp, hid, hflight, hroutine⟩ := h
  let irp' : IRP := { irp with inFlight := none, completionRoutine := false, IoStatus := c.io }
  have hdone (e : Bool) : (⟨e, some irp'⟩ : AsyncContext).Completed id c.io := ⟨irp', rfl, hid, rfl, rfl⟩
  have hcomplete : ctx.complete irp c.io = ⟨true, some irp'⟩ := by simp [complete, hevent, hroutine, irp']
  cases htiming : c.timing with
  | now =>
    -- the wait is skipped, unless the final status is itself STATUS_PENDING
    refine ⟨c.io.Status, ⟨true, some irp'⟩, ⟨decide (c.io.Status ≠ STATUS_PENDING), some irp'⟩,
      by simp [request, hirp, htiming, hcomplete], ?_, hdone _⟩
    by_cases hpending : c.io.Status = STATUS_PENDING
    · simp [kspAsyncContextWaitForCompletion, keWait, hpending, irp']
    · simp [kspAsyncContextWaitForCompletion, hpending]
  | early =>
    refine ⟨STATUS_PENDING, ⟨true, some irp'⟩, ⟨false, some irp'⟩,
      by simp [request, hirp, htiming, hcomplete], ?_, hdone _⟩
    simp [kspAsyncContextWaitForCompletion, keWait, irp']
  | late =>
    let flying : IRP := { irp with inFlight := some c.io }
    refine ⟨STATUS_PENDING, ⟨false, some flying⟩, ⟨false, some irp'⟩,
      by simp [request, hirp, htiming, hevent, flying], ?_, hdone _⟩
    simp [kspAsyncContextWaitForCompletion, keWait, complete, flying, irp', hroutine]

end AsyncContext

end KSock
