import KSock.Lib.Handles
import KSock.Lib.Run
import KSock.LastError
/-!
# Who closes a descriptor

A `KSocket` points to a `KSocketImpl`, whose destructor closes the descriptor it
has. Here are the objects of a program in memory, with all that happens to their
descriptors: `setup`, `accept`, the copy assignment and the destructors over the
methods of `Methods.lean`.

The `KSocketImpl`s are numbered in the order they are made. Each gets at most one
descriptor, in the method that makes it, so the events on a descriptor bear its
number. A step has no result where the code would follow a dangling pointer.
-/
open KSockLib

namespace KSock

/-- A `KSocket` in memory: `m_socket` is a pointer. -/
structure Object where
  m_sendBuffer : KSocketBuffer
  m_recvBuffer : KSocketBuffer
  m_socketType : KSocketType
  m_socket : Option Nat
  m_lastError : Int
  deriving DecidableEq, Repr

/-- `accepting` has the sockets made by the calls of `accept` that wait for
their callback, the last one first. -/
structure Memory where
  objects : Nat → Option Object
  impls : Nat → Option KSocketImpl
  made : Nat
  accepting : List Nat
  history : List (HandleEvent Int)

/-- The object that has the fields of `k` and the pointer. -/
def Object.ofKSocket (k : KSocket) (m_socket : Option Nat) : Object :=
  ⟨k.m_sendBuffer, k.m_recvBuffer, k.m_socketType, m_socket, k.m_lastError⟩

/-- With what is at the pointer. -/
def Object.toKSocket (o : Object) (impl : Option KSocketImpl) : KSocket :=
  ⟨o.m_sendBuffer, o.m_recvBuffer, o.m_socketType, impl, o.m_lastError⟩

namespace Memory

def init : Memory := ⟨fun _ => none, fun _ => none, 0, [], []⟩

/-- The object as its methods see it. -/
def load (m : Memory) (o : Object) : Option KSocket :=
  match o.m_socket with
  | none => some (o.toKSocket none)
  | some p => (m.impls p).map fun impl => o.toKSocket (some impl)

def store (m : Memory) (x : Nat) (o : Option Object) : Memory := { m with objects := Function.update m.objects x o }

def storeImpl (m : Memory) (p : Nat) (impl : Option KSocketImpl) : Memory :=
  { m with impls := Function.update m.impls p impl }

def record (m : Memory) (e : HandleEvent Int) : Memory := { m with history := m.history ++ [e] }

/-- A `KSocketImpl` at the end of the method that has made it. -/
def make (m : Memory) (impl : KSocketImpl) : Nat × Memory :=
  let made := { m.storeImpl m.made (some impl) with made := m.made + 1 }
  (m.made, if 0 ≤ impl.s then made.record (.obtained m.made impl.s) else made)

/-- `~KSocketImpl` -/
def destroyImpl (m : Memory) (p : Nat) (impl : KSocketImpl) : Memory :=
  if 0 ≤ impl.s then m.record (.closed p impl.s) else m

/-- `delete m_socket`, if it is not NULL. -/
def delete (m : Memory) (m_socket : Option Nat) : Option Memory :=
  match m_socket with
  | none => some m
  | some p => (m.impls p).map fun impl => (m.destroyImpl p impl).storeImpl p none

/-- A BSD call on the descriptor at the pointer. -/
def use (m : Memory) (m_socket : Option Nat) (k : KSocket) : Memory :=
  match m_socket with
  | none => m
  | some p => m.record (.used p k.impl.s)

/-! ## The methods in memory -/

def construct (m : Memory) (x : Nat) : Option Memory :=
  if m.objects x = none then some (m.store x (some (.ofKSocket .new none))) else none

def setup (m : Memory) (x : Nat) (newImpl : Bool) (bsdSocket : Creation → (domain type proto : Int) → Int)
    (sock_type : KSocketType) (proto : Int) : Option Memory := do
  let o ← m.objects x
  let k ← m.load o
  let m ← m.delete o.m_socket
  let k := (k.setup newImpl bsdSocket sock_type proto).2
  match k.m_socket with
  | none => return m.store x (some (.ofKSocket k none))
  | some impl =>
    let (p, m) := m.make impl
    return m.store x (some (.ofKSocket k (some p)))

def destroy (m : Memory) (x : Nat) : Option Memory := do
  let o ← m.objects x
  let m ← m.delete o.m_socket
  return m.store x none

/-- `accept` until its callback is called, with the accepted socket at `y`, or
until it returns false and has destroyed that one. -/
def accept (m : Memory) (x y : Nat) (newImpl : Bool) (bsdAccept : (s : Int) → Int × SOCKADDR) : Option Memory := do
  let o ← m.objects x
  let k ← m.load o
  if (m.objects y).isSome then none else
  let (callback, ka, k') := k.acceptSocket newImpl bsdAccept
  match ka.m_socket with
  | none => return m.store x (some (.ofKSocket k' o.m_socket))
  | some impl =>
    let m := m.use o.m_socket k
    let m := m.store x (some (.ofKSocket k' o.m_socket))
    let (p, m) := m.make impl
    let m := m.store y (some (.ofKSocket ka.toKSocket (some p)))
    if callback then return { m with accepting := y :: m.accepting } else m.destroy y

/-- The callback of the last `accept` returns, and its socket is destroyed. -/
def acceptReturns (m : Memory) : Option Memory :=
  match m.accepting with
  | [] => none
  | y :: accepting => { m with accepting := accepting }.destroy y

def close (m : Memory) (x : Nat) (bsdClosesocket : (s : Int) → Int) : Option Memory := do
  let o ← m.objects x
  let k ← m.load o
  let k' := (k.close bsdClosesocket).2
  let m := m.store x (some (.ofKSocket k' o.m_socket))
  match o.m_socket with
  | none => return m
  | some p => return (if k.valid then m.record (.closed p k.impl.s) else m).storeImpl p k'.m_socket

/-- Whether the method comes to its BSD call on the descriptor. The others are
not here: they have steps of their own. -/
def usesFd (k : KSocket) : KSocket.Operation → Option Bool
  | .connect host port bsdGetaddrinfo _ =>
    some (k.valid && (k.m_socketType = .KST_STREAM_CLIENT_IP4 || k.m_socketType = .KST_STREAM_CLIENT_IP6) &&
      (bsdGetaddrinfo host port k.hints).1 = KSE_SUCCESS)
  | .bind _ _ => some k.valid
  | .listen _ _ =>
    some (k.valid && (k.m_socketType = .KST_STREAM_SERVER_IP4 || k.m_socketType = .KST_STREAM_SERVER_IP6))
  | .send _ => some (k.valid && k.m_sendBuffer.size ≠ 0)
  | .recv _ _ => some k.valid
  | .setup _ _ _ _ | .accept _ _ _ | .close _ => none

/-- `connect`, `bind`, `listen`, `send` or `recv`, which leave `*m_socket` alone. -/
def method (m : Memory) (x : Nat) (o' : KSocket.Operation) : Option Memory := do
  let o ← m.objects x
  let k ← m.load o
  let uses ← usesFd k o'
  let (_, k') ← k.operate o'
  let m := if uses then m.use o.m_socket k else m
  return m.store x (some (.ofKSocket k' o.m_socket))

/-- The copy assignment copies all fields. -/
def assign (m : Memory) (x y : Nat) : Option Memory := do
  let _ ← m.objects x
  let o ← m.objects y
  return m.store x (some o)

inductive Action where
  | construct (x : Nat)
  | setup (x : Nat) (newImpl : Bool) (bsdSocket : Creation → (domain type proto : Int) → Int) (sock_type : KSocketType)
      (proto : Int)
  | accept (x y : Nat) (newImpl : Bool) (bsdAccept : (s : Int) → Int × SOCKADDR)
  | acceptReturns
  | close (x : Nat) (bsdClosesocket : (s : Int) → Int)
  | method (x : Nat) (o : KSocket.Operation)
  | assign (x y : Nat)
  | destroy (x : Nat)

/-- The socket of an `accept` is destroyed by it and not by the program. -/
def step (m : Memory) : Action → Option Memory
  | .construct x => m.construct x
  | .setup x newImpl bsdSocket sock_type proto => m.setup x newImpl bsdSocket sock_type proto
  | .accept x y newImpl bsdAccept => m.accept x y newImpl bsdAccept
  | .acceptReturns => m.acceptReturns
  | .close x bsdClosesocket => m.close x bsdClosesocket
  | .method x o => m.method x o
  | .assign x y => m.assign x y
  | .destroy x => if x ∈ m.accepting then none else m.destroy x

/-! ## Descriptors and their owners -/

/-- The descriptor that `~KSocketImpl` would close. -/
def fdOf (impl : KSocketImpl) : Option Int := if 0 ≤ impl.s then some impl.s else none

def opened (m : Memory) (p : Nat) : Option Int := (m.impls p).bind fdOf

def pointer (m : Memory) (x : Nat) : Option Nat := (m.objects x).bind (·.m_socket)

/-- Each descriptor is closed once at most, with nothing done to it afterwards;
all are when there are no objects; and no object has a dangling pointer. -/
structure ClosedOnce (m : Memory) : Prop where
  own : ∀ e ∈ m.history, .obtained e.number e.handle ∈ m.history
  last : ClosedLast m.history
  all : (∀ x, m.objects x = none) → ∀ n fd, .obtained n fd ∈ m.history → .closed n fd ∈ m.history
  live : ∀ x p, m.pointer x = some p → (m.impls p).isSome = true

/-- `closesocket` succeeds in `close`, and an object is copied only if neither it
nor the one it is assigned to has a descriptor to lose. -/
def Spared (m : Memory) : Action → Prop
  | .close x bsdClosesocket => ∀ k ∈ (m.objects x).bind m.load, k.valid = true → bsdClosesocket k.impl.s = 0
  | .assign x y => x = y ∨ (m.pointer y = none ∧ ∀ k ∈ (m.objects x).bind m.load, k.valid = false)
  | _ => True

instance (m : Memory) : ∀ a, Decidable (Spared m a)
  | .close x bsdClosesocket =>
    inferInstanceAs (Decidable (∀ k ∈ (m.objects x).bind m.load, k.valid = true → bsdClosesocket k.impl.s = 0))
  | .assign x y =>
    inferInstanceAs
      (Decidable (x = y ∨ (m.pointer y = none ∧ ∀ k ∈ (m.objects x).bind m.load, k.valid = false)))
  | .construct _ | .setup _ _ _ _ _ | .accept _ _ _ _ | .acceptReturns | .method _ _ | .destroy _ =>
    inferInstanceAs (Decidable True)

/-- Descriptors are accounted for, and the open ones have one owner each. -/
structure Owned (m : Memory) : Prop where
  accounted : Accounted m.made m.opened m.history
  live : ∀ x p, m.pointer x = some p → (m.impls p).isSome = true
  alone : ∀ x y p, m.pointer x = some p → m.pointer y = some p → x = y
  held : ∀ p fd, m.opened p = some fd → ∃ x, m.pointer x = some p
  made_lt : ∀ p, (m.impls p).isSome = true → p < m.made

variable {m m' : Memory} {x p : Nat} {o : Object} {r : Option Object} {k : KSocket} {impl : KSocketImpl}

theorem owned_init : Owned init where
  accounted := .start
  live := by simp [pointer, init]
  alone := by simp [pointer, init]
  held := by simp [opened, init]
  made_lt := by simp [init]

theorem Owned.closedOnce (h : Owned m) : ClosedOnce m where
  own := h.accounted.own
  last := h.accounted.last
  all := by
    intro hnone n fd
    apply h.accounted.all_closed
    intro p
    by_contra hopen
    obtain ⟨fd, hfd⟩ := Option.ne_none_iff_exists'.1 hopen
    obtain ⟨x, hx⟩ := h.held p fd hfd
    simp [pointer, hnone x] at hx
  live := h.live

/-! ### What the parts of a step do -/

theorem pointer_store (m : Memory) (x : Nat) (r : Option Object) :
    (m.store x r).pointer = Function.update m.pointer x (r.bind (·.m_socket)) := by
  funext y
  by_cases hy : y = x <;> simp [pointer, store, hy]

theorem opened_storeImpl (m : Memory) (p : Nat) (impl : Option KSocketImpl) :
    (m.storeImpl p impl).opened = Function.update m.opened p (impl.bind fdOf) := by
  funext q
  by_cases hq : q = p <;> simp [opened, storeImpl, hq]

theorem pointer_of_objects (hx : m.objects x = some o) : m.pointer x = o.m_socket := by simp [pointer, hx]

/-- The descriptor of a valid socket is open. -/
theorem opened_of_valid (hload : m.load o = some k) (hv : k.valid = true) :
    ∃ p, o.m_socket = some p ∧ m.opened p = some k.impl.s := by
  unfold load at hload
  cases hp : o.m_socket with
  | none =>
    rw [hp] at hload
    cases hload
    cases hv
  | some p =>
    rw [hp] at hload
    obtain ⟨impl, himpl, rfl⟩ := Option.map_eq_some_iff.1 hload
    have hs : 0 ≤ impl.s := by simpa [KSocket.valid, Object.toKSocket] using hv
    exact ⟨p, rfl, by simp [opened, himpl, fdOf, hs, KSocket.impl, Object.toKSocket]⟩

/-- An object keeps its pointer. -/
theorem Owned.store_same (h : Owned m) (hr : r.bind (·.m_socket) = m.pointer x) : Owned (m.store x r) := by
  have hpointer : (m.store x r).pointer = m.pointer := by rw [pointer_store, hr, Function.update_eq_self]
  exact ⟨h.accounted, hpointer ▸ h.live, hpointer ▸ h.alone, hpointer ▸ h.held, h.made_lt⟩

/-- An object that has no descriptor loses its pointer. -/
theorem Owned.store_none (h : Owned m) (hr : r.bind (·.m_socket) = none)
    (hx : ∀ p, m.pointer x = some p → m.opened p = none) : Owned (m.store x r) := by
  have hother {y p : Nat} (hy : (m.store x r).pointer y = some p) : m.pointer y = some p := by
    rw [pointer_store, hr] at hy
    exact (Slots.of_empty hy).2
  refine ⟨h.accounted, ?live, ?alone, ?held, h.made_lt⟩
  case live =>
    intro y p hy
    exact h.live y p (hother hy)
  case alone =>
    intro y z p hy hz
    exact h.alone y z p (hother hy) (hother hz)
  case held =>
    intro p fd hfd
    obtain ⟨y, hy⟩ := h.held p fd hfd
    refine ⟨y, ?_⟩
    rw [pointer_store, Function.update_of_ne, hy]
    rintro rfl
    have hnone := hx p hy
    rw [show m.opened p = some fd from hfd] at hnone
    cases hnone

theorem Owned.use (h : Owned m) (hload : m.load o = some k) (hv : k.valid = true) : Owned (m.use o.m_socket k) := by
  obtain ⟨p, hp, hopen⟩ := opened_of_valid hload hv
  rw [hp]
  exact ⟨h.accounted.use hopen, h.live, h.alone, h.held, h.made_lt⟩

theorem destroyImpl_objects (m : Memory) (p : Nat) (impl : KSocketImpl) :
    (m.destroyImpl p impl).objects = m.objects := by
  unfold destroyImpl
  split <;> rfl

theorem destroyImpl_impls (m : Memory) (p : Nat) (impl : KSocketImpl) :
    (m.destroyImpl p impl).impls = m.impls := by
  unfold destroyImpl
  split <;> rfl

theorem destroyImpl_made (m : Memory) (p : Nat) (impl : KSocketImpl) : (m.destroyImpl p impl).made = m.made := by
  unfold destroyImpl
  split <;> rfl

theorem destroyImpl_opened (m : Memory) (p : Nat) (impl : KSocketImpl) {next : Option KSocketImpl}
    (hnext : next.bind fdOf = none) :
    ((m.destroyImpl p impl).storeImpl p next).opened = Function.update m.opened p none := by
  rw [opened_storeImpl, hnext]
  congr 1
  funext q
  simp only [opened, destroyImpl_impls]

/-- A descriptor is closed, and what is at its number then has none. -/
theorem Owned.accounted_destroyImpl (h : Owned m) (himpl : m.impls p = some impl) :
    Accounted m.made (Function.update m.opened p none) (m.destroyImpl p impl).history := by
  unfold destroyImpl
  split
  · exact h.accounted.close (by simp [opened, fdOf, *])
  · have hnone : m.opened p = none := by simp [opened, fdOf, *]
    rw [← hnone, Function.update_eq_self]
    exact h.accounted

/-- What an object points to is deleted, and its pointer with it. -/
theorem Owned.delete (h : Owned m) (hdelete : m.delete (m.pointer x) = some m') (hr : r.bind (·.m_socket) = none) :
    Owned (m'.store x r) := by
  cases hp : m.pointer x with
  | none =>
    rw [hp] at hdelete
    cases hdelete
    exact h.store_same (hr.trans hp.symm)
  | some p =>
    rw [hp] at hdelete
    obtain ⟨impl, himpl, rfl⟩ := Option.map_eq_some_iff.1 hdelete
    have hpointer : (((m.destroyImpl p impl).storeImpl p none).store x r).pointer =
        Function.update m.pointer x none := by
      rw [pointer_store, hr]
      congr 1
      funext y
      simp only [pointer, storeImpl, destroyImpl_objects]
    have himpls : (((m.destroyImpl p impl).storeImpl p none).store x r).impls = Function.update m.impls p none := by
      simp only [store, storeImpl, destroyImpl_impls]
    have hopened : (((m.destroyImpl p impl).storeImpl p none).store x r).opened = Function.update m.opened p none :=
      m.destroyImpl_opened p impl rfl
    have hmade : (((m.destroyImpl p impl).storeImpl p none).store x r).made = m.made := m.destroyImpl_made p impl
    refine ⟨?accounted, ?live, ?alone, ?held, ?made_lt⟩
    case accounted =>
      rw [hopened, hmade]
      exact h.accounted_destroyImpl himpl
    case live =>
      intro y q hy
      rw [hpointer] at hy
      rw [himpls, Function.update_of_ne (Slots.Distinct.ne_of_empty h.alone hp hy)]
      exact h.live y q (Slots.of_empty hy).2
    case alone =>
      rw [hpointer]
      exact Slots.Distinct.empty h.alone
    case held =>
      intro q fd hfd
      rw [hopened] at hfd
      obtain ⟨hqp, hfd⟩ := Slots.of_empty hfd
      obtain ⟨y, hy⟩ := h.held q fd hfd
      refine ⟨y, ?_⟩
      rw [hpointer, Function.update_of_ne, hy]
      rintro rfl
      exact hqp (Option.some.inj (hy.symm.trans hp))
    case made_lt =>
      intro q hq
      obtain ⟨impl', himpl'⟩ := Option.isSome_iff_exists.1 hq
      rw [himpls] at himpl'
      rw [hmade]
      exact h.made_lt q (Option.isSome_iff_exists.2 ⟨impl', (Slots.of_empty himpl').2⟩)

/-- A new `KSocketImpl` has its descriptor, if any, from its own method. -/
theorem Owned.accounted_make (h : Owned m) (impl : KSocketImpl) :
    Accounted (m.make impl).2.made (m.make impl).2.opened (m.make impl).2.history := by
  have hopened : (m.make impl).2.opened = Function.update m.opened m.made (fdOf impl) := by
    refine Eq.trans ?_ (m.opened_storeImpl m.made (some impl))
    unfold make
    split <;> rfl
  rw [hopened]
  unfold make fdOf
  split
  · exact h.accounted.obtain impl.s
  · have hnone : m.opened m.made = none := by
      by_contra hopen
      obtain ⟨fd, hfd⟩ := Option.ne_none_iff_exists'.1 hopen
      exact Nat.lt_irrefl _ (h.accounted.open_lt _ _ hfd)
    rw [← hnone, Function.update_eq_self]
    exact h.accounted.skip

/-- An object without a pointer gets a new one. -/
theorem Owned.make (h : Owned m) (hx : m.pointer x = none) (impl : KSocketImpl)
    (hr : r.bind (·.m_socket) = some (m.make impl).1) : Owned ((m.make impl).2.store x r) := by
  have himpls : ((m.make impl).2.store x r).impls = Function.update m.impls m.made (some impl) := by
    unfold Memory.make
    split <;> rfl
  have hpointer : ((m.make impl).2.store x r).pointer = Function.update m.pointer x (some m.made) := by
    rw [pointer_store, hr]
    unfold Memory.make
    split <;> rfl
  have hmade : ((m.make impl).2.store x r).made = m.made + 1 := by
    unfold Memory.make
    split <;> rfl
  have hold {y q : Nat} (hy : m.pointer y = some q) : q ≠ m.made := Nat.ne_of_lt (h.made_lt q (h.live y q hy))
  refine ⟨h.accounted_make impl, ?live, ?alone, ?held, ?made_lt⟩
  case live =>
    intro y q hy
    rw [hpointer] at hy
    rw [himpls]
    rcases Slots.of_fill hy with ⟨-, rfl⟩ | hy
    · simp
    · rw [Function.update_of_ne (hold hy)]
      exact h.live y q hy
  case alone =>
    rw [hpointer]
    apply Slots.Distinct.fill h.alone
    intro y hy
    exact hold hy rfl
  case held =>
    intro q fd hfd
    rw [opened, himpls, Function.update_apply] at hfd
    rw [hpointer]
    split at hfd
    · subst q
      exact ⟨x, Function.update_self _ _ _⟩
    · obtain ⟨y, hy⟩ := h.held q fd hfd
      refine ⟨y, (Function.update_of_ne ?_ _ _).trans hy⟩
      rintro rfl
      rw [hx] at hy
      cases hy
  case made_lt =>
    intro q hq
    obtain ⟨impl', himpl'⟩ := Option.isSome_iff_exists.1 hq
    rw [himpls] at himpl'
    rw [hmade]
    rcases Slots.of_fill himpl' with ⟨rfl, -⟩ | himpl'
    · exact Nat.lt_succ_self _
    · exact Nat.lt_succ_of_lt (h.made_lt q (Option.isSome_iff_exists.2 ⟨impl', himpl'⟩))

/-- The descriptor of an object is closed, and the object keeps its `KSocketImpl`. -/
theorem Owned.close (h : Owned m) (himpl : m.impls p = some impl) (hs : 0 ≤ impl.s) :
    Owned ((m.record (.closed p impl.s)).storeImpl p (some { impl with s := -1 })) := by
  have hdestroy : m.destroyImpl p impl = m.record (.closed p impl.s) := if_pos hs
  have haccounted := h.accounted_destroyImpl himpl
  have hopened : ((m.record (.closed p impl.s)).storeImpl p (some { impl with s := -1 })).opened =
      Function.update m.opened p none := by
    rw [← hdestroy]
    exact m.destroyImpl_opened p impl rfl
  have hsome (q : Nat) : (Function.update m.impls p (some { impl with s := -1 }) q).isSome = (m.impls q).isSome := by
    by_cases hq : q = p <;> simp [hq, himpl]
  refine ⟨?accounted, ?live, h.alone, ?held, ?made_lt⟩
  case accounted =>
    rw [hopened]
    rw [hdestroy] at haccounted
    exact haccounted
  case live =>
    intro y q hy
    exact (hsome q).trans (h.live y q hy)
  case held =>
    intro q fd hfd
    rw [hopened] at hfd
    exact h.held q fd (Slots.of_empty hfd).2
  case made_lt =>
    intro q hq
    exact h.made_lt q ((hsome q).symm.trans hq)

/-! ### What a step does -/

theorem storeImpl_same (himpl : m.impls p = some impl) : m.storeImpl p (some impl) = m := by
  rw [storeImpl, ← himpl, Function.update_eq_self]

theorem make_store_store (m : Memory) (x : Nat) (r' r : Option Object) (impl : KSocketImpl) :
    ((m.store x r').make impl).2.store x r = (m.make impl).2.store x r := by
  unfold make
  split <;> simp [store, storeImpl, record]

theorem Owned.accepting (h : Owned m) (accepting : List Nat) : Owned { m with accepting := accepting } :=
  ⟨h.accounted, h.live, h.alone, h.held, h.made_lt⟩

theorem Owned.destroy (h : Owned m) (hs : m.destroy x = some m') : Owned m' := by
  obtain ⟨o, hx, hs⟩ := Option.bind_eq_some_iff.1 hs
  obtain ⟨m₁, hdelete, hs⟩ := Option.bind_eq_some_iff.1 hs
  cases hs
  rw [← pointer_of_objects hx] at hdelete
  exact h.delete hdelete rfl

theorem Owned.setup (h : Owned m) {newImpl : Bool} {bsdSocket : Creation → (domain type proto : Int) → Int}
    {sock_type : KSocketType} {proto : Int} (hs : m.setup x newImpl bsdSocket sock_type proto = some m') :
    Owned m' := by
  obtain ⟨o, hx, hs⟩ := Option.bind_eq_some_iff.1 hs
  obtain ⟨k, -, hs⟩ := Option.bind_eq_some_iff.1 hs
  obtain ⟨m₁, hdelete, hs⟩ := Option.bind_eq_some_iff.1 hs
  rw [← pointer_of_objects hx] at hdelete
  dsimp only at hs
  split at hs
  · cases hs
    exact h.delete hdelete rfl
  · rename_i impl _
    cases hs
    have hfree : Owned (m₁.store x none) := h.delete hdelete rfl
    have hx : (m₁.store x none).pointer x = none := by simp [pointer, store]
    rw [← m₁.make_store_store x none]
    exact hfree.make hx impl rfl

theorem use_objects (m : Memory) (q : Option Nat) (k : KSocket) : (m.use q k).objects = m.objects := by
  unfold use
  split <;> rfl

/-- A method uses the descriptor of a valid socket, and leaves the pointer. -/
theorem Owned.use_store (h : Owned m) (hx : m.objects x = some o) (hload : m.load o = some k) (hv : k.valid = true)
    (k' : KSocket) : Owned ((m.use o.m_socket k).store x (some (.ofKSocket k' o.m_socket))) := by
  refine (h.use hload hv).store_same (Eq.symm ?_)
  rw [pointer, use_objects, hx]
  rfl

/-- `accept` comes to a socket only with a valid one. -/
theorem valid_of_acceptSocket {newImpl : Bool} {bsdAccept : (s : Int) → Int × SOCKADDR}
    (hka : (k.acceptSocket newImpl bsdAccept).2.1.m_socket = some impl) : k.valid = true := by
  by_contra hv
  simp [KSocket.acceptSocket, KSocket.sanityCheck, hv, KSocket.newAccepted, KSocket.new] at hka

theorem Owned.accept (h : Owned m) {y : Nat} {newImpl : Bool} {bsdAccept : (s : Int) → Int × SOCKADDR}
    (hs : m.accept x y newImpl bsdAccept = some m') : Owned m' := by
  obtain ⟨o, hx, hs⟩ := Option.bind_eq_some_iff.1 hs
  obtain ⟨k, hload, hs⟩ := Option.bind_eq_some_iff.1 hs
  split at hs
  · cases hs
  rename_i hy
  replace hy : m.objects y = none := by simpa using hy
  dsimp only at hs
  split at hs
  · cases hs
    exact h.store_same (pointer_of_objects hx).symm
  rename_i impl hka
  have hused := h.use_store hx hload (valid_of_acceptSocket hka) (k.acceptSocket newImpl bsdAccept).2.2
  have hyx : y ≠ x := by
    rintro rfl
    cases hx.symm.trans hy
  have hfree : ((m.use o.m_socket k).store x
      (some (.ofKSocket (k.acceptSocket newImpl bsdAccept).2.2 o.m_socket))).pointer y = none := by
    rw [pointer_store, Function.update_of_ne hyx, pointer, use_objects, hy]
    rfl
  have hmade := hused.make hfree impl
    (r := some (.ofKSocket (k.acceptSocket newImpl bsdAccept).2.1.toKSocket (some _))) rfl
  split at hs
  · cases hs
    exact hmade.accepting _
  · exact hmade.destroy hs

/-- What `close` does to a descriptor that it can close. -/
theorem close_of_valid {bsdClosesocket : (s : Int) → Int} (hv : k.valid = true)
    (hclosed : bsdClosesocket k.impl.s = 0) :
    (k.close bsdClosesocket).2.m_socket = some { k.impl with s := -1 } := by
  rw [KSocket.close_eq, if_pos hv, if_pos hclosed]

theorem close_of_invalid {bsdClosesocket : (s : Int) → Int} (hv : k.valid = false) :
    (k.close bsdClosesocket).2.m_socket = k.m_socket := by
  rw [KSocket.close_eq, hv]
  rfl

theorem toKSocket_valid (o : Object) (impl : KSocketImpl) :
    (o.toKSocket (some impl)).valid = decide (0 ≤ impl.s) := rfl

theorem Owned.closeMethod (h : Owned m) {bsdClosesocket : (s : Int) → Int}
    (hspared : Spared m (.close x bsdClosesocket)) (hs : m.close x bsdClosesocket = some m') : Owned m' := by
  obtain ⟨o, hx, hs⟩ := Option.bind_eq_some_iff.1 hs
  obtain ⟨k, hload, hs⟩ := Option.bind_eq_some_iff.1 hs
  have hspared : k.valid = true → bsdClosesocket k.impl.s = 0 := hspared k (by simp [hx, hload])
  have hstored := h.store_same (r := some (.ofKSocket (k.close bsdClosesocket).2 o.m_socket))
    (pointer_of_objects hx).symm
  split at hs
  · cases hs
    exact hstored
  rename_i p hp
  rw [load, hp] at hload
  obtain ⟨impl, himpl, rfl⟩ := Option.map_eq_some_iff.1 hload
  cases hs
  cases hv : (o.toKSocket (some impl)).valid with
  | true =>
    rw [close_of_valid hv (hspared hv), if_pos rfl]
    rw [toKSocket_valid, decide_eq_true_iff] at hv
    exact hstored.close himpl hv
  | false =>
    rw [close_of_invalid hv]
    exact (storeImpl_same (m := m.store x _) himpl).symm ▸ hstored

theorem valid_of_usesFd {o : KSocket.Operation} (h : usesFd k o = some true) : k.valid = true := by
  cases o <;> simp_all [usesFd]

theorem Owned.method (h : Owned m) {o' : KSocket.Operation} (hs : m.method x o' = some m') : Owned m' := by
  obtain ⟨o, hx, hs⟩ := Option.bind_eq_some_iff.1 hs
  obtain ⟨k, hload, hs⟩ := Option.bind_eq_some_iff.1 hs
  obtain ⟨uses, huses, hs⟩ := Option.bind_eq_some_iff.1 hs
  obtain ⟨r, hr, hs⟩ := Option.bind_eq_some_iff.1 hs
  cases hs
  cases uses with
  | false => exact h.store_same (pointer_of_objects hx).symm
  | true => exact h.use_store hx hload (valid_of_usesFd huses) r.2

theorem Owned.assign (h : Owned m) {y : Nat} (hspared : Spared m (.assign x y)) (hs : m.assign x y = some m') :
    Owned m' := by
  obtain ⟨o, hx, hs⟩ := Option.bind_eq_some_iff.1 hs
  obtain ⟨o', hy, hs⟩ := Option.bind_eq_some_iff.1 hs
  cases hs
  obtain rfl | ⟨hnone, hlost⟩ := hspared
  · exact h.store_same (pointer_of_objects hy).symm
  · rw [pointer_of_objects hy] at hnone
    refine h.store_none hnone ?_
    intro p hp
    obtain ⟨impl, himpl⟩ := Option.isSome_iff_exists.1 (h.live x p hp)
    have hload : m.load o = some (o.toKSocket (some impl)) := by
      rw [pointer_of_objects hx] at hp
      simp [load, hp, himpl]
    have hv := hlost (o.toKSocket (some impl)) (by simp [hx, hload])
    rw [toKSocket_valid, decide_eq_false_iff_not] at hv
    simp [opened, himpl, fdOf, hv]

theorem Owned.step {a : Action} (h : Owned m) (hspared : Spared m a) (hs : m.step a = some m') : Owned m' := by
  cases a with
  | construct x =>
    replace hs : m.construct x = some m' := hs
    unfold Memory.construct at hs
    split at hs
    · cases hs
      refine h.store_same (Eq.symm ?_)
      simp [pointer, Object.ofKSocket, *]
    · cases hs
  | setup x newImpl bsdSocket sock_type proto => exact h.setup hs
  | accept x y newImpl bsdAccept => exact h.accept hs
  | acceptReturns =>
    replace hs : m.acceptReturns = some m' := hs
    unfold acceptReturns at hs
    split at hs
    · cases hs
    · exact (h.accepting _).destroy hs
  | close x bsdClosesocket => exact h.closeMethod hspared hs
  | method x o => exact h.method hs
  | assign x y => exact h.assign hspared hs
  | destroy x =>
    replace hs : (if x ∈ m.accepting then none else m.destroy x) = some m' := hs
    split at hs
    · cases hs
    · exact h.destroy hs

/-- In a run in which `closesocket` does not fail in `close`, and no object that
matters is copied, each descriptor is closed once. -/
theorem each_closed_once (actions : List Action) (hspared : ∀ x ∈ Run.visits step init actions, Spared x.1 x.2)
    (h : Run.exec step init actions = some m) : ClosedOnce m :=
  (Run.exec_inv_of_visits (fun _ _ _ hm hspared hs => Owned.step hm hspared hs) owned_init hspared h).closedOnce

/-- A listener is set up twice and accepts a socket, and is closed before it is
destroyed. -/
theorem listener_closed_once : ∃ m, Run.exec step init
    [.construct 0, .setup 0 true (fun _ _ _ _ => 3) .KST_STREAM_SERVER_IP4 6,
      .setup 0 true (fun _ _ _ _ => 4) .KST_STREAM_SERVER_IP4 6, .accept 0 1 true (fun _ => (3, ⟨2, 80, 0⟩)),
      .acceptReturns, .close 0 (fun _ => 0), .destroy 0] = some m ∧
    m.history = [.obtained 0 3, .closed 0 3, .obtained 1 4, .used 1 4, .obtained 2 3, .closed 2 3, .closed 1 4] ∧
    ClosedOnce m := by
  have hrun : (Run.exec step init
      [.construct 0, .setup 0 true (fun _ _ _ _ => 3) .KST_STREAM_SERVER_IP4 6,
        .setup 0 true (fun _ _ _ _ => 4) .KST_STREAM_SERVER_IP4 6, .accept 0 1 true (fun _ => (3, ⟨2, 80, 0⟩)),
        .acceptReturns, .close 0 (fun _ => 0), .destroy 0]).map (·.history) =
      some [.obtained 0 3, .closed 0 3, .obtained 1 4, .used 1 4, .obtained 2 3, .closed 2 3, .closed 1 4] := by
    decide
  obtain ⟨m, hm, hhistory⟩ := Option.map_eq_some_iff.1 hrun
  exact ⟨m, hm, hhistory, each_closed_once _ (by decide) hm⟩

/-- `closesocket` gives up the descriptor and reports a failure. `close` keeps
it, and the destructor closes it once more. -/
theorem failed_close_repeated : ∃ m, Run.exec step init
    [.construct 0, .setup 0 true (fun _ _ _ _ => 3) .KST_STREAM_CLIENT_IP4 6, .close 0 (fun _ => -1), .destroy 0] =
      some m ∧
    m.history = [.obtained 0 3, .closed 0 3, .closed 0 3] ∧ ¬ClosedOnce m := by
  have hrun : (Run.exec step init
      [.construct 0, .setup 0 true (fun _ _ _ _ => 3) .KST_STREAM_CLIENT_IP4 6, .close 0 (fun _ => -1),
        .destroy 0]).map (·.history) = some [.obtained 0 3, .closed 0 3, .closed 0 3] := by
    decide
  obtain ⟨m, hm, hhistory⟩ := Option.map_eq_some_iff.1 hrun
  refine ⟨m, hm, hhistory, ?_⟩
  intro hclosed
  have hlast := hclosed.last
  rw [hhistory] at hlast
  simp [ClosedLast, HandleEvent.isClosed, HandleEvent.number] at hlast

end Memory

end KSock
