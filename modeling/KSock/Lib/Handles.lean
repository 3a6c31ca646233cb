import Mathlib.Data.List.Basic
import KSock.Lib.Slots
/-!
# Handles and their history

A history of handles that are obtained, used and closed. Handles may be used
again, so each time one is obtained it gets a number.

`Accounted made opened history` says of the numbers below `made` which are open
and with which handle, and that the history is right: what is open was obtained,
is used and closed only then, and not closed before. A step of a program keeps
it if it uses and closes only what is open. Where nothing is open, everything
that was obtained has been closed, once.
-/

namespace KSockLib

variable {φ : Type}

inductive HandleEvent (φ : Type) where
  | obtained (n : Nat) (h : φ)
  | used (n : Nat) (h : φ)
  | closed (n : Nat) (h : φ)
  deriving DecidableEq, Repr

namespace HandleEvent

def number : HandleEvent φ → Nat
  | obtained n _ | used n _ | closed n _ => n

def handle : HandleEvent φ → φ
  | obtained _ h | used _ h | closed _ h => h

def isClosed : HandleEvent φ → Bool
  | closed _ _ => true
  | _ => false

end HandleEvent

open HandleEvent

/-- After a handle has been closed there is nothing about it. -/
def ClosedLast (history : List (HandleEvent φ)) : Prop :=
  history.Pairwise fun e e' => e.isClosed = true → e'.number ≠ e.number

structure Accounted (made : Nat) (opened : Nat → Option φ) (history : List (HandleEvent φ)) : Prop where
  number_lt : ∀ e ∈ history, e.number < made
  own : ∀ e ∈ history, obtained e.number e.handle ∈ history
  last : ClosedLast history
  open_lt : ∀ n h, opened n = some h → n < made
  opened_obtained : ∀ n h, opened n = some h → obtained n h ∈ history
  closed_not_opened : ∀ e ∈ history, e.isClosed = true → opened e.number = none
  obtained_closed : ∀ n h, obtained n h ∈ history → closed n h ∈ history ∨ opened n = some h

namespace Accounted

variable {made : Nat} {opened : Nat → Option φ} {history : List (HandleEvent φ)} {n : Nat} {h : φ}

theorem start : Accounted 0 (fun _ => none) ([] : List (HandleEvent φ)) := by
  constructor <;> simp [ClosedLast]

/-- A number without a handle. -/
theorem skip (ha : Accounted made opened history) : Accounted (made + 1) opened history :=
  { ha with
    number_lt := fun e he => Nat.lt_succ_of_lt (ha.number_lt e he)
    open_lt := fun n h hn => Nat.lt_succ_of_lt (ha.open_lt n h hn) }

/-- Nothing about a handle that is open comes after its closing. -/
theorem last_append (ha : Accounted made opened history) {e : HandleEvent φ}
    (he : ∀ e' ∈ history, e'.isClosed = true → e.number ≠ e'.number) : ClosedLast (history ++ [e]) := by
  refine List.pairwise_append.2 ⟨ha.last, List.pairwise_singleton _ _, ?_⟩
  intro e' he' e'' he'' hclosed
  obtain rfl := List.mem_singleton.1 he''
  exact he e' he' hclosed

theorem obtain (ha : Accounted made opened history) (h : φ) :
    Accounted (made + 1) (Function.update opened made (some h)) (history ++ [obtained made h]) := by
  have hnew : ∀ e ∈ history, e.number ≠ made := fun e he => Nat.ne_of_lt (ha.number_lt e he)
  constructor
  · intro e he
    rcases List.mem_append.1 he with he | he
    · exact Nat.lt_succ_of_lt (ha.number_lt e he)
    · obtain rfl := List.mem_singleton.1 he
      exact Nat.lt_succ_self made
  · intro e he
    rcases List.mem_append.1 he with he | he
    · exact List.mem_append_left _ (ha.own e he)
    · obtain rfl := List.mem_singleton.1 he
      exact List.mem_append_right _ (List.mem_singleton.2 rfl)
  · exact ha.last_append fun e he _ => (hnew e he).symm
  · intro n h' hn
    rcases Slots.of_fill hn with ⟨rfl, -⟩ | hn
    · exact Nat.lt_succ_self n
    · exact Nat.lt_succ_of_lt (ha.open_lt n h' hn)
  · intro n h' hn
    rcases Slots.of_fill hn with ⟨rfl, rfl⟩ | hn
    · exact List.mem_append_right _ (List.mem_singleton.2 rfl)
    · exact List.mem_append_left _ (ha.opened_obtained n h' hn)
  · intro e he hclosed
    rcases List.mem_append.1 he with he | he
    · rw [Function.update_of_ne (hnew e he)]
      exact ha.closed_not_opened e he hclosed
    · obtain rfl := List.mem_singleton.1 he
      cases hclosed
  · intro n h' hn
    rcases List.mem_append.1 hn with hn | hn
    · have hne : n ≠ made := hnew _ hn
      rw [Function.update_of_ne hne]
      exact (ha.obtained_closed n h' hn).imp_left (List.mem_append_left _)
    · cases List.mem_singleton.1 hn
      exact .inr (Function.update_self _ _ _)

/-- An open handle is not the one of a closing. -/
theorem ne_of_closed (ha : Accounted made opened history) (hn : opened n = some h) :
    ∀ e ∈ history, e.isClosed = true → n ≠ e.number := by
  rintro e he hclosed rfl
  rw [ha.closed_not_opened e he hclosed] at hn
  cases hn

theorem use (ha : Accounted made opened history) (hn : opened n = some h) :
    Accounted made opened (history ++ [used n h]) where
  number_lt e he := by
    rcases List.mem_append.1 he with he | he
    · exact ha.number_lt e he
    · obtain rfl := List.mem_singleton.1 he
      exact ha.open_lt n h hn
  own e he := by
    rcases List.mem_append.1 he with he | he
    · exact List.mem_append_left _ (ha.own e he)
    · obtain rfl := List.mem_singleton.1 he
      exact List.mem_append_left _ (ha.opened_obtained n h hn)
  last := ha.last_append (ha.ne_of_closed hn)
  open_lt := ha.open_lt
  opened_obtained n h hn := List.mem_append_left _ (ha.opened_obtained n h hn)
  closed_not_opened e he hclosed := by
    rcases List.mem_append.1 he with he | he
    · exact ha.closed_not_opened e he hclosed
    · obtain rfl := List.mem_singleton.1 he
      cases hclosed
  obtained_closed n h hn := by
    rcases List.mem_append.1 hn with hn | hn
    · exact (ha.obtained_closed n h hn).imp_left (List.mem_append_left _)
    · cases List.mem_singleton.1 hn

theorem close (ha : Accounted made opened history) (hn : opened n = some h) :
    Accounted made (Function.update opened n none) (history ++ [closed n h]) where
  number_lt e he := by
    rcases List.mem_append.1 he with he | he
    · exact ha.number_lt e he
    · obtain rfl := List.mem_singleton.1 he
      exact ha.open_lt n h hn
  own e he := by
    rcases List.mem_append.1 he with he | he
    · exact List.mem_append_left _ (ha.own e he)
    · obtain rfl := List.mem_singleton.1 he
      exact List.mem_append_left _ (ha.opened_obtained n h hn)
  last := ha.last_append (ha.ne_of_closed hn)
  open_lt m h' hm := ha.open_lt m h' (Slots.of_empty hm).2
  opened_obtained m h' hm := List.mem_append_left _ (ha.opened_obtained m h' (Slots.of_empty hm).2)
  closed_not_opened e he hclosed := by
    rw [Function.update_apply]
    split
    · rfl
    rcases List.mem_append.1 he with he | he
    · exact ha.closed_not_opened e he hclosed
    · obtain rfl := List.mem_singleton.1 he
      exact absurd rfl ‹_›
  obtained_closed m h' hm := by
    rcases List.mem_append.1 hm with hm | hm
    · rcases ha.obtained_closed m h' hm with hclosed | hopen
      · exact .inl (List.mem_append_left _ hclosed)
      · by_cases hmn : m = n
        · subst hmn
          obtain rfl := Option.some.inj (hopen.symm.trans hn)
          exact .inl (List.mem_append_right _ (List.mem_singleton.2 rfl))
        · exact .inr ((Function.update_of_ne hmn _ _).trans hopen)
    · cases List.mem_singleton.1 hm

theorem all_closed (ha : Accounted made opened history) (hnone : ∀ n, opened n = none) (hn : obtained n h ∈ history) :
    closed n h ∈ history := by
  rcases ha.obtained_closed n h hn with hclosed | hopen
  · exact hclosed
  · rw [hnone n] at hopen
    cases hopen

end Accounted

end KSockLib
