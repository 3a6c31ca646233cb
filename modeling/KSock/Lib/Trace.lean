import Mathlib.Tactic.Common
import Mathlib.Data.List.Basic
/-!
# Events and their history

`Along Q tr`: every event of the trace `tr` is right (`Q`) given the events
before it. A proof follows the trace: the first event is right with no history,
and it is part of the history of the others. `Along.of_mem` is for users.
-/

namespace KSockLib.Trace

variable {E : Type}

/-- Every event is right given its history. -/
inductive Along : (Q : List E → E → Prop) → List E → Prop where
  | nil {Q : List E → E → Prop} : Along Q []
  | cons {Q : List E → E → Prop} {e : E} {tr : List E} (head : Q [] e) (tail : Along (fun pre => Q (e :: pre)) tr) :
      Along Q (e :: tr)

theorem Along.of_append {Q : List E → E → Prop} {pre post : List E} {e : E} (h : Along Q (pre ++ e :: post)) :
    Q pre e := by
  induction pre generalizing Q with
  | nil =>
    cases h with
    | cons head _ => exact head
  | cons d pre ih =>
    cases h with
    | cons _ tail => exact ih tail

theorem Along.of_mem {Q : List E → E → Prop} {e : E} {tr : List E} (h : Along Q tr) (he : e ∈ tr) :
    ∃ pre, Q pre e := by
  obtain ⟨pre, post, rfl⟩ := List.append_of_mem he
  exact ⟨pre, h.of_append⟩

theorem Along.mono {Q Q' : List E → E → Prop} {tr : List E} (h : Along Q tr) (hQ : ∀ pre e, Q pre e → Q' pre e) :
    Along Q' tr := by
  induction h generalizing Q' with
  | nil => exact .nil
  | @cons Q e tr head _ ih => exact .cons (hQ [] e head) (ih fun pre e' => hQ (e :: pre) e')

end KSockLib.Trace
