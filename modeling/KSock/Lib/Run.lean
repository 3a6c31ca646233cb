import Mathlib.Tactic.Common
import Mathlib.Data.List.Basic
/-!
# Runs of a step function

A component is a partial step function: `step s e = none` when the event `e`
cannot happen in `s`, or does not return. A run is a list of events, and
`visits` lists the states and events it goes through.

Three rules carry the invariants. `exec_inv`: what every step keeps holds in the
last state. `exec_inv_of_visits`: so does what every step keeps that meets a
guard, if all steps of the run meet it. `visits_iff`: where a step is right
exactly when it meets a guard, a run is right at every step exactly when every
step of it meets the guard.
-/

namespace KSockLib.Run

variable {S E : Type} (step : S → E → Option S)

/-- The state after the events, if each of them can happen. -/
def exec : S → List E → Option S
  | s, [] => some s
  | s, e :: es => (step s e).bind (exec · es)

/-- The states of the run, each with the event tried there; the run ends at
the first event that cannot happen. -/
def visits : S → List E → List (S × E)
  | _, [] => []
  | s, e :: es => (s, e) :: ((step s e).elim [] (visits · es))

variable {step}

@[simp] theorem exec_nil (s : S) : exec step s [] = some s := rfl

theorem exec_cons (s : S) (e : E) (es : List E) : exec step s (e :: es) = (step s e).bind (exec step · es) := rfl

theorem visits_cons (s : S) (e : E) (es : List E) :
    visits step s (e :: es) = (s, e) :: ((step s e).elim [] (visits step · es)) := rfl

/-- The events that are visited are events of the run. -/
theorem mem_of_visits {s : S} {es : List E} {x : S × E} (h : x ∈ visits step s es) : x.2 ∈ es := by
  induction es generalizing s with
  | nil => cases h
  | cons e es ih =>
    rw [visits_cons] at h
    rcases List.mem_cons.1 h with rfl | h
    · exact List.mem_cons_self
    · cases hs : step s e with
      | none =>
        rw [hs] at h
        cases h
      | some t =>
        rw [hs] at h
        exact List.mem_cons_of_mem _ (ih h)

/-- The state a prefix of the run leads to is visited. -/
theorem visits_of_exec {s t : S} {pre : List E} (e : E) (post : List E) (h : exec step s pre = some t) :
    (t, e) ∈ visits step s (pre ++ e :: post) := by
  induction pre generalizing s with
  | nil =>
    cases h
    exact List.mem_cons_self
  | cons d pre ih =>
    rw [exec_cons] at h
    obtain ⟨u, hu, h⟩ := Option.bind_eq_some_iff.1 h
    rw [List.cons_append, visits_cons, hu]
    exact List.mem_cons_of_mem _ (ih h)

/-- What holds at first and is kept by every step holds in the last state. -/
theorem exec_inv {I : S → Prop} (hstep : ∀ s e s', I s → step s e = some s' → I s') {s t : S} {es : List E}
    (h0 : I s) (h : exec step s es = some t) : I t := by
  induction es generalizing s with
  | nil => cases h; exact h0
  | cons e es ih =>
    obtain ⟨u, hu, h⟩ := Option.bind_eq_some_iff.1 h
    exact ih (hstep s e u h0 hu) h

/-- What holds at first and is kept by every step that meets the guard holds in
the last state of a run whose steps all meet it. -/
theorem exec_inv_of_visits {I : S → Prop} {G : S → E → Prop}
    (hstep : ∀ s e s', I s → G s e → step s e = some s' → I s') {s t : S} {es : List E} (h0 : I s)
    (hG : ∀ x ∈ visits step s es, G x.1 x.2) (h : exec step s es = some t) : I t := by
  induction es generalizing s with
  | nil => cases h; exact h0
  | cons e es ih =>
    obtain ⟨u, hu, h⟩ := Option.bind_eq_some_iff.1 h
    rw [visits_cons, List.forall_mem_cons, hu] at hG
    exact ih (hstep s e u h0 hG.1 hu) hG.2 h

/-- If every step appends something to a list kept in the state, a run appends
what its steps do, one after another. -/
theorem exec_appends {α : Type} {I : S → Prop} {f : S → List α} {g : S → E → List α} {G : S → E → Prop}
    (hstep : ∀ s e s', I s → G s e → step s e = some s' → I s' ∧ f s' = f s ++ g s e) {s t : S} {es : List E}
    (h0 : I s) (hG : ∀ x ∈ visits step s es, G x.1 x.2) (h : exec step s es = some t) :
    f t = f s ++ (visits step s es).flatMap fun x => g x.1 x.2 := by
  induction es generalizing s with
  | nil =>
    cases h
    simp [visits]
  | cons e es ih =>
    obtain ⟨u, hu, h⟩ := Option.bind_eq_some_iff.1 h
    rw [visits_cons, List.forall_mem_cons, hu] at hG
    obtain ⟨hI, hf⟩ := hstep s e u h0 hG.1 hu
    rw [ih hI hG.2 h, hf, visits_cons, hu, List.flatMap_cons, List.append_assoc]
    rfl

/-- Where a step from a good state is right exactly when it meets the guard,
and a right step leads to a good state, a run is right at every step exactly
when each of its steps meets the guard. -/
theorem visits_iff {I : S → Prop} {Q G : S → E → Prop} (hQG : ∀ s e, I s → (Q s e ↔ G s e))
    (hQI : ∀ s e s', I s → Q s e → step s e = some s' → I s') {s : S} (h0 : I s) (es : List E) :
    (∀ x ∈ visits step s es, Q x.1 x.2) ↔ ∀ x ∈ visits step s es, G x.1 x.2 := by
  induction es generalizing s with
  | nil => simp [visits]
  | cons e es ih =>
    rw [visits_cons, List.forall_mem_cons, List.forall_mem_cons, hQG s e h0]
    refine and_congr_right fun hg => ?_
    cases ht : step s e with
    | none => simp
    | some t => exact ih (hQI s e t h0 ((hQG s e h0).2 hg) ht)

end KSockLib.Run
