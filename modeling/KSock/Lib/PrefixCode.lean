import Mathlib.Tactic.Common
import Mathlib.Data.List.Basic
/-!
# Self-delimiting messages

A prefix code: messages encoded so that no encoding can be mistaken for the
start of another one, whatever follows it. A stream is the concatenation of
encodings, and the messages can be read off its front one at a time.

`uncons_stream` is the step of a reader: a word at the front of a stream is its
first one, and what follows is the front of the rest. The other two lemmas
compare a prefix of a stream with the words it holds.
-/

namespace KSockLib

/-- An encoding whose words can be told apart from whatever follows them. -/
structure PrefixCode (M α : Type) where
  enc : M → List α
  pos : ∀ m, enc m ≠ []
  split : ∀ {m m' x y}, enc m ++ x = enc m' ++ y → m = m'

namespace PrefixCode

variable {M α : Type} (C : PrefixCode M α)

/-- The messages, one after another. -/
def stream (ms : List M) : List α := ms.flatMap C.enc

/-- A piece that is exactly one word. -/
def IsWord (p : List α) : Prop := ∃ m, p = C.enc m

@[simp] theorem stream_nil : C.stream [] = [] := rfl

@[simp] theorem stream_cons (m : M) (ms : List M) : C.stream (m :: ms) = C.enc m ++ C.stream ms := rfl

@[simp] theorem stream_append (ms ns : List M) : C.stream (ms ++ ns) = C.stream ms ++ C.stream ns := by
  simp [stream]

theorem split_eq {m m' : M} {x y : List α} (h : C.enc m ++ x = C.enc m' ++ y) : m = m' ∧ x = y := by
  have hm := C.split h
  subst hm
  exact ⟨rfl, List.append_cancel_left h⟩

theorem enc_pos (m : M) : 0 < (C.enc m).length := List.length_pos_iff.2 (C.pos m)

/-- A word at the front of a stream is the stream's first word. -/
theorem uncons_stream {m : M} {x : List α} {ms : List M} (h : C.enc m ++ x <+: C.stream ms) :
    ∃ rest, ms = m :: rest ∧ x <+: C.stream rest := by
  obtain ⟨y, hy⟩ := h
  rw [List.append_assoc] at hy
  cases ms with
  | nil => exact absurd (List.append_eq_nil_iff.1 hy).1 (C.pos m)
  | cons m' rest =>
    rw [stream_cons] at hy
    obtain ⟨rfl, hx⟩ := C.split_eq hy
    exact ⟨rest, rfl, y, hx⟩

/-- A prefix of a stream that is at least as long as its first `k` words
starts with them. -/
theorem stream_take_isPrefix {ms : List M} {s : List α} (h : s <+: C.stream ms) {k : Nat}
    (hk : (C.stream (ms.take k)).length ≤ s.length) : C.stream (ms.take k) <+: s := by
  have ht : C.stream (ms.take k) <+: C.stream ms := by
    refine ⟨C.stream (ms.drop k), ?_⟩
    rw [← stream_append, List.take_append_drop]
  exact List.prefix_of_prefix_length_le ht h hk

/-- Streams of fewer words are shorter. -/
theorem length_stream_take_lt {ms : List M} {j k : Nat} (hjk : j < k) (hk : k ≤ ms.length) :
    (C.stream (ms.take j)).length < (C.stream (ms.take k)).length := by
  have hs : ms.take k = ms.take j ++ (ms.take k).drop j := by
    conv_lhs => rw [← List.take_append_drop j (ms.take k)]
    rw [List.take_take, Nat.min_eq_left (Nat.le_of_lt hjk)]
  have hne : (ms.take k).drop j ≠ [] := by
    intro he
    have := List.drop_eq_nil_iff.1 he
    rw [List.length_take] at this
    omega
  obtain ⟨m, rest, hm⟩ := List.exists_cons_of_ne_nil hne
  have := C.enc_pos m
  rw [hs, hm, stream_append, stream_cons]
  simp only [List.length_append]
  omega

end PrefixCode

end KSockLib
