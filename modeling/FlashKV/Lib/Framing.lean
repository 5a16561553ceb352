import Mathlib.Data.List.Infix

/-!
# Frames in a stream

A stream of frames arrives in pieces that are cut anywhere, and a reader has to take the frames off
it. `measure` says how long the frame at a position of the buffer is, `0` if it is not complete yet,
and it may refuse the buffer. If it tells the frames of a language from their beginnings, it finds
each frame of the stream as soon as it is complete, and it never refuses what has arrived.
-/

namespace Framing

variable {α : Type}

/-- `measure` tells the frames of the language: it finds a frame whatever stands around it, and
nothing in the beginning of one. -/
structure Measures (measure : List α → Nat → Option Nat) (IsFrame : List α → Prop) : Prop where
  nonempty : ∀ frame, IsFrame frame → frame ≠ []
  nothing : ∀ before, measure before before.length = some 0
  complete : ∀ before frame rest, IsFrame frame →
    measure (before ++ (frame ++ rest)) before.length = some frame.length
  cut : ∀ before text frame, IsFrame frame → text <+: frame → text ≠ frame →
    measure (before ++ text) before.length = some 0

variable {measure : List α → Nat → Option Nat} {IsFrame : List α → Prop}

/-- The next frame is found, or it has not arrived yet. -/
lemma Measures.next (h : Measures measure IsFrame) {frames : List (List α)}
    (all : ∀ frame ∈ frames, IsFrame frame) (before : List α) {pending : List α}
    (arrived : pending <+: frames.flatten) :
    (∃ frame frames' pending', frames = frame :: frames' ∧ pending = frame ++ pending' ∧
      frame ≠ [] ∧ measure (before ++ pending) before.length = some frame.length) ∨
    measure (before ++ pending) before.length = some 0 := by
  cases frames with
  | nil =>
    rw [List.prefix_nil.mp arrived, List.append_nil]
    exact .inr (h.nothing before)
  | cons frame frames =>
    have isFrame : IsFrame frame := all frame List.mem_cons_self
    rw [List.flatten_cons] at arrived
    by_cases complete : frame <+: pending
    · obtain ⟨pending, rfl⟩ := complete
      exact .inl ⟨frame, frames, pending, rfl, rfl, h.nonempty frame isFrame,
        h.complete before frame pending isFrame⟩
    · have short : pending <+: frame :=
        (List.prefix_or_prefix_of_prefix arrived (List.prefix_append _ _)).resolve_right complete
      have strict : pending ≠ frame := by
        rintro rfl
        exact complete List.prefix_rfl
      exact .inr (h.cut before pending frame isFrame short strict)

end Framing
