import Mathlib.Data.List.Basic
import Mathlib.Tactic

/-!
# Invariants of runs under a clock

A run folds a sequence of events into a state; every event has a clock reading and the readings
never decrease. An invariant that may speak about the events so far is proved once per event,
knowing that the event is not before the earlier ones, and what is assumed of each event in the
state it meets.
-/

namespace List

variable {α β : Type} {f : β → α → β} {start : β} {reading : α → Int} {A : α → β → Prop}
  {I : List α → β → Prop}

/-- What holds initially and is kept by each event of a run under a nondecreasing clock holds after
the run. -/
lemma foldl_timed_induction (init : I [] start)
    (step : ∀ xs x b, (∀ y ∈ xs, reading y ≤ reading x) → A x b → I xs b → I (xs ++ [x]) (f b x))
    (xs : List α) (clock : (xs.map reading).Pairwise (· ≤ ·))
    (each : ∀ before x after, xs = before ++ x :: after → A x (before.foldl f start)) :
    I xs (xs.foldl f start) := by
  induction xs using List.reverseRecOn with
  | nil => exact init
  | append_singleton xs x ih =>
    rw [map_append, pairwise_append] at clock
    rw [foldl_append]
    refine step xs x _ ?_ (each xs x [] rfl) (ih clock.1 ?_)
    · exact fun y mem => clock.2.2 (reading y) (mem_map_of_mem mem) (reading x) (by simp)
    · intro before y after split
      exact each before y (after ++ [x]) (by rw [split]; simp)

end List
