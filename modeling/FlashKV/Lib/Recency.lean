import Mathlib.Data.List.Basic
import Mathlib.Data.List.Nodup
import Mathlib.Logic.Function.Basic

/-!
# Recency lists

A recency list has the most recently used element in front. An element that is used moves to the
front, and elements leave from anywhere. `List.Disturbs` says which elements may have been involved
in such changes; `List.Recent` says that the order of the list is the order of the last uses.
-/

namespace List

variable {α : Type*}

section ToFront

variable [DecidableEq α] {a b : α} {l : List α}

/-- Move an element to the front, where it is put if it is not in the list. -/
def toFront (a : α) (l : List α) : List α :=
  a :: l.filter (· ≠ a)

/-- A new element. -/
lemma toFront_of_notMem (absent : a ∉ l) : l.toFront a = a :: l := by
  rw [toFront, filter_eq_self.mpr]
  intro b mem
  exact decide_eq_true fun e => absent (e ▸ mem)

end ToFront

section Disturbs

variable {K : α → Prop} [DecidablePred K] {l l' l'' : List α}

/-- Only elements with `K` have moved, and they have left or moved in front of all others. -/
structure Disturbs (K : α → Prop) [DecidablePred K] (l l' : List α) : Prop where
  moved : ∃ front rest, l' = front ++ rest ∧ (∀ a ∈ front, K a) ∧ rest.Sublist l
  others : l'.filter (¬ K ·) = l.filter (¬ K ·)

lemma Disturbs.refl (l : List α) : Disturbs K l l :=
  ⟨⟨[], l, rfl, fun _ mem => absurd mem not_mem_nil, .refl l⟩, rfl⟩

lemma Disturbs.trans (h : Disturbs K l l') (h' : Disturbs K l' l'') : Disturbs K l l'' := by
  obtain ⟨⟨front, rest, rfl, named, kept⟩, others⟩ := h
  obtain ⟨⟨front', rest', rfl, named', kept'⟩, others'⟩ := h'
  -- what is left of `front` still stands before what is left of `rest`
  obtain ⟨first, second, rfl, left, right⟩ := sublist_append_iff.mp kept'
  refine ⟨⟨front' ++ first, second, (append_assoc _ _ _).symm, ?_, right.trans kept⟩, ?_⟩
  · intro a mem
    rcases mem_append.mp mem with mem | mem
    · exact named' a mem
    · exact named a (left.subset mem)
  · exact others'.trans others

lemma Disturbs.drop [DecidableEq α] {a : α} (ok : K a) (l : List α) :
    Disturbs K l (l.filter (· ≠ a)) := by
  refine ⟨⟨[], _, rfl, fun _ mem => absurd mem not_mem_nil, filter_sublist⟩, ?_⟩
  rw [filter_filter]
  refine filter_congr fun b _ => ?_
  by_cases e : b = a
  · subst e
    simp [ok]
  · simp [e]

lemma Disturbs.toFront [DecidableEq α] {a : α} (ok : K a) (l : List α) :
    Disturbs K l (l.toFront a) := by
  obtain ⟨_, others⟩ := Disturbs.drop ok l
  refine ⟨⟨[a], _, rfl, fun b mem => ?_, filter_sublist⟩, ?_⟩
  · rw [mem_singleton.mp mem]
    exact ok
  · rw [List.toFront, filter_cons_of_neg (by simpa using ok), others]

/-- If one element is disturbed and is in front afterwards, the others have kept their order. -/
lemma Disturbs.tail [DecidableEq α] {a : α} (h : Disturbs (· = a) l (a :: l')) (once : a ∉ l') :
    l'.Sublist l := by
  obtain ⟨⟨front, rest, e, named, kept⟩, _⟩ := h
  cases front with
  | nil => exact (sublist_cons_self a l').trans (e ▸ kept)
  | cons b front =>
    obtain ⟨rfl, rfl⟩ := cons.inj e
    cases front with
    | nil => exact kept
    | cons c front =>
      -- the element would be there twice
      rw [named c (by simp)] at once
      exact absurd (by simp) once

/-- If it is gone, so have they. -/
lemma Disturbs.sublist [DecidableEq α] {a : α} (h : Disturbs (· = a) l l') (gone : a ∉ l') :
    l'.Sublist l := by
  obtain ⟨⟨front, rest, rfl, named, kept⟩, _⟩ := h
  cases front with
  | nil => exact kept
  | cons b front =>
    rw [named b (by simp)] at gone
    exact absurd (by simp) gone

end Disturbs

section Recent

variable {use : α → Nat} {l : List α}

/-- The elements stand in the order of their last uses, the latest first. -/
def Recent (use : α → Nat) (l : List α) : Prop :=
  l.Pairwise fun a b => use b < use a

lemma Recent.sublist {l' : List α} (h : Recent use l) (sub : l'.Sublist l) : Recent use l' :=
  Pairwise.sublist sub h

/-- The use of an element that is not in the list does not matter. -/
lemma Recent.update [DecidableEq α] (h : Recent use l) {a : α} (absent : a ∉ l) (time : Nat) :
    Recent (Function.update use a time) l := by
  have others : ∀ b ∈ l, Function.update use a time b = use b := by
    intro b mem
    have ne : b ≠ a := by
      rintro rfl
      exact absent mem
    exact Function.update_of_ne ne _ _
  refine h.imp_of_mem fun {b c} mem mem' less => ?_
  rwa [others b mem, others c mem']

/-- An element that is used later than all others is put in front. -/
lemma Recent.cons [DecidableEq α] (h : Recent use l) {a : α} (absent : a ∉ l) {time : Nat}
    (latest : ∀ b ∈ l, use b < time) : Recent (Function.update use a time) (a :: l) := by
  refine pairwise_cons.mpr ⟨fun b mem => ?_, h.update absent time⟩
  have ne : b ≠ a := by
    rintro rfl
    exact absent mem
  rw [Function.update_self, Function.update_of_ne ne]
  exact latest b mem

/-- The last element is the one that has not been used for the longest time. -/
lemma Recent.getLast (h : Recent use l) {a b : α} (last : l.getLast? = some a) (mem : b ∈ l) :
    b = a ∨ use a < use b := by
  obtain ⟨init, rfl⟩ := getLast?_eq_some_iff.mp last
  rcases mem_append.mp mem with mem | mem
  · exact .inr ((pairwise_append.mp h).2.2 b mem a (mem_singleton_self a))
  · exact .inl (mem_singleton.mp mem)

end Recent

end List
