import Mathlib.Data.List.AList
import Mathlib.Tactic

/-!
# Finite maps as association lists

`AList` is used for every hash table of the development. This module adds what the proofs need on
top of Mathlib: lookups after an update as one conditional equation, and the sum of a weight over
all bindings (`AList.sumBy`), with the equations that say how insertion and removal change it.
-/

namespace AList

variable {α : Type*} {β : Type*} [DecidableEq α]

/-- Lookup after an insertion, at any key. -/
lemma lookup_insert_ite (a k : α) (b : β) (m : AList fun _ : α => β) :
    lookup a (insert k b m) = if a = k then some b else lookup a m := by
  split
  · rename_i h
    subst h
    exact lookup_insert m
  · rename_i h
    exact lookup_insert_ne h

lemma erase_entries (k : α) (m : AList fun _ : α => β) :
    (erase k m).entries = m.entries.kerase k := rfl

/-- Lookup after a removal, at any key. -/
lemma lookup_erase_ite (a k : α) (m : AList fun _ : α => β) :
    lookup a (erase k m) = if a = k then none else lookup a m := by
  split
  · rename_i h
    subst h
    exact lookup_erase a m
  · rename_i h
    exact lookup_erase_ne h

/-- A key is bound exactly when its lookup succeeds. -/
lemma mem_iff_lookup {a : α} {m : AList fun _ : α => β} : a ∈ m ↔ ∃ b, lookup a m = some b := by
  rw [← lookup_isSome, Option.isSome_iff_exists]

/-- The sum of a weight over all bindings of a map. -/
def sumBy (f : α → β → Nat) (m : AList fun _ : α => β) : Nat :=
  (m.entries.map fun e => f e.1 e.2).sum

omit [DecidableEq α] in
@[simp]
lemma sumBy_empty (f : α → β → Nat) : sumBy f (∅ : AList fun _ : α => β) = 0 := rfl

/-- Insertion replaces the weight of the key's former binding. -/
lemma sumBy_insert (f : α → β → Nat) (k : α) (b : β) (m : AList fun _ : α => β) :
    sumBy f (insert k b m) = f k b + sumBy f (erase k m) := by
  simp [sumBy, entries_insert, erase_entries]

/-- The weight of a map splits off the binding of a present key. -/
lemma sumBy_erase (f : α → β → Nat) {k : α} {b : β} {m : AList fun _ : α => β}
    (h : lookup k m = some b) : sumBy f m = f k b + sumBy f (erase k m) := by
  have mem : (⟨k, b⟩ : Sigma fun _ : α => β) ∈ m.entries := mem_lookup_iff.mp h
  obtain ⟨b', l₁, l₂, hk, e, e'⟩ := List.exists_of_kerase (List.mem_keys_of_mem mem)
  have hb : b' = b := by
    have nd := m.nodupKeys
    have mem' : (⟨k, b'⟩ : Sigma fun _ : α => β) ∈ m.entries := by simp [e]
    exact List.NodupKeys.eq_of_mk_mem nd mem' mem
  subst hb
  have whole : sumBy f m = ((l₁ ++ ⟨k, b'⟩ :: l₂).map fun e => f e.1 e.2).sum := by
    rw [sumBy, e]
  have rest : sumBy f (erase k m) = ((l₁ ++ l₂).map fun e => f e.1 e.2).sum := by
    exact congrArg (fun l : List (Sigma fun _ : α => β) => (l.map fun e => f e.1 e.2).sum) e'
  rw [whole, rest]
  simp only [List.map_append, List.map_cons, List.sum_append, List.sum_cons]
  omega

/-- Removal of an absent key leaves the weight alone. -/
lemma sumBy_erase_absent (f : α → β → Nat) {k : α} {m : AList fun _ : α => β}
    (h : lookup k m = none) : sumBy f (erase k m) = sumBy f m := by
  have h : k ∉ m.entries.keys := lookup_eq_none.mp h
  rw [sumBy, erase_entries, List.kerase_of_notMem_keys h, sumBy]

/-- A binding weighs at most as much as the whole map. -/
lemma le_sumBy (f : α → β → Nat) {k : α} {b : β} {m : AList fun _ : α => β}
    (h : lookup k m = some b) : f k b ≤ sumBy f m := by
  rw [sumBy_erase f h]
  omega

/-- Bindings of different keys weigh at most as much as the whole map. -/
lemma sum_le_sumBy {γ : Type*} (f : α → β → Nat) (weight : α × γ → Nat) {l : List (α × γ)}
    {m : AList fun _ : α => β} (nodup : (l.map Prod.fst).Nodup)
    (bound : ∀ p ∈ l, ∃ b, lookup p.1 m = some b ∧ weight p ≤ f p.1 b) :
    (l.map weight).sum ≤ sumBy f m := by
  induction l generalizing m with
  | nil => exact Nat.zero_le _
  | cons p l ih =>
    obtain ⟨absent, nodup⟩ := List.nodup_cons.mp nodup
    obtain ⟨⟨b, present, le⟩, others⟩ := List.forall_mem_cons.mp bound
    have rest : (l.map weight).sum ≤ sumBy f (erase p.1 m) := by
      refine ih nodup fun q mem => ?_
      obtain ⟨b, present, le⟩ := others q mem
      have other : q.1 ≠ p.1 := fun same => absent (same ▸ List.mem_map_of_mem mem)
      exact ⟨b, by rw [lookup_erase_ite, if_neg other, present], le⟩
    rw [List.map_cons, List.sum_cons, sumBy_erase f present]
    omega

end AList
