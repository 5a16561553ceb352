import Mathlib.Data.List.Basic
import Mathlib.Tactic

/-!
# Removal from a vector by swap-and-pop

`List.swapPop i last l` overwrites position `i` with the vector's last element and drops the last
position: constant-time removal that does not keep the order. Its two facts are that it removes
exactly the element at position `i` (`swapPop_perm`) and that it moves no element but the last one
(`getElem?_swapPop_other`, `getElem?_swapPop_last`).
-/

namespace List

variable {α : Type*}

/-- Overwrite position `i` with `last` and drop the last position. -/
def swapPop (i : Nat) (last : α) (l : List α) : List α :=
  (l.set i last).dropLast

/-- Swap-and-pop removes the element at its position, up to order. -/
lemma swapPop_perm {l : List α} {i : Nat} {x last : α} (hx : l[i]? = some x)
    (hl : l.getLast? = some last) : l ~ x :: l.swapPop i last := by
  obtain ⟨init, rfl⟩ := getLast?_eq_some_iff.mp hl
  have lt : i < (init ++ [last]).length := (getElem?_eq_some_iff.mp hx).1
  rw [length_append, length_singleton] at lt
  unfold swapPop
  rcases Nat.lt_or_ge i init.length with h | h
  · rw [set_append_left _ _ h, dropLast_concat]
    rw [getElem?_append_left h] at hx
    have e : init = init.take i ++ x :: init.drop (i + 1) := by
      obtain ⟨_, e⟩ := getElem?_eq_some_iff.mp hx
      rw [← e, List.getElem_cons_drop h, take_append_drop]
    rw [set_eq_take_append_cons_drop, if_pos h]
    calc init ++ [last]
        _ ~ last :: init := perm_append_singleton last init
        _ = last :: (init.take i ++ x :: init.drop (i + 1)) := by rw [← e]
        _ ~ last :: x :: (init.take i ++ init.drop (i + 1)) := .cons _ perm_middle
        _ ~ x :: last :: (init.take i ++ init.drop (i + 1)) := .swap _ _ _
        _ ~ x :: (init.take i ++ last :: init.drop (i + 1)) := .cons _ perm_middle.symm
  · have e : i = init.length := by omega
    subst e
    have hx : x = last := by simpa using hx.symm
    subst hx
    simp

/-- Swap-and-pop puts the last element into the freed position, unless that was the last one. -/
lemma getElem?_swapPop_self {l : List α} {i : Nat} {last : α} (h : i + 1 < l.length) :
    (l.swapPop i last)[i]? = some last := by
  unfold swapPop
  rw [getElem?_dropLast, length_set, if_pos (by omega), getElem?_set_self (by omega)]

/-- Swap-and-pop leaves every other position but the last alone. -/
lemma getElem?_swapPop_of_ne {l : List α} {i j : Nat} {last : α} (h : j + 1 < l.length)
    (ne : j ≠ i) : (l.swapPop i last)[j]? = l[j]? := by
  unfold swapPop
  rw [getElem?_dropLast, length_set, if_pos (by omega), getElem?_set_ne (Ne.symm ne)]

/-- Swap-and-pop keeps a vector free of duplicates. -/
lemma Nodup.swapPop {l : List α} {i : Nat} {x last : α} (nd : l.Nodup) (hx : l[i]? = some x)
    (hl : l.getLast? = some last) : (l.swapPop i last).Nodup :=
  (nodup_cons.mp ((swapPop_perm hx hl).nodup_iff.mp nd)).2

/-- What is left after swap-and-pop. -/
lemma mem_swapPop {l : List α} {i : Nat} {x last : α} (nd : l.Nodup) (hx : l[i]? = some x)
    (hl : l.getLast? = some last) (a : α) : a ∈ l.swapPop i last ↔ a ∈ l ∧ a ≠ x := by
  have perm := swapPop_perm hx hl
  have nd := nodup_cons.mp (perm.nodup_iff.mp nd)
  rw [perm.mem_iff, mem_cons]
  constructor
  · intro mem
    exact ⟨.inr mem, fun e => nd.1 (e ▸ mem)⟩
  · rintro ⟨e | mem, ne⟩
    · exact absurd e ne
    · exact mem

/-- A position that does not hold the last element is not the last one. -/
lemma succ_lt_length_of_ne_last {l : List α} {i : Nat} {x last : α} (hx : l[i]? = some x)
    (hl : l.getLast? = some last) (ne : last ≠ x) : i + 1 < l.length := by
  have inside : i < l.length := (getElem?_eq_some_iff.mp hx).1
  by_contra le
  rw [getLast?_eq_getElem?, show l.length - 1 = i by omega, hx, Option.some.injEq] at hl
  exact ne hl.symm

/-- The last element has moved to the freed position. -/
lemma getElem?_swapPop_last {l : List α} {i : Nat} {x last : α} (nd : l.Nodup)
    (hx : l[i]? = some x) (hl : l.getLast? = some last) (ne : last ≠ x) (j : Nat) :
    (l.swapPop i last)[j]? = some last ↔ j = i := by
  have freed : (l.swapPop i last)[i]? = some last :=
    getElem?_swapPop_self (succ_lt_length_of_ne_last hx hl ne)
  refine ⟨fun hj => ?_, fun e => e ▸ freed⟩
  exact (getElem?_inj (getElem?_eq_some_iff.mp hj).1 (nd.swapPop hx hl)).mp (hj.trans freed.symm)

/-- Every other element keeps its position. -/
lemma getElem?_swapPop_other {l : List α} {i : Nat} {a x last : α} (hx : l[i]? = some x)
    (hl : l.getLast? = some last) (notLast : a ≠ last) (kept : a ≠ x) (j : Nat) :
    (l.swapPop i last)[j]? = some a ↔ l[j]? = some a := by
  rcases Nat.lt_or_ge (j + 1) l.length with inside | ge
  · by_cases freed : j = i
    · subst freed
      rw [getElem?_swapPop_self inside, hx, Option.some.injEq, Option.some.injEq]
      exact iff_of_false (Ne.symm notLast) (Ne.symm kept)
    · rw [getElem?_swapPop_of_ne inside freed]
  · refine iff_of_false (fun hj => ?_) fun hj => ?_
    · have lt := (getElem?_eq_some_iff.mp hj).1
      rw [List.swapPop, length_dropLast, length_set] at lt
      omega
    · have lt := (getElem?_eq_some_iff.mp hj).1
      rw [getLast?_eq_getElem?, show l.length - 1 = j by omega, hj, Option.some.injEq] at hl
      exact notLast hl

end List
