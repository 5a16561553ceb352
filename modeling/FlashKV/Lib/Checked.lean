import Mathlib.Tactic

/-!
# Checked access to a view

A view of bytes is a list here. Reading it at a position that it does not have, forming an iterator
outside it, arithmetic on `size_t` that wraps and arithmetic on `long long` that overflows is a fault: a
computation that ends without one keeps to the view.
-/

/-- What a computation on a view can do wrong. -/
inductive Fault where
  | index (position : Nat)
  | substr (position : Nat)
  | find (start : Nat)
  | subtraction (a b : Nat)
  | addition (a b : Nat)
  | overflow (result : Int)
  | iterator (offset : Int)
  /-- A loop is not done after the rounds it was given. -/
  | rounds
  deriving DecidableEq, Repr

/-- A computation that checks what it reads. -/
abbrev Checked := Except Fault

namespace Checked

variable {α β : Type}

/-- `view[position]`. -/
def get (view : List α) (position : Nat) : Checked α :=
  if inside : position < view.length then pure view[position] else throw (.index position)

/-- `view.substr(position, count)`, which is cut at the end of the view. -/
def substr (view : List α) (position count : Nat) : Checked (List α) :=
  if position ≤ view.length then pure ((view.drop position).take count) else throw (.substr position)

/-- `view.find(pattern, start)`, `search` being the search from a position on. -/
def find (view : List α) (search : Nat → Option Nat) (start : Nat) : Checked (Option Nat) :=
  if start ≤ view.length then pure (search start) else throw (.find start)

/-- `a - b` of `size_t`. -/
def sub (a b : Nat) : Checked Nat :=
  if b ≤ a then pure (a - b) else throw (.subtraction a b)

/-- `a + b` of `size_t`. -/
def add (a b : Nat) : Checked Nat :=
  if a + b < 2 ^ 64 then pure (a + b) else throw (.addition a b)

/-- A result of `long long` arithmetic. -/
def signed (result : Int) : Checked Int :=
  if -2 ^ 63 ≤ result ∧ result < 2 ^ 63 then pure result else throw (.overflow result)

/-- `view.begin() + offset`. -/
def iterator (view : List α) (offset : Int) : Checked Int :=
  if 0 ≤ offset ∧ offset ≤ view.length then pure offset else throw (.iterator offset)

section Inside

variable {view : List α} {position count a b : Nat} {result offset : Int}

/-- Reading inside the view gives the first element of what is left there. -/
lemma get_inside (inside : position < view.length) :
    ∃ a, get view position = pure a ∧ view.drop position = a :: view.drop (position + 1) :=
  ⟨view[position], dif_pos inside, List.drop_eq_getElem_cons inside⟩

lemma substr_inside (inside : position ≤ view.length) :
    substr view position count = pure ((view.drop position).take count) :=
  if_pos inside

lemma find_inside {search : Nat → Option Nat} (inside : position ≤ view.length) :
    find view search position = pure (search position) :=
  if_pos inside

lemma sub_fits (le : b ≤ a) : sub a b = pure (a - b) :=
  if_pos le

lemma add_fits (lt : a + b < 2 ^ 64) : add a b = pure (a + b) :=
  if_pos lt

lemma signed_fits (least : -2 ^ 63 ≤ result) (greatest : result < 2 ^ 63) :
    signed result = pure result :=
  if_pos ⟨least, greatest⟩

lemma iterator_inside (first : 0 ≤ offset) (last : offset ≤ view.length) :
    iterator view offset = pure offset :=
  if_pos ⟨first, last⟩

end Inside

end Checked
