import Mathlib.Data.List.Forall2
import Mathlib.Data.List.Infix
import Mathlib.Tactic

/-!
# Wildcard patterns

A pattern is a list of symbols: one that fits any string, and ones that fit single elements. A text
matches if it is a sequence of pieces that fit the symbols in order. `Matches.later` is why a
matcher only has to remember the last star that it has met: what an earlier one could still absorb,
the last one can absorb too.
-/

namespace Wildcard

variable {α : Type*}

/-- A symbol of a pattern. -/
inductive Symbol (α : Type*) where
  | star
  | one (accepts : α → Prop)

namespace Symbol

/-- The piece of a text that a symbol fits. -/
inductive Fits : Symbol α → List α → Prop where
  | star (piece : List α) : Fits .star piece
  | one {accepts : α → Prop} {a : α} : accepts a → Fits (.one accepts) [a]

/-- Does the symbol fit single elements only? -/
def IsOne : Symbol α → Prop
  | .star => False
  | .one _ => True

end Symbol

/-- The text is a sequence of pieces that fit the symbols in order. -/
def Matches (symbols : List (Symbol α)) (text : List α) : Prop :=
  ∃ pieces : List (List α), text = pieces.flatten ∧ List.Forall₂ Symbol.Fits symbols pieces

section Matches

variable {symbols : List (Symbol α)} {accepts : α → Prop} {text : List α} {a : α}

lemma matches_nil : Matches ([] : List (Symbol α)) text ↔ text = [] := by
  constructor
  · rintro ⟨pieces, rfl, fits⟩
    cases fits
    rfl
  · rintro rfl
    exact ⟨[], rfl, .nil⟩

lemma matches_one : Matches (.one accepts :: symbols) (a :: text) ↔
    accepts a ∧ Matches symbols text := by
  constructor
  · rintro ⟨pieces, e, fits⟩
    cases fits with
    | cons first rest =>
      cases first with
      | one accepted =>
        cases e
        exact ⟨accepted, _, rfl, rest⟩
  · rintro ⟨accepted, pieces, rfl, fits⟩
    exact ⟨[a] :: pieces, rfl, .cons (.one accepted) fits⟩

lemma not_matches_one_nil : ¬ Matches (.one accepts :: symbols) [] := by
  rintro ⟨pieces, e, fits⟩
  cases fits with
  | cons first rest =>
    cases first
    cases e

/-- What is left when the star has taken its piece. -/
lemma matches_star :
    Matches (.star :: symbols) text ↔ ∃ rest, rest <:+ text ∧ Matches symbols rest := by
  constructor
  · rintro ⟨pieces, rfl, fits⟩
    cases fits with
    | cons _ rest => exact ⟨_, ⟨_, rfl⟩, _, rfl, rest⟩
  · rintro ⟨_, ⟨piece, rfl⟩, pieces, rfl, fits⟩
    exact ⟨piece :: pieces, rfl, .cons (.star piece) fits⟩

lemma matches_star_nil : Matches (.star :: symbols) [] ↔ Matches symbols [] := by
  rw [matches_star]
  constructor
  · rintro ⟨rest, suffix, fits⟩
    rwa [List.suffix_nil.mp suffix] at fits
  · exact fun fits => ⟨[], List.suffix_rfl, fits⟩

/-- The star takes nothing, or one element more. -/
lemma matches_star_tail : Matches (.star :: symbols) text ↔
    Matches symbols text ∨ Matches (.star :: symbols) text.tail := by
  cases text with
  | nil =>
    rw [List.tail_nil, matches_star_nil, or_self]
  | cons a text =>
    rw [matches_star, matches_star, List.tail_cons]
    constructor
    · rintro ⟨rest, suffix, fits⟩
      rcases List.suffix_cons_iff.mp suffix with rfl | suffix
      · exact .inl fits
      · exact .inr ⟨rest, suffix, fits⟩
    · rintro (fits | ⟨rest, suffix, fits⟩)
      · exact ⟨_, List.suffix_rfl, fits⟩
      · exact ⟨rest, suffix.trans (List.suffix_cons a text), fits⟩

/-- A second star adds nothing. -/
lemma matches_star_star :
    Matches (.star :: .star :: symbols) text ↔ Matches (.star :: symbols) text := by
  simp only [matches_star]
  constructor
  · rintro ⟨rest, suffix, rest', suffix', fits⟩
    exact ⟨rest', suffix'.trans suffix, fits⟩
  · rintro ⟨rest, suffix, fits⟩
    exact ⟨rest, suffix, rest, List.suffix_rfl, fits⟩

/-- Symbols for single elements take as many elements as they are. -/
lemma Matches.of_ones {ones : List (Symbol α)} (single : ∀ symbol ∈ ones, symbol.IsOne)
    (h : Matches (ones ++ symbols) text) :
    ∃ taken rest, text = taken ++ rest ∧ taken.length = ones.length ∧ Matches symbols rest := by
  induction ones generalizing text with
  | nil => exact ⟨[], text, rfl, rfl, h⟩
  | cons symbol ones ih =>
    obtain ⟨first, others⟩ := List.forall_mem_cons.mp single
    cases symbol with
    | star => exact first.elim
    | one accepts =>
      cases text with
      | nil => exact absurd h not_matches_one_nil
      | cons a text =>
        obtain ⟨taken, rest, rfl, count, fits⟩ := ih others (matches_one.mp h).2
        exact ⟨a :: taken, rest, rfl, by simp [count], fits⟩

/-- The last star is enough. Between an earlier star and the place where the matcher stands, only
single elements have been read. If the text matches with the earlier star absorbing one element
more, then it does so with a star in this place. -/
lemma Matches.later {ones : List (Symbol α)} {earlier : List α}
    (single : ∀ symbol ∈ ones, symbol.IsOne) (suffix : text <:+ earlier)
    (length : earlier.length = ones.length + text.length)
    (h : Matches (.star :: (ones ++ symbols)) earlier.tail) :
    Matches (.star :: symbols) text.tail := by
  obtain ⟨start, inner, fits⟩ := matches_star.mp h
  obtain ⟨taken, rest, rfl, count, fits⟩ := fits.of_ones single
  have short := inner.length_le
  rw [List.length_append, List.length_tail, count] at short
  refine matches_star.mpr ⟨rest, ?_, fits⟩
  have inside : rest <:+ earlier :=
    (List.suffix_append taken rest).trans (inner.trans (List.tail_suffix earlier))
  exact List.suffix_of_suffix_length_le inside ((List.tail_suffix text).trans suffix)
    (by rw [List.length_tail]; omega)

end Matches

end Wildcard
