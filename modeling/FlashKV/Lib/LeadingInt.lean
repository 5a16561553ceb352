import FlashKV.Lib.Decimal

/-!
# The integer at the front of a text

`std::stoi` and its relatives skip white space, read an optional sign and as many digits as there
are, and ignore the rest. `Decimal.leadingInt` does the same within a range, and `Leading` is the
grammar of the texts it accepts.
-/

namespace Decimal

/-- White space of the `C` locale. -/
def isBlank (b : UInt8) : Bool :=
  b == 32 || (9 ≤ b.toNat && b.toNat ≤ 13)

/-- An optional sign: is it a minus, and what follows it. -/
def splitSign (text : Bytes) : Bool × Bytes :=
  if text.head? = some 45 then (true, text.drop 1)
  else if text.head? = some 43 then (false, text.drop 1)
  else (false, text)

/-- The number with this sign and this amount. -/
def signed (negative : Bool) (amount : Nat) : Int :=
  if negative then -(amount : Int) else amount

/-- Read the integer at the front of the text, if it lies between `lo` and `hi`. -/
def leadingInt (lo hi : Int) (text : Bytes) : Option Int :=
  let (negative, unsigned) := splitSign (text.dropWhile isBlank)
  ((parseNat (unsigned.takeWhile isDigit)).map (signed negative)).filter fun z =>
    decide (lo ≤ z ∧ z ≤ hi)

/-- A sign: is it a minus? -/
inductive Sign : Bytes → Bool → Prop where
  | none : Sign [] false
  | plus : Sign [43] false
  | minus : Sign [45] true

/-- The text starts with an integer, white space before it being skipped. -/
inductive Leading : Bytes → Int → Prop where
  | intro {blank sign digits rest : Bytes} {negative : Bool} :
    (∀ b ∈ blank, isBlank b = true) →
    Sign sign negative →
    digits ≠ [] →
    (∀ b ∈ digits, isDigit b = true) →
    (∀ b ∈ rest.head?, isDigit b = false) →
    Leading (blank ++ (sign ++ (digits ++ rest))) (signed negative (value digits))

section Scan

variable {text digits rest : Bytes} {negative : Bool}

lemma not_isBlank_of_isDigit {b : UInt8} (digit : isDigit b = true) : isBlank b = false := by
  have range := Bool.and_eq_true_iff.mp digit
  simp only [decide_eq_true_eq] at range
  have other : (b == 32) = false := beq_eq_false_iff_ne.mpr (by rintro rfl; simp at range)
  simp only [isBlank, other, Bool.false_or, Bool.and_eq_false_iff, decide_eq_false_iff_not]
  omega

/-- What `takeWhile` takes and leaves. -/
lemma takeWhile_of_head {p : UInt8 → Bool} (all : ∀ b ∈ digits, p b = true)
    (stops : ∀ b ∈ rest.head?, p b = false) :
    (digits ++ rest).takeWhile p = digits ∧ (digits ++ rest).dropWhile p = rest := by
  have nothing : rest.takeWhile p = [] ∧ rest.dropWhile p = rest := by
    cases rest with
    | nil => exact ⟨rfl, rfl⟩
    | cons b rest =>
      have no := stops b rfl
      simp [no]
  rw [List.takeWhile_append_of_pos all, List.dropWhile_append_of_pos all, nothing.1, nothing.2,
    List.append_nil]
  exact ⟨rfl, rfl⟩

/-- What is left after the taken part does not start with a byte of it. -/
lemma head_dropWhile (p : UInt8 → Bool) (text : Bytes) :
    ∀ b ∈ (text.dropWhile p).head?, p b = false := by
  intro b mem
  cases left : text.dropWhile p with
  | nil =>
    rw [left] at mem
    cases mem
  | cons first others =>
    rw [left] at mem
    cases mem
    have head := List.head_dropWhile_not p (l := text) (by rw [left]; simp)
    simpa [left] using head

lemma splitSign_sign {sign : Bytes} (h : Sign sign negative) (nonempty : digits ≠ [])
    (all : ∀ b ∈ digits, isDigit b = true) :
    splitSign (sign ++ (digits ++ rest)) = (negative, digits ++ rest) := by
  cases h with
  | plus | minus => rfl
  | none =>
    cases digits with
    | nil => exact absurd rfl nonempty
    | cons b digits =>
      have digit := all b List.mem_cons_self
      have minus : b ≠ 45 := by rintro rfl; exact absurd digit (by decide)
      have plus : b ≠ 43 := by rintro rfl; exact absurd digit (by decide)
      simp [splitSign, minus, plus]

/-- A sign and what follows it. -/
lemma splitSign_eq (text : Bytes) : ∃ sign, Sign sign (splitSign text).1 ∧
    text = sign ++ (splitSign text).2 := by
  unfold splitSign
  split
  · rename_i minus
    obtain ⟨rest, rfl⟩ := List.head?_eq_some_iff.mp minus
    exact ⟨[45], .minus, rfl⟩
  · split
    · rename_i plus
      obtain ⟨rest, rfl⟩ := List.head?_eq_some_iff.mp plus
      exact ⟨[43], .plus, rfl⟩
    · exact ⟨[], .none, rfl⟩

end Scan

/-- What is read is the integer at the front, and every text that starts with one is read. -/
lemma leadingInt_eq_some_iff {lo hi z : Int} {text : Bytes} :
    leadingInt lo hi text = some z ↔ Leading text z ∧ lo ≤ z ∧ z ≤ hi := by
  unfold leadingInt
  dsimp only
  rw [Option.filter_eq_some_iff, decide_eq_true_eq]
  refine and_congr_left fun _ => ⟨fun read => ?_, fun h => ?_⟩
  · obtain ⟨amount, parsed, rfl⟩ := Option.map_eq_some_iff.mp read
    obtain ⟨nonempty, digits, rfl⟩ := parseNat_eq_some_iff.mp parsed
    obtain ⟨sign, isSign, split⟩ := splitSign_eq (text.dropWhile isBlank)
    have blank : ∀ b ∈ text.takeWhile isBlank, isBlank b = true :=
      List.all_eq_true.mp List.all_takeWhile
    have shape : text = text.takeWhile isBlank ++ (sign ++
        ((splitSign (text.dropWhile isBlank)).2.takeWhile isDigit ++
          (splitSign (text.dropWhile isBlank)).2.dropWhile isDigit)) := by
      rw [List.takeWhile_append_dropWhile, ← split, List.takeWhile_append_dropWhile]
    have leading := @Leading.intro _ _ _ ((splitSign (text.dropWhile isBlank)).2.dropWhile isDigit) _
      blank isSign nonempty digits (head_dropWhile _ _)
    rwa [← shape] at leading
  · cases h with
    | @intro blank sign digits rest negative blanks isSign nonempty all stops =>
      have starts : ∀ b ∈ (sign ++ (digits ++ rest)).head?, isBlank b = false := by
        cases isSign with
        | plus | minus =>
          rintro b ⟨⟩
          decide
        | none =>
          cases digits with
          | nil => exact absurd rfl nonempty
          | cons b digits =>
            rintro _ ⟨⟩
            exact not_isBlank_of_isDigit (all b List.mem_cons_self)
      rw [(takeWhile_of_head blanks starts).2, splitSign_sign isSign nonempty all,
        (takeWhile_of_head all stops).1, parseNat_eq_some_iff.mpr ⟨nonempty, all, rfl⟩]
      rfl

end Decimal
