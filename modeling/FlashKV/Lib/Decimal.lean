import Mathlib.Data.Nat.Digits.Lemmas
import Mathlib.Tactic

/-!
# Byte strings and decimal numerals

Byte strings as lists of bytes, and the two directions of decimal text: `Decimal.ofInt` writes a
numeral the way `std::to_string` does, `Decimal.parseInt` reads one the way `std::from_chars` does
when it has to use up the whole text (an optional `-`, at least one digit, no other byte, a value
inside the target's range). The main fact is `parseInt_ofInt`: reading undoes writing.
-/

/-- A byte string: C++ `std::string` and `std::string_view` hold arbitrary bytes. -/
abbrev Bytes := List UInt8

/-- The bytes of an ASCII literal. -/
def ascii (text : String) : Bytes :=
  text.toList.map fun c => UInt8.ofNat c.toNat

namespace Decimal

/-- The byte of a single decimal digit. -/
def digit (d : Nat) : UInt8 :=
  UInt8.ofNat (48 + d)

/-- Is the byte one of `0`..`9`? -/
def isDigit (b : UInt8) : Bool :=
  48 ≤ b.toNat && b.toNat ≤ 57

/-- The shortest decimal numeral of a natural number. -/
def ofNat (n : Nat) : Bytes :=
  if n = 0 then [digit 0] else (Nat.digits 10 n).reverse.map digit

/-- The shortest decimal numeral of an integer. -/
def ofInt (z : Int) : Bytes :=
  if z < 0 then 45 :: ofNat z.natAbs else ofNat z.natAbs

/-- The number that a string of digits denotes. -/
def value (text : Bytes) : Nat :=
  text.foldl (fun acc b => acc * 10 + (b.toNat - 48)) 0

/-- Read an unsigned numeral that takes up the whole text. -/
def parseNat (text : Bytes) : Option Nat :=
  if text ≠ [] ∧ text.all isDigit = true then some (value text) else none

/-- Read a signed numeral of any size that takes up the whole text. -/
def parseSigned : Bytes → Option Int
  | 45 :: rest => (parseNat rest).map fun n : Nat => -(n : Int)
  | text => (parseNat text).map fun n : Nat => (n : Int)

/-- Read a signed numeral that takes up the whole text and lies between `lo` and `hi`. -/
def parseInt (lo hi : Int) (text : Bytes) : Option Int :=
  (parseSigned text).filter fun z => decide (lo ≤ z ∧ z ≤ hi)

/-- A decimal numeral with an optional minus sign, and the number that it denotes. -/
inductive Numeral : Bytes → Int → Prop where
  | nat {digits : Bytes} :
    digits ≠ [] →
    (∀ b ∈ digits, isDigit b = true) →
    Numeral digits (value digits)
  | neg {digits : Bytes} :
    digits ≠ [] →
    (∀ b ∈ digits, isDigit b = true) →
    Numeral (45 :: digits) (-(value digits : Int))

lemma parseNat_eq_some_iff {text : Bytes} {n : Nat} :
    parseNat text = some n ↔ text ≠ [] ∧ (∀ b ∈ text, isDigit b = true) ∧ value text = n := by
  unfold parseNat
  constructor
  · intro h
    split at h
    · rename_i digits
      exact ⟨digits.1, List.all_eq_true.mp digits.2, Option.some.inj h⟩
    · cases h
  · rintro ⟨nonempty, digits, rfl⟩
    rw [if_pos ⟨nonempty, List.all_eq_true.mpr digits⟩]

/-- What is read is a numeral, and all numerals are read. -/
lemma parseSigned_eq_some_iff {text : Bytes} {z : Int} :
    parseSigned text = some z ↔ Numeral text z := by
  constructor
  · intro h
    unfold parseSigned at h
    split at h
    · obtain ⟨n, read, rfl⟩ := Option.map_eq_some_iff.mp h
      obtain ⟨nonempty, digits, rfl⟩ := parseNat_eq_some_iff.mp read
      exact .neg nonempty digits
    · obtain ⟨n, read, rfl⟩ := Option.map_eq_some_iff.mp h
      obtain ⟨nonempty, digits, rfl⟩ := parseNat_eq_some_iff.mp read
      exact .nat nonempty digits
  · intro h
    cases h with
    | nat nonempty digits =>
      unfold parseSigned
      split
      · -- the sign is no digit
        exact absurd (digits 45 (by simp)) (by decide)
      · exact Option.map_eq_some_iff.mpr
          ⟨_, parseNat_eq_some_iff.mpr ⟨nonempty, digits, rfl⟩, rfl⟩
    | neg nonempty digits =>
      exact Option.map_eq_some_iff.mpr
        ⟨_, parseNat_eq_some_iff.mpr ⟨nonempty, digits, rfl⟩, rfl⟩

lemma parseInt_eq_some_iff {lo hi z : Int} {text : Bytes} :
    parseInt lo hi text = some z ↔ Numeral text z ∧ lo ≤ z ∧ z ≤ hi := by
  unfold parseInt
  rw [Option.filter_eq_some_iff, parseSigned_eq_some_iff, decide_eq_true_eq]

/-- The bytes of a numeral. -/
lemma Numeral.mem {text : Bytes} {z : Int} (h : Numeral text z) {b : UInt8} (mem : b ∈ text) :
    isDigit b = true ∨ b = 45 := by
  cases h with
  | nat _ digits => exact .inl (digits b mem)
  | neg _ digits =>
    rcases List.mem_cons.mp mem with rfl | mem
    · exact .inr rfl
    · exact .inl (digits b mem)

/-- Digits are bytes `48`..`57`. -/
lemma toNat_digit {d : Nat} (lt : d < 10) : (digit d).toNat = 48 + d := by
  rw [digit, UInt8.toNat_ofNat']
  omega

/-- Every digit byte passes the digit test. -/
lemma isDigit_digit {d : Nat} (lt : d < 10) : isDigit (digit d) = true := by
  simp only [isDigit, toNat_digit lt, Bool.and_eq_true, decide_eq_true_eq]
  omega

/-- A numeral is never empty. -/
lemma ofNat_ne_nil (n : Nat) : ofNat n ≠ [] := by
  unfold ofNat
  split
  · simp
  · rename_i h
    simpa [Nat.digits_eq_nil_iff_eq_zero] using h

/-- The length of a numeral. -/
lemma length_ofNat_le {n k : Nat} (pos : 0 < k) (lt : n < 10 ^ k) : (ofNat n).length ≤ k := by
  unfold ofNat
  split
  · exact pos
  · rw [List.length_map, List.length_reverse]
    exact (Nat.digits_length_le_iff (by omega) n).mpr lt

/-- A greater number has no shorter numeral. -/
lemma length_ofNat_mono {m n : Nat} (le : m ≤ n) : (ofNat m).length ≤ (ofNat n).length := by
  by_cases zero : m = 0
  · rw [zero]
    exact List.length_pos_of_ne_nil (ofNat_ne_nil n)
  · rw [ofNat, ofNat, if_neg zero, if_neg (by omega)]
    simp only [List.length_map, List.length_reverse]
    exact Nat.le_length_digits_le 10 m n le

lemma ofInt_of_nonneg {z : Int} (nonneg : 0 ≤ z) : ofInt z = ofNat z.toNat := by
  rw [ofInt, if_neg (by omega), show z.natAbs = z.toNat by omega]

lemma length_ofInt_le {z : Int} {k : Nat} (pos : 0 < k) (lt : z.natAbs < 10 ^ k) :
    (ofInt z).length ≤ k + 1 := by
  have digits := length_ofNat_le pos lt
  unfold ofInt
  split
  · rw [List.length_cons]
    omega
  · omega

/-- A numeral consists of digits. -/
lemma isDigit_of_mem_ofNat {n : Nat} {b : UInt8} (mem : b ∈ ofNat n) : isDigit b = true := by
  unfold ofNat at mem
  split at mem
  · rw [List.mem_singleton] at mem
    subst mem
    exact isDigit_digit (by omega)
  · simp only [List.map_reverse, List.mem_reverse, List.mem_map] at mem
    obtain ⟨d, hd, rfl⟩ := mem
    exact isDigit_digit (Nat.digits_lt_base (by omega) hd)

/-- The value of a digit string, one more digit at the end. -/
lemma value_append_digit (text : Bytes) (b : UInt8) :
    value (text ++ [b]) = value text * 10 + (b.toNat - 48) := by
  simp [value, List.foldl_append]

/-- Reading big-endian digits computes `Nat.ofDigits` of the reversed list. -/
lemma value_map_digit (ds : List Nat) (lt : ∀ d ∈ ds, d < 10) :
    value (ds.reverse.map digit) = Nat.ofDigits 10 ds := by
  induction ds with
  | nil => rfl
  | cons d ds ih =>
    have hd : d < 10 := lt d (by simp)
    have ih := ih fun x hx => lt x (by simp [hx])
    simp only [List.reverse_cons, List.map_append, List.map_cons, List.map_nil]
    rw [value_append_digit, ih, toNat_digit hd, Nat.ofDigits_cons]
    omega

/-- The numeral of `n` denotes `n`. -/
lemma value_ofNat (n : Nat) : value (ofNat n) = n := by
  unfold ofNat
  split
  · rename_i h
    subst h
    rfl
  · rw [value_map_digit _ fun d hd => Nat.digits_lt_base (by omega) hd, Nat.ofDigits_digits]

/-- Reading undoes writing on natural numbers. -/
@[simp]
lemma parseNat_ofNat (n : Nat) : parseNat (ofNat n) = some n := by
  have all : (ofNat n).all isDigit = true :=
    List.all_eq_true.mpr fun b hb => isDigit_of_mem_ofNat hb
  simp only [parseNat, ofNat_ne_nil, all, value_ofNat, ne_eq, not_false_eq_true, and_self, if_true]

/-- Writing natural numbers is injective. -/
lemma ofNat_injective : Function.Injective ofNat := by
  intro m n e
  have h := congrArg parseNat e
  simpa using h

/-- A byte that is no digit does not occur in a numeral. -/
lemma not_mem_ofNat {n : Nat} {b : UInt8} (nd : isDigit b = false) : b ∉ ofNat n := by
  intro mem
  simp [isDigit_of_mem_ofNat mem] at nd

/-- A byte that is neither a digit nor the sign does not occur in a signed numeral. -/
lemma not_mem_ofInt {z : Int} {b : UInt8} (nd : isDigit b = false) (ns : b ≠ 45) : b ∉ ofInt z := by
  unfold ofInt
  split
  · rw [List.mem_cons, not_or]
    exact ⟨ns, not_mem_ofNat nd⟩
  · exact not_mem_ofNat nd

/-- A numeral without a sign is read as a natural number. -/
lemma parseSigned_ofNat (n : Nat) : parseSigned (ofNat n) = some (n : Int) := by
  have noSign : ∀ rest, ofNat n ≠ 45 :: rest := by
    intro rest h
    have nd : isDigit 45 = false := by decide
    exact not_mem_ofNat nd (h ▸ List.mem_cons_self : (45 : UInt8) ∈ ofNat n)
  unfold parseSigned
  split
  · rename_i rest h
    exact absurd h (noSign rest)
  · simp only [parseNat_ofNat, Option.map_some]

/-- The numeral of a natural number denotes it. -/
lemma numeral_ofNat (n : Nat) : Numeral (ofNat n) n :=
  parseSigned_eq_some_iff.mp (parseSigned_ofNat n)

/-- Reading undoes writing on integers of any size. -/
@[simp]
lemma parseSigned_ofInt (z : Int) : parseSigned (ofInt z) = some z := by
  unfold ofInt
  by_cases neg : z < 0
  · have e : -(z.natAbs : Int) = z := by omega
    simp only [neg, if_true, parseSigned, parseNat_ofNat, Option.map_some, e]
  · have e : (z.natAbs : Int) = z := by omega
    rw [if_neg neg, parseSigned_ofNat, e]

/-- Reading undoes writing on the integers of the target's range. -/
lemma parseInt_ofInt {lo hi z : Int} (hlo : lo ≤ z) (hhi : z ≤ hi) :
    parseInt lo hi (ofInt z) = some z := by
  simp [parseInt, hlo, hhi]

/-- What is read lies in the target's range. -/
lemma parseInt_range {lo hi z : Int} {text : Bytes} (h : parseInt lo hi text = some z) :
    lo ≤ z ∧ z ≤ hi := by
  unfold parseInt at h
  obtain ⟨_, h⟩ := Option.filter_eq_some_iff.mp h
  simpa using h

end Decimal
