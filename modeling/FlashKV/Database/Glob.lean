import FlashKV.Lib.Decimal

/-!
# Glob matching

Model of `matchCharacterClass` and `globMatch` (source `database.cpp`). A position in the pattern or
the text is represented by the suffix that starts there. The source compares `char`s, whose order is
the target's: `globMatchWith` takes that order as a parameter, and `globMatch` fixes it to the
signed `char` of x86-64.
-/

namespace FlashKV

/-- `char` comparison where `char` is signed. -/
def signedCharLe (a b : UInt8) : Bool :=
  decide (a.toInt8 ≤ b.toInt8)

/-- One byte of a class: a backslash that is not the pattern's last byte escapes the next one. -/
def readClassByte (c : UInt8) (rest : Bytes) : UInt8 × Bytes :=
  match c, rest with
  | 92, escaped :: rest => (escaped, rest)
  | _, _ => (c, rest)

/-- Reading a byte of a class does not lengthen the pattern. -/
lemma readClassByte_length (c : UInt8) (rest : Bytes) :
    (readClassByte c rest).2.length ≤ rest.length := by
  unfold readClassByte
  split <;> simp

/-- The item loop of a character class (source `matchCharacterClass`): `pattern` is the suffix at
the loop's position, the result is the flag `matched` and the suffix after the class. -/
def matchClassItems (charLe : UInt8 → UInt8 → Bool) (character : UInt8) (matched : Bool) :
    Bytes → Bool × Bytes
  | [] => (matched, [])
  | c :: rest =>
    if c = 93 then (matched, rest)
    else
      let low := (readClassByte c rest).1
      let hit (low high : UInt8) := charLe low character && charLe character high
      match _h : (readClassByte c rest).2 with
      | 45 :: high :: rest' =>
        if high = 93 then
          matchClassItems charLe character (matched || hit low low) (45 :: high :: rest')
        else if charLe low high then
          matchClassItems charLe character (matched || hit low high) rest'
        else
          matchClassItems charLe character (matched || hit high low) rest'
      | rest' => matchClassItems charLe character (matched || hit low low) rest'
  termination_by pattern => pattern.length
  decreasing_by
    all_goals
      have le := readClassByte_length c rest
      rw [_h] at le
      simp only [List.length_cons] at le ⊢
      omega

/-- Source `matchCharacterClass`, `pattern` being the suffix after the opening `[`. -/
def matchCharacterClass (charLe : UInt8 → UInt8 → Bool) (pattern : Bytes) (character : UInt8) :
    Bool × Bytes :=
  let (negate, pattern) := match pattern with
    | 94 :: rest => (true, rest)
    | _ => (false, pattern)
  let (matched, rest) := matchClassItems charLe character false pattern
  (matched != negate, rest)

/-- The loop of `globMatch`. `star` holds the suffixes `starPattern` and `starText` once a `*` has
been met; the text position never falls behind `starText`. -/
def globLoop (charLe : UInt8 → UInt8 → Bool) (pattern text : Bytes) (star : Option (Bytes × Bytes))
    (ahead : ∀ p t, star = some (p, t) → text.length ≤ t.length) : Bool :=
  match text with
  | [] => (pattern.dropWhile (· == 42)).isEmpty
  | character :: text' =>
    -- let the last `*` absorb one more character
    let backtrack : Bool := match star with
      | none => false
      | some (starPattern, starText) =>
        globLoop charLe starPattern starText.tail (some (starPattern, starText.tail))
          (by rintro p t ⟨⟩; exact le_rfl)
    match pattern with
    | [] => backtrack
    | 42 :: rest => globLoop charLe rest (character :: text') (some (rest, character :: text'))
        (by rintro p t ⟨⟩; exact le_rfl)
    | 63 :: rest => globLoop charLe rest text' star
        (by intro p t h; have := ahead p t h; simp at this; omega)
    | 91 :: rest =>
      match matchCharacterClass charLe rest character with
      | (true, next) => globLoop charLe next text' star
          (by intro p t h; have := ahead p t h; simp at this; omega)
      | (false, _) => backtrack
    | 92 :: token :: rest =>
      if token = character then globLoop charLe rest text' star
          (by intro p t h; have := ahead p t h; simp at this; omega)
      else backtrack
    | token :: rest =>
      if token = character then globLoop charLe rest text' star
          (by intro p t h; have := ahead p t h; simp at this; omega)
      else backtrack
  termination_by
    (if star.isSome then 0 else 1, (star.map fun p => p.2.length).getD 0, text.length, pattern.length)
  decreasing_by
    · have len := ahead starPattern starText rfl
      simp only [List.length_cons] at len
      apply Prod.Lex.right
      apply Prod.Lex.left
      simp only [Option.map_some, Option.getD_some, List.length_tail]
      omega
    · rcases star with _ | ⟨starPattern, starText⟩
      · exact Prod.Lex.left _ _ (by simp)
      · have len := ahead starPattern starText rfl
        apply Prod.Lex.right
        simp only [Option.map_some, Option.getD_some, List.length_cons] at len ⊢
        rcases Nat.lt_or_eq_of_le len with lt | eq
        · exact Prod.Lex.left _ _ lt
        · rw [eq]
          apply Prod.Lex.right
          apply Prod.Lex.right
          omega
    all_goals
      apply Prod.Lex.right
      apply Prod.Lex.right
      apply Prod.Lex.left
      simp

/-- Source `globMatch`, for either order of `char`. -/
def globMatchWith (charLe : UInt8 → UInt8 → Bool) (pattern text : Bytes) : Bool :=
  globLoop charLe pattern text none (by simp)

/-- Source `globMatch` where `char` is signed. -/
def globMatch (pattern text : Bytes) : Bool :=
  globMatchWith signedCharLe pattern text

end FlashKV
