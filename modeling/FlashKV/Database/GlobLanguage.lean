import FlashKV.Database.Glob
import FlashKV.Lib.Wildcard

/-!
# The language of a glob

A pattern is read from left to right as a list of tokens, in exactly one way, and `globMatch`
decides whether the text is a sequence of pieces that the tokens match in order.
-/

namespace FlashKV

open Wildcard

/-- A token of a pattern. An item of a class is a pair of bounds. -/
inductive GlobToken where
  | star
  | any
  | byte (b : UInt8)
  | cls (negated : Bool) (items : List (UInt8 × UInt8))

/-- The first byte of an item, and what follows it: a backslash that is not the pattern's last byte
escapes the next one. -/
inductive ClassByte : Bytes → UInt8 → Bytes → Prop where
  | escaped (b : UInt8) (rest : Bytes) :
    ClassByte (92 :: b :: rest) b rest
  | raw {b : UInt8} {rest : Bytes} :
    (b = 92 → rest = []) →
    ClassByte (b :: rest) b rest

/-- The items of a class, and what follows it. The class ends at the first `]` that belongs to no
item, or at the end of the pattern. -/
inductive ClassItems : Bytes → List (UInt8 × UInt8) → Bytes → Prop where
  | finish :
    ClassItems [] [] []
  | close (rest : Bytes) :
    ClassItems (93 :: rest) [] rest
  | range {pattern rest after : Bytes} {low high : UInt8} {items : List (UInt8 × UInt8)} :
    pattern.head? ≠ some 93 →
    ClassByte pattern low (45 :: high :: rest) →
    high ≠ 93 →
    ClassItems rest items after →
    ClassItems pattern ((low, high) :: items) after
  | single {pattern rest after : Bytes} {b : UInt8} {items : List (UInt8 × UInt8)} :
    pattern.head? ≠ some 93 →
    ClassByte pattern b rest →
    (∀ high rest', rest = 45 :: high :: rest' → high = 93) →
    ClassItems rest items after →
    ClassItems pattern ((b, b) :: items) after

/-- The tokens of a pattern. -/
inductive GlobTokens : Bytes → List GlobToken → Prop where
  | nil :
    GlobTokens [] []
  | star {rest : Bytes} {tokens : List GlobToken} :
    GlobTokens rest tokens →
    GlobTokens (42 :: rest) (.star :: tokens)
  | any {rest : Bytes} {tokens : List GlobToken} :
    GlobTokens rest tokens →
    GlobTokens (63 :: rest) (.any :: tokens)
  | negated {rest after : Bytes} {items : List (UInt8 × UInt8)} {tokens : List GlobToken} :
    ClassItems rest items after →
    GlobTokens after tokens →
    GlobTokens (91 :: 94 :: rest) (.cls true items :: tokens)
  | cls {rest after : Bytes} {items : List (UInt8 × UInt8)} {tokens : List GlobToken} :
    rest.head? ≠ some 94 →
    ClassItems rest items after →
    GlobTokens after tokens →
    GlobTokens (91 :: rest) (.cls false items :: tokens)
  | escaped {b : UInt8} {rest : Bytes} {tokens : List GlobToken} :
    GlobTokens rest tokens →
    GlobTokens (92 :: b :: rest) (.byte b :: tokens)
  | byte {b : UInt8} {rest : Bytes} {tokens : List GlobToken} :
    b ≠ 42 → b ≠ 63 → b ≠ 91 →
    (b = 92 → rest = []) →
    GlobTokens rest tokens →
    GlobTokens (b :: rest) (.byte b :: tokens)

/-- A byte between two bounds, whichever of them is the lower one. -/
def InRange (charLe : UInt8 → UInt8 → Bool) (c : UInt8) (bounds : UInt8 × UInt8) : Prop :=
  if charLe bounds.1 bounds.2 then charLe bounds.1 c = true ∧ charLe c bounds.2 = true
  else charLe bounds.2 c = true ∧ charLe c bounds.1 = true

/-- What a token matches. -/
def GlobToken.symbol (charLe : UInt8 → UInt8 → Bool) : GlobToken → Symbol UInt8
  | .star => .star
  | .any => .one fun _ => True
  | .byte b => .one (· = b)
  | .cls negated items =>
    .one fun c => (∃ bounds ∈ items, InRange charLe c bounds) ↔ negated = false

/-- The text is a sequence of pieces that the tokens match in order. -/
def GlobMatches (charLe : UInt8 → UInt8 → Bool) (tokens : List GlobToken) (text : Bytes) : Prop :=
  Matches (tokens.map (·.symbol charLe)) text

section Reading

variable {pattern rest rest' after after' : Bytes} {b b' : UInt8}
  {items items' : List (UInt8 × UInt8)} {tokens tokens' : List GlobToken}

lemma ClassByte.unique (h : ClassByte pattern b rest) (h' : ClassByte pattern b' rest') :
    b = b' ∧ rest = rest' := by
  cases h with
  | escaped b rest =>
    cases h' with
    | escaped => exact ⟨rfl, rfl⟩
    | raw last => cases last rfl
  | raw last =>
    cases h' with
    | escaped => cases last rfl
    | raw => exact ⟨rfl, rfl⟩

lemma ClassByte.length (h : ClassByte pattern b rest) : rest.length < pattern.length := by
  cases h with
  | escaped => simp
  | raw => simp

lemma ClassItems.length (h : ClassItems pattern items after) : after.length ≤ pattern.length := by
  induction h with
  | finish => exact le_rfl
  | close rest => simp
  | range _ first _ _ ih =>
    have := first.length
    simp only [List.length_cons] at this
    omega
  | single _ first _ _ ih =>
    have := first.length
    omega

lemma ClassItems.unique (h : ClassItems pattern items after)
    (h' : ClassItems pattern items' after') :
    items = items' ∧ after = after' := by
  induction h generalizing items' after' with
  | finish =>
    cases h' with
    | finish => exact ⟨rfl, rfl⟩
    | range _ first => cases first
    | single _ first => cases first
  | close rest =>
    cases h' with
    | close => exact ⟨rfl, rfl⟩
    | range other => exact absurd rfl other
    | single other => exact absurd rfl other
  | range other first upper _ ih =>
    cases h' with
    | finish => cases first
    | close => exact absurd rfl other
    | range _ first' _ later =>
      obtain ⟨rfl, e⟩ := first.unique first'
      cases e
      obtain ⟨rfl, rfl⟩ := ih later
      exact ⟨rfl, rfl⟩
    | single _ first' noRange later =>
      obtain ⟨rfl, rfl⟩ := first.unique first'
      exact absurd (noRange _ _ rfl) upper
  | single other first noRange _ ih =>
    cases h' with
    | finish => cases first
    | close => exact absurd rfl other
    | range _ first' upper later =>
      obtain ⟨rfl, rfl⟩ := first.unique first'
      exact absurd (noRange _ _ rfl) upper
    | single _ first' _ later =>
      obtain ⟨rfl, rfl⟩ := first.unique first'
      obtain ⟨rfl, rfl⟩ := ih later
      exact ⟨rfl, rfl⟩

/-- A pattern has one reading. -/
lemma GlobTokens.unique (h : GlobTokens pattern tokens) (h' : GlobTokens pattern tokens') :
    tokens = tokens' := by
  induction h generalizing tokens' with
  | nil =>
    cases h'
    rfl
  | star _ ih =>
    cases h' with
    | star later => rw [ih later]
    | byte other => exact absurd rfl other
  | any _ ih =>
    cases h' with
    | any later => rw [ih later]
    | byte _ other => exact absurd rfl other
  | negated items _ ih =>
    cases h' with
    | negated items' later =>
      obtain ⟨rfl, rfl⟩ := items.unique items'
      rw [ih later]
    | cls other => exact absurd rfl other
    | byte _ _ other => exact absurd rfl other
  | cls plain items _ ih =>
    cases h' with
    | negated => exact absurd rfl plain
    | cls _ items' later =>
      obtain ⟨rfl, rfl⟩ := items.unique items'
      rw [ih later]
    | byte _ _ other => exact absurd rfl other
  | escaped _ ih =>
    cases h' with
    | escaped later => rw [ih later]
    | byte _ _ _ last => cases last rfl
  | byte noStar noAny noClass last _ ih =>
    cases h' with
    | star => exact absurd rfl noStar
    | any => exact absurd rfl noAny
    | negated => exact absurd rfl noClass
    | cls => exact absurd rfl noClass
    | escaped => cases last rfl
    | byte _ _ _ _ later => rw [ih later]

end Reading

section Classes

variable {charLe : UInt8 → UInt8 → Bool} {character : UInt8}

lemma readClassByte_reads (c : UInt8) (rest : Bytes) :
    ClassByte (c :: rest) (readClassByte c rest).1 (readClassByte c rest).2 := by
  unfold readClassByte
  split
  · exact .escaped _ _
  · rename_i plain
    refine .raw ?_
    rintro rfl
    cases rest with
    | nil => rfl
    | cons escaped rest => exact absurd rfl (plain escaped rest rfl)

/-- One more item is looked at. -/
lemma hit_cons {matched hit result : Bool} {bounds : UInt8 × UInt8} {items : List (UInt8 × UInt8)}
    (h : hit = true ↔ InRange charLe character bounds)
    (later : result = true ↔
      (matched || hit) = true ∨ ∃ bounds ∈ items, InRange charLe character bounds) :
    result = true ↔ matched = true ∨ ∃ other ∈ bounds :: items, InRange charLe character other := by
  rw [later, Bool.or_eq_true, h, or_assoc, List.exists_mem_cons_iff]

lemma hit_single (b : UInt8) :
    (charLe b character && charLe character b) = true ↔ InRange charLe character (b, b) := by
  rw [Bool.and_eq_true, InRange, ite_self]

/-- The item loop reads the items, and looks for one that contains the byte. -/
lemma matchClassItems_spec (charLe : UInt8 → UInt8 → Bool) (character : UInt8) (matched : Bool)
    (pattern : Bytes) :
    ∃ items, ClassItems pattern items (matchClassItems charLe character matched pattern).2 ∧
      ((matchClassItems charLe character matched pattern).1 = true ↔
        matched = true ∨ ∃ bounds ∈ items, InRange charLe character bounds) := by
  fun_induction matchClassItems charLe character matched pattern with
  | case1 matched => exact ⟨[], .finish, by simp⟩
  | case2 matched rest => exact ⟨[], .close rest, by simp⟩
  | case3 matched c rest inside low hit rest' read ih =>
    obtain ⟨items, later, found⟩ := ih
    have first := readClassByte_reads c rest
    -- `-` before the `]` does not make a range
    refine ⟨(low, low) :: items, .single (fun e => inside (Option.some.inj e)) first ?_ ?_,
      hit_cons (hit_single low) found⟩
    · intro high rest'' e
      rw [read] at e
      cases e
      rfl
    · rw [read]
      exact later
  | case4 matched c rest inside low hit high rest' read other le ih =>
    obtain ⟨items, later, found⟩ := ih
    have first := readClassByte_reads c rest
    rw [read] at first
    refine ⟨(low, high) :: items, .range (fun e => inside (Option.some.inj e)) first other later,
      hit_cons ?_ found⟩
    rw [InRange, if_pos le]
    exact Bool.and_eq_true_iff
  | case5 matched c rest inside low hit high rest' read other le ih =>
    obtain ⟨items, later, found⟩ := ih
    have first := readClassByte_reads c rest
    rw [read] at first
    refine ⟨(low, high) :: items, .range (fun e => inside (Option.some.inj e)) first other later,
      hit_cons ?_ found⟩
    -- the bounds are swapped
    rw [InRange, if_neg le]
    exact Bool.and_eq_true_iff
  | case6 matched c rest inside low hit noRange ih =>
    obtain ⟨items, later, found⟩ := ih
    refine ⟨(low, low) :: items, .single (fun e => inside (Option.some.inj e))
      (readClassByte_reads c rest) (fun high rest' e => (noRange high rest' e).elim) later,
      hit_cons (hit_single low) found⟩

/-- What `matchCharacterClass` does without and with a negation. -/
lemma matchCharacterClass_plain {rest : Bytes} (plain : rest.head? ≠ some 94) :
    matchCharacterClass charLe rest character = matchClassItems charLe character false rest := by
  unfold matchCharacterClass
  split
  rename_i negate pattern e
  split at e
  · exact absurd rfl plain
  · cases e
    simp

lemma matchCharacterClass_negated (rest : Bytes) :
    matchCharacterClass charLe (94 :: rest) character =
      (!(matchClassItems charLe character false rest).1,
        (matchClassItems charLe character false rest).2) := by
  simp [matchCharacterClass]

/-- What `matchCharacterClass` says about a class that has been read: the position after it, and
whether the byte is in it. -/
def ClassAnswer (charLe : UInt8 → UInt8 → Bool) (character : UInt8) (rest after : Bytes)
    (negated : Bool) (items : List (UInt8 × UInt8)) : Prop :=
  (matchCharacterClass charLe rest character).2 = after ∧
    ((matchCharacterClass charLe rest character).1 = true ↔
      ((∃ bounds ∈ items, InRange charLe character bounds) ↔ negated = false))

lemma ClassItems.negated {rest after : Bytes} {items : List (UInt8 × UInt8)}
    (read : ClassItems rest items after) :
    ClassAnswer charLe character (94 :: rest) after true items := by
  obtain ⟨items', read', found⟩ := matchClassItems_spec charLe character false rest
  obtain ⟨rfl, e⟩ := read.unique read'
  rw [ClassAnswer, matchCharacterClass_negated]
  refine ⟨e.symm, ?_⟩
  dsimp only
  rw [Bool.not_eq_true', ← Bool.not_eq_true, found]
  simp

lemma ClassItems.plain {rest after : Bytes} {items : List (UInt8 × UInt8)}
    (plain : rest.head? ≠ some 94) (read : ClassItems rest items after) :
    ClassAnswer charLe character rest after false items := by
  obtain ⟨items', read', found⟩ := matchClassItems_spec charLe character false rest
  obtain ⟨rfl, e⟩ := read.unique read'
  rw [ClassAnswer, matchCharacterClass_plain plain]
  refine ⟨e.symm, ?_⟩
  rw [found]
  simp

/-- Every pattern has a reading. -/
lemma exists_globTokens (pattern : Bytes) : ∃ tokens, GlobTokens pattern tokens := by
  induction h : pattern.length using Nat.strong_induction_on generalizing pattern with
  | _ length ih =>
  subst h
  cases pattern with
  | nil => exact ⟨[], .nil⟩
  | cons b rest =>
    have shorter : ∀ after : Bytes, after.length ≤ rest.length →
        ∃ tokens, GlobTokens after tokens :=
      fun after le => ih _ (Nat.lt_succ_of_le le) after rfl
    by_cases star : b = 42
    · subst star
      obtain ⟨tokens, later⟩ := shorter rest le_rfl
      exact ⟨_, .star later⟩
    by_cases any : b = 63
    · subst any
      obtain ⟨tokens, later⟩ := shorter rest le_rfl
      exact ⟨_, .any later⟩
    by_cases opens : b = 91
    · subst opens
      by_cases negated : rest.head? = some 94
      · obtain ⟨tail, rfl⟩ := List.head?_eq_some_iff.mp negated
        obtain ⟨items, read, _⟩ := matchClassItems_spec (fun _ _ => true) 0 false tail
        obtain ⟨tokens, later⟩ := shorter _ (read.length.trans (Nat.le_succ _))
        exact ⟨_, .negated read later⟩
      · obtain ⟨items, read, _⟩ := matchClassItems_spec (fun _ _ => true) 0 false rest
        obtain ⟨tokens, later⟩ := shorter _ read.length
        exact ⟨_, .cls negated read later⟩
    by_cases escape : b = 92 ∧ rest ≠ []
    · obtain ⟨rfl, nonempty⟩ := escape
      obtain ⟨escaped, rest, rfl⟩ := List.exists_cons_of_ne_nil nonempty
      obtain ⟨tokens, later⟩ := shorter rest (Nat.le_succ _)
      exact ⟨_, .escaped later⟩
    · obtain ⟨tokens, later⟩ := shorter rest le_rfl
      refine ⟨_, .byte star any opens (fun e => ?_) later⟩
      by_contra nonempty
      exact escape ⟨e, nonempty⟩

end Classes

section Loop

variable {charLe : UInt8 → UInt8 → Bool} {pattern text : Bytes} {star : Option (Bytes × Bytes)}
  {tokens : List GlobToken}

/-- The text matches when the last star absorbs at least one byte more. -/
def AbsorbsMore (charLe : UInt8 → UInt8 → Bool) (star : Option (Bytes × Bytes)) : Prop :=
  ∃ starPattern starText tokens, star = some (starPattern, starText) ∧
    GlobTokens starPattern tokens ∧ GlobMatches charLe (.star :: tokens) starText.tail

/-- Since the last star, as many tokens have been read as bytes, and all of them match single
bytes. -/
def SinceStar (charLe : UInt8 → UInt8 → Bool) (tokens : List GlobToken) (text : Bytes)
    (star : Option (Bytes × Bytes)) : Prop :=
  ∀ starPattern starText, star = some (starPattern, starText) →
    ∃ ones : List GlobToken, (∀ token ∈ ones, (token.symbol charLe).IsOne) ∧
      GlobTokens starPattern (ones ++ tokens) ∧ text <:+ starText ∧
      starText.length = ones.length + text.length

lemma not_absorbsMore_none : ¬ AbsorbsMore charLe none := by
  rintro ⟨_, _, _, none_, _⟩
  cases none_

lemma absorbsMore_some {starPattern starText : Bytes} (read : GlobTokens starPattern tokens) :
    AbsorbsMore charLe (some (starPattern, starText)) ↔
      GlobMatches charLe (.star :: tokens) starText.tail := by
  constructor
  · rintro ⟨_, _, tokens', e, read', fits⟩
    cases e
    rwa [read.unique read']
  · exact fun fits => ⟨_, _, _, rfl, read, fits⟩

/-- Right after a star. -/
lemma sinceStar_some (read : GlobTokens pattern tokens) :
    SinceStar charLe tokens text (some (pattern, text)) := by
  rintro _ _ ⟨⟩
  exact ⟨[], by simp, read, List.suffix_rfl, by simp⟩

/-- What an earlier star could absorb, a star in this place can absorb too. -/
lemma AbsorbsMore.later (h : AbsorbsMore charLe star) (since : SinceStar charLe tokens text star) :
    GlobMatches charLe (.star :: tokens) text.tail := by
  obtain ⟨starPattern, starText, tokens', rfl, read, fits⟩ := h
  -- as many tokens as bytes since that star, so this place is as far into the text
  obtain ⟨ones, single, read', suffix, length⟩ := since _ _ rfl
  obtain rfl := read.unique read'
  unfold GlobMatches at fits ⊢
  rw [List.map_cons, List.map_append] at fits
  refine Matches.later ?_ suffix (by rw [List.length_map, length]) fits
  intro symbol mem
  obtain ⟨token, inside, rfl⟩ := List.mem_map.mp mem
  exact single token inside

/-- One more token for a single byte has been read. -/
lemma SinceStar.next {token : GlobToken} {accepts : UInt8 → Prop} {c : UInt8}
    (symbol : token.symbol charLe = .one accepts)
    (since : SinceStar charLe (token :: tokens) (c :: text) star) :
    SinceStar charLe tokens text star := by
  intro starPattern starText e
  obtain ⟨ones, single, read, suffix, length⟩ := since _ _ e
  refine ⟨ones ++ [token], ?_, ?_, (List.suffix_cons c text).trans suffix, ?_⟩
  · intro other mem
    rcases List.mem_append.mp mem with mem | mem
    · exact single other mem
    · rw [List.mem_singleton.mp mem, symbol]
      trivial
  · rw [List.append_assoc]
    exact read
  · rw [length, List.length_append, List.length_cons, List.length_singleton]
    omega

/-- Right after a star the loop stands where the star does. -/
lemma ahead_star (pattern text : Bytes) :
    ∀ p t, some (pattern, text) = some (p, t) → text.length ≤ t.length := by
  rintro p t ⟨⟩
  exact le_rfl

/-- After a mismatch the loop lets the last star absorb one more byte. -/
def globBacktrack (charLe : UInt8 → UInt8 → Bool) (star : Option (Bytes × Bytes)) : Bool :=
  star.elim false fun last =>
    globLoop charLe last.1 last.2.tail (some (last.1, last.2.tail)) (ahead_star last.1 last.2.tail)

section Equations

variable {c b : UInt8} {rest : Bytes}
  (ahead : ∀ p t, star = some (p, t) → (c :: text).length ≤ t.length)

lemma globLoop_nil_text (ahead : ∀ p t, star = some (p, t) → ([] : Bytes).length ≤ t.length) :
    globLoop charLe pattern [] star ahead = (pattern.dropWhile (· == 42)).isEmpty := by
  rw [globLoop]

lemma globLoop_nil : globLoop charLe [] (c :: text) star ahead = globBacktrack charLe star := by
  rw [globLoop.eq_def]
  cases star <;> rfl

lemma globLoop_star : globLoop charLe (42 :: rest) (c :: text) star ahead =
    globLoop charLe rest (c :: text) (some (rest, c :: text)) (ahead_star rest (c :: text)) := by
  rw [globLoop]

lemma globLoop_any : globLoop charLe (63 :: rest) (c :: text) star ahead =
    globLoop charLe rest text star
      (fun p t e => Nat.le_of_succ_le (ahead p t e)) := by
  rw [globLoop]

lemma globLoop_class : globLoop charLe (91 :: rest) (c :: text) star ahead =
    if (matchCharacterClass charLe rest c).1 then
      globLoop charLe (matchCharacterClass charLe rest c).2 text star
        (fun p t e => Nat.le_of_succ_le (ahead p t e))
    else globBacktrack charLe star := by
  rcases e : matchCharacterClass charLe rest c with ⟨_ | _, next⟩
  · rw [globLoop.eq_def]
    cases star <;> simp only [e] <;> rfl
  · rw [globLoop.eq_def]
    cases star <;> simp only [e] <;> rfl

lemma globLoop_escaped : globLoop charLe (92 :: b :: rest) (c :: text) star ahead =
    if b = c then globLoop charLe rest text star (fun p t e => Nat.le_of_succ_le (ahead p t e))
    else globBacktrack charLe star := by
  rw [globLoop.eq_def]
  cases star <;> rfl

lemma globLoop_byte (noStar : b ≠ 42) (noAny : b ≠ 63) (noClass : b ≠ 91)
    (last : b = 92 → rest = []) :
    globLoop charLe (b :: rest) (c :: text) star ahead =
    if b = c then globLoop charLe rest text star (fun p t e => Nat.le_of_succ_le (ahead p t e))
    else globBacktrack charLe star := by
  rw [globLoop.eq_def]
  dsimp only
  split
  · rename_i e
    cases e
  · rename_i e
    cases e
    exact absurd rfl noStar
  · rename_i e
    cases e
    exact absurd rfl noAny
  · rename_i e
    cases e
    exact absurd rfl noClass
  · rename_i e
    cases e
    cases last rfl
  · rename_i e
    cases e
    cases star <;> rfl

end Equations

/-- A byte that the token does not match. -/
lemma mismatch {token : GlobToken} {accepts : UInt8 → Prop} {c : UInt8} {P : Prop}
    (symbol : token.symbol charLe = .one accepts) (other : ¬ accepts c) :
    P ↔ GlobMatches charLe (token :: tokens) (c :: text) ∨ P := by
  rw [GlobMatches, List.map_cons, symbol, matches_one]
  simp [other]

/-- A byte that the token matches. -/
lemma match_next {token : GlobToken} {accepts : UInt8 → Prop} {c : UInt8} {P : Prop}
    (symbol : token.symbol charLe = .one accepts) (accepted : accepts c) :
    (GlobMatches charLe tokens text ∨ P) ↔
      GlobMatches charLe (token :: tokens) (c :: text) ∨ P := by
  rw [GlobMatches, GlobMatches, List.map_cons, symbol, matches_one]
  simp [accepted]

/-- Only stars match the empty text. -/
lemma globMatches_nil (read : GlobTokens pattern tokens) :
    (pattern.dropWhile (· == 42)).isEmpty = true ↔ GlobMatches charLe tokens [] := by
  induction read with
  | nil => exact iff_of_true rfl (matches_nil.mpr rfl)
  | star _ ih =>
    rw [GlobMatches, List.map_cons]
    exact ih.trans matches_star_nil.symm
  | any => exact iff_of_false (by simp) not_matches_one_nil
  | negated => exact iff_of_false (by simp) not_matches_one_nil
  | cls => exact iff_of_false (by simp) not_matches_one_nil
  | escaped => exact iff_of_false (by simp) not_matches_one_nil
  | byte noStar => exact iff_of_false (by simp [noStar]) not_matches_one_nil

/-- At the end of the text, a star that absorbs more leaves nothing for what follows it. -/
lemma globLoop_nil_iff (ahead : ∀ p t, star = some (p, t) → ([] : Bytes).length ≤ t.length)
    (read : GlobTokens pattern tokens) (since : SinceStar charLe tokens [] star) :
    globLoop charLe pattern [] star ahead = true ↔
      GlobMatches charLe tokens [] ∨ AbsorbsMore charLe star := by
  rw [globLoop_nil_text, globMatches_nil read]
  exact (or_iff_left_of_imp fun more => matches_star_nil.mp (more.later since)).symm

/-- Letting the last star absorb more is all that a mismatch leaves to try, while there are at most
`length` bytes from that star on. -/
def Backtracks (charLe : UInt8 → UInt8 → Bool) (length : ℕ) : Prop :=
  ∀ starPattern starText : Bytes, 0 < starText.length → starText.length ≤ length →
    (globBacktrack charLe (some (starPattern, starText)) = true ↔
      AbsorbsMore charLe (some (starPattern, starText)))

lemma Backtracks.mismatch {length : ℕ} {c : UInt8} (back : Backtracks charLe length)
    (ahead : ∀ p t, star = some (p, t) → (c :: text).length ≤ t.length)
    (within : ∀ p t, star = some (p, t) → t.length ≤ length) :
    globBacktrack charLe star = true ↔ AbsorbsMore charLe star := by
  cases star with
  | none => exact iff_of_false (by simp [globBacktrack]) not_absorbsMore_none
  | some last =>
    obtain ⟨starPattern, starText⟩ := last
    have pos : 0 < starText.length := Nat.lt_of_lt_of_le (Nat.succ_pos _) (ahead _ _ rfl)
    exact back starPattern starText pos (within _ _ rfl)

/-- A class either matches the byte, or is a mismatch. -/
lemma globLoop_class_iff {c : UInt8} {rest after : Bytes} {negated : Bool}
    {items : List (UInt8 × UInt8)}
    (ahead : ∀ p t, star = some (p, t) → (c :: text).length ≤ t.length)
    (answer : ClassAnswer charLe c rest after negated items)
    (back : globBacktrack charLe star = true ↔ AbsorbsMore charLe star)
    (again : ∀ ahead, globLoop charLe after text star ahead = true ↔
      GlobMatches charLe tokens text ∨ AbsorbsMore charLe star) :
    globLoop charLe (91 :: rest) (c :: text) star ahead = true ↔
      GlobMatches charLe (.cls negated items :: tokens) (c :: text) ∨ AbsorbsMore charLe star := by
  obtain ⟨rfl, found⟩ := answer
  rw [globLoop_class]
  by_cases hit : (matchCharacterClass charLe rest c).1 = true
  · rw [if_pos hit, again]
    exact match_next rfl (found.mp hit)
  · rw [if_neg hit, back]
    exact FlashKV.mismatch rfl (hit ∘ found.mpr)

/-- The same for a token that stands for one byte. -/
lemma globLoop_byte_iff {c b : UInt8} {result : Bool}
    (back : globBacktrack charLe star = true ↔ AbsorbsMore charLe star)
    (again : result = true ↔ GlobMatches charLe tokens text ∨ AbsorbsMore charLe star) :
    (if b = c then result else globBacktrack charLe star) = true ↔
      GlobMatches charLe (.byte b :: tokens) (c :: text) ∨ AbsorbsMore charLe star := by
  by_cases same : b = c
  · rw [if_pos same, again]
    exact match_next rfl same.symm
  · rw [if_neg same, back]
    exact mismatch rfl (Ne.symm same)

/-- The loop succeeds if the rest of the text matches the rest of the pattern, or if the last star
can absorb more: it goes through the tokens of the pattern one by one, and `Backtracks` takes over
where one of them does not match. -/
theorem globLoop_iff {length : ℕ} (back : Backtracks charLe length)
    (ahead : ∀ p t, star = some (p, t) → text.length ≤ t.length) (short : text.length ≤ length)
    (within : ∀ p t, star = some (p, t) → t.length ≤ length)
    (read : GlobTokens pattern tokens) (since : SinceStar charLe tokens text star) :
    globLoop charLe pattern text star ahead = true ↔
      GlobMatches charLe tokens text ∨ AbsorbsMore charLe star := by
  induction read generalizing text star with
  | nil =>
    cases text with
    | nil => exact globLoop_nil_iff ahead .nil since
    | cons c text =>
      -- the pattern is used up and the text is not
      rw [globLoop_nil, back.mismatch ahead within, GlobMatches, List.map_nil, matches_nil]
      simp
  | star later ih =>
    rename_i rest tokens
    cases text with
    | nil => exact globLoop_nil_iff ahead (.star later) since
    | cons c text =>
      have here : ∀ p t, some (rest, c :: text) = some (p, t) → t.length ≤ length := by
        rintro p t ⟨⟩
        exact short
      rw [globLoop_star, ih _ short here (sinceStar_some later), absorbsMore_some later]
      have absorb : GlobMatches charLe tokens (c :: text) ∨
            GlobMatches charLe (.star :: tokens) (c :: text).tail ↔
          GlobMatches charLe (.star :: tokens) (c :: text) := matches_star_tail.symm
      rw [absorb]
      -- the new star makes up for the earlier one
      refine (or_iff_left_of_imp fun more => ?_).symm
      exact matches_star_tail.mpr (.inr (matches_star_star.mp (more.later since)))
  | any later ih =>
    cases text with
    | nil => exact globLoop_nil_iff ahead (.any later) since
    | cons c text =>
      rw [globLoop_any, ih _ (Nat.le_of_succ_le short) within (since.next rfl)]
      exact match_next rfl trivial
  | negated items later ih =>
    cases text with
    | nil => exact globLoop_nil_iff ahead (.negated items later) since
    | cons c text =>
      exact globLoop_class_iff ahead items.negated (back.mismatch ahead within)
        fun ahead => ih ahead (Nat.le_of_succ_le short) within (since.next rfl)
  | cls plain items later ih =>
    cases text with
    | nil => exact globLoop_nil_iff ahead (.cls plain items later) since
    | cons c text =>
      exact globLoop_class_iff ahead (items.plain plain) (back.mismatch ahead within)
        fun ahead => ih ahead (Nat.le_of_succ_le short) within (since.next rfl)
  | escaped later ih =>
    cases text with
    | nil => exact globLoop_nil_iff ahead (.escaped later) since
    | cons c text =>
      rw [globLoop_escaped]
      exact globLoop_byte_iff (back.mismatch ahead within)
        (ih _ (Nat.le_of_succ_le short) within (since.next rfl))
  | byte noStar noAny noClass last later ih =>
    cases text with
    | nil => exact globLoop_nil_iff ahead (.byte noStar noAny noClass last later) since
    | cons c text =>
      rw [globLoop_byte _ noStar noAny noClass last]
      exact globLoop_byte_iff (back.mismatch ahead within)
        (ih _ (Nat.le_of_succ_le short) within (since.next rfl))

/-- By induction on the number of bytes from the star on: a mismatch moves the star by one byte. -/
lemma backtracks (charLe : UInt8 → UInt8 → Bool) (length : ℕ) : Backtracks charLe length := by
  induction length with
  | zero => exact fun _ _ pos le => absurd le (Nat.not_le_of_gt pos)
  | succ length ih =>
    intro starPattern starText pos le
    obtain ⟨tokens, read⟩ := exists_globTokens starPattern
    have tail : starText.tail.length ≤ length := by
      rw [List.length_tail]
      omega
    have within : ∀ p t, some (starPattern, starText.tail) = some (p, t) → t.length ≤ length := by
      rintro p t ⟨⟩
      exact tail
    rw [globBacktrack, Option.elim_some, globLoop_iff ih _ tail within read (sinceStar_some read),
      absorbsMore_some read, absorbsMore_some read]
    exact matches_star_tail.symm

end Loop

/-- `globMatch` decides the language of its pattern, whatever the order of `char`: the pattern reads
as tokens in exactly one way, and the answer is whether the text is a sequence of pieces that the
tokens match in order. -/
theorem globMatch_language (charLe : UInt8 → UInt8 → Bool) (pattern text : Bytes) :
    ∃ tokens, GlobTokens pattern tokens ∧ (∀ other, GlobTokens pattern other → other = tokens) ∧
      (globMatchWith charLe pattern text = true ↔ GlobMatches charLe tokens text) := by
  obtain ⟨tokens, read⟩ := exists_globTokens pattern
  refine ⟨tokens, read, fun other read' => read'.unique read, ?_⟩
  rw [globMatchWith, globLoop_iff (backtracks charLe text.length) _ le_rfl (by simp) read
    (by rintro _ _ ⟨⟩)]
  exact or_iff_left not_absorbsMore_none

end FlashKV
