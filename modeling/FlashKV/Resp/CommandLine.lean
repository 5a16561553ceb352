import FlashKV.Resp.Quote

/-!
# The grammar of command lines

A line is a sequence of words with white space between them. `tokenizeCommandLine` accepts exactly
the lines of this grammar, and returns what their words denote.
-/

namespace FlashKV

/-- White space: space, tab, CR and LF. -/
def Blank (b : UInt8) : Prop :=
  b ∈ ([32, 9, 13, 10] : Bytes)

/-- A hexadecimal digit and its value. -/
inductive HexDigit : UInt8 → Nat → Prop where
  | decimal {n : Nat} : n < 10 → HexDigit (UInt8.ofNat (48 + n)) n
  | lower {n : Nat} : n < 6 → HexDigit (UInt8.ofNat (97 + n)) (10 + n)
  | upper {n : Nat} : n < 6 → HexDigit (UInt8.ofNat (65 + n)) (10 + n)

/-- A byte after a backslash, and the byte that the two stand for. -/
inductive Escape : UInt8 → UInt8 → Prop where
  | newline : Escape 110 10
  | carriageReturn : Escape 114 13
  | tab : Escape 116 9
  | backspace : Escape 98 8
  | bell : Escape 97 7
  | other {b : UInt8} : b ∉ ([110, 114, 116, 98, 97] : Bytes) → Escape b b

/-- Does the text start with two hexadecimal digits? -/
def StartsHex (text : Bytes) : Prop :=
  ∃ high low rest h l, text = high :: low :: rest ∧ HexDigit high h ∧ HexDigit low l

/-- The text between double quotes, and what it denotes. -/
inductive DoubleQuoted : Bytes → Bytes → Prop where
  | nil : DoubleQuoted [] []
  | hex {high low : UInt8} {h l : Nat} {text value : Bytes} :
    HexDigit high h →
    HexDigit low l →
    DoubleQuoted text value →
    DoubleQuoted (92 :: 120 :: high :: low :: text) (UInt8.ofNat (h * 16 + l) :: value)
  | escape {escaped b : UInt8} {text value : Bytes} :
    (escaped = 120 → ¬ StartsHex text) →
    Escape escaped b →
    DoubleQuoted text value →
    DoubleQuoted (92 :: escaped :: text) (b :: value)
  | literal {b : UInt8} {text value : Bytes} :
    b ≠ 92 → b ≠ 34 →
    DoubleQuoted text value →
    DoubleQuoted (b :: text) (b :: value)

/-- The text between single quotes, and what it denotes. A backslash right before the closing quote
would escape it. -/
inductive SingleQuoted : Bytes → Bytes → Prop where
  | nil : SingleQuoted [] []
  | escape {text value : Bytes} :
    SingleQuoted text value →
    SingleQuoted (92 :: 39 :: text) (39 :: value)
  | literal {b : UInt8} {text value : Bytes} :
    b ≠ 39 →
    (b = 92 → text ≠ []) →
    SingleQuoted text value →
    SingleQuoted (b :: text) (b :: value)

/-- A word, and what it denotes. -/
inductive Word : Bytes → Bytes → Prop where
  | bare {b : UInt8} {text : Bytes} :
    b ≠ 34 → b ≠ 39 →
    (∀ c ∈ b :: text, ¬ Blank c) →
    Word (b :: text) (b :: text)
  | double {text value : Bytes} :
    DoubleQuoted text value →
    Word (34 :: (text ++ [34])) value
  | single {text value : Bytes} :
    SingleQuoted text value →
    Word (39 :: (text ++ [39])) value

/-- A word ends with the line or before white space. -/
def EndsWord (rest : Bytes) : Prop :=
  ∀ b ∈ rest.head?, Blank b

/-- A line, and what its words denote. -/
inductive CommandLine : Bytes → List Bytes → Prop where
  | nil {blank : Bytes} :
    (∀ b ∈ blank, Blank b) →
    CommandLine blank []
  | cons {blank word value rest : Bytes} {values : List Bytes} :
    (∀ b ∈ blank, Blank b) →
    Word word value →
    EndsWord rest →
    CommandLine rest values →
    CommandLine (blank ++ (word ++ rest)) (value :: values)

section Bytes

variable {b : UInt8} {n : Nat}

lemma isSpace_iff : isSpace b = true ↔ Blank b := by
  simp [isSpace, Blank]

lemma endsArgument_iff {rest : Bytes} : endsArgument rest = true ↔ EndsWord rest := by
  cases rest with
  | nil => simp [endsArgument, EndsWord]
  | cons b rest => simp [endsArgument, EndsWord, isSpace_iff]

/-- A byte between two bounds is given by its offset from the lower one. -/
lemma exists_offset {low high : UInt8} (above : low ≤ b) (below : b ≤ high) :
    b.toNat - low.toNat ≤ high.toNat - low.toNat ∧
      b = UInt8.ofNat (low.toNat + (b.toNat - low.toNat)) := by
  have above : low.toNat ≤ b.toNat := UInt8.le_iff_toNat_le.mp above
  have below : b.toNat ≤ high.toNat := UInt8.le_iff_toNat_le.mp below
  refine ⟨Nat.sub_le_sub_right below _, ?_⟩
  rw [Nat.add_sub_cancel' above, UInt8.ofNat_toNat]

lemma hexValue_iff : hexValue b = some n ↔ HexDigit b n := by
  constructor
  · intro h
    unfold hexValue at h
    split at h
    · rename_i range
      obtain ⟨small, e⟩ := exists_offset range.1 range.2
      cases h
      have digit : HexDigit (UInt8.ofNat ((48 : UInt8).toNat + (b.toNat - (48 : UInt8).toNat)))
        (b.toNat - 48) := .decimal (Nat.lt_succ_of_le small)
      rwa [← e] at digit
    · split at h
      · rename_i range
        obtain ⟨small, e⟩ := exists_offset range.1 range.2
        cases h
        have digit : HexDigit (UInt8.ofNat ((97 : UInt8).toNat + (b.toNat - (97 : UInt8).toNat)))
          (10 + (b.toNat - 97)) := .lower (Nat.lt_succ_of_le small)
        rwa [← e, Nat.add_comm] at digit
      · split at h
        · rename_i range
          obtain ⟨small, e⟩ := exists_offset range.1 range.2
          cases h
          have digit : HexDigit (UInt8.ofNat ((65 : UInt8).toNat + (b.toNat - (65 : UInt8).toNat)))
            (10 + (b.toNat - 65)) := .upper (Nat.lt_succ_of_le small)
          rwa [← e, Nat.add_comm] at digit
        · cases h
  · rintro (lt | lt | lt)
    · interval_cases n <;> rfl
    · rename_i m
      interval_cases m <;> rfl
    · rename_i m
      interval_cases m <;> rfl

lemma unescape_iff {escaped : UInt8} : unescape escaped = b ↔ Escape escaped b := by
  constructor
  · rintro rfl
    unfold unescape
    split
    · exact .newline
    · exact .carriageReturn
    · exact .tab
    · exact .backspace
    · exact .bell
    · rename_i newline carriageReturn tab backspace bell
      refine .other ?_
      simp only [List.mem_cons, List.not_mem_nil, or_false, not_or]
      exact ⟨newline, carriageReturn, tab, backspace, bell⟩
  · rintro (_ | _ | _ | _ | _ | other)
    · rfl
    · rfl
    · rfl
    · rfl
    · rfl
    · simp only [List.mem_cons, not_or] at other
      obtain ⟨newline, carriageReturn, tab, backspace, bell, _⟩ := other
      unfold unescape
      split <;> first | rfl | contradiction

end Bytes

/-! ### Quoted text -/

section Quoted

variable {current text value rest argument line : Bytes}

/-- Two digits after `\x`. -/
lemma hexEscape_digits {high low : UInt8} {h l : Nat} (first : HexDigit high h)
    (second : HexDigit low l) :
    hexEscape (high :: low :: rest) = some (UInt8.ofNat (h * 16 + l), rest) := by
  simp only [hexEscape, hexValue_iff.mpr first, hexValue_iff.mpr second]

lemma hexEscape_some {b : UInt8} (found : hexEscape line = some (b, rest)) :
    ∃ high low h l, line = high :: low :: rest ∧ HexDigit high h ∧ HexDigit low l ∧
      b = UInt8.ofNat (h * 16 + l) := by
  unfold hexEscape at found
  split at found
  · split at found
    · rename_i first second
      cases found
      exact ⟨_, _, _, _, rfl, hexValue_iff.mp first, hexValue_iff.mp second, rfl⟩
    · cases found
  · cases found

/-- The closing quote is no digit. -/
lemma not_hexDigit_quote {n : Nat} : ¬ HexDigit 34 n := by
  rw [← hexValue_iff]
  simp [hexValue]

lemma hexEscape_none_iff : hexEscape (text ++ 34 :: rest) = none ↔ ¬ StartsHex text := by
  constructor
  · rintro found ⟨high, low, tail, h, l, rfl, first, second⟩
    rw [List.cons_append, List.cons_append, hexEscape_digits first second] at found
    cases found
  · intro other
    rw [Option.eq_none_iff_forall_ne_some]
    rintro ⟨b, tail⟩ found
    obtain ⟨high, low, h, l, e, first, second, -⟩ := hexEscape_some found
    cases text with
    | nil =>
      cases e
      exact not_hexDigit_quote first
    | cons c text =>
      cases text with
      | nil =>
        cases e
        exact not_hexDigit_quote second
      | cons d text =>
        cases e
        exact other ⟨high, low, text, h, l, rfl, first, second⟩

/-- What a scan has found, by the kind of text that it started in. -/
def Scanned (current line argument rest : Bytes) : Quoting → Prop
  | .double => ∃ text value, line = text ++ 34 :: rest ∧ argument = current ++ value ∧
      DoubleQuoted text value ∧ EndsWord rest
  | .single => ∃ text value, line = text ++ 39 :: rest ∧ argument = current ++ value ∧
      SingleQuoted text value ∧ EndsWord rest
  | .bare => ∃ text, line = text ++ rest ∧ EndsWord rest ∧
      ((argument = current ++ text ∧ (∀ b ∈ text, ¬ Blank b) ∧
          (current = [] → ∀ b ∈ text.head?, b ≠ 34 ∧ b ≠ 39)) ∨
        (current = [] ∧ Word text argument))

lemma scanArgument_sound {quoting : Quoting}
    (scanned : scanArgument quoting current line = some (argument, rest)) :
    Scanned current line argument rest quoting := by
  fun_induction scanArgument quoting current line with
  | case1 current =>
    cases scanned
    exact ⟨[], rfl, by simp [EndsWord], .inl ⟨by simp, by simp, by simp⟩⟩
  | case2 | case6 | case10 => cases scanned
  | case3 current escaped tail byte tail' found ih =>
    obtain ⟨rfl, found⟩ : escaped = 120 ∧ hexEscape tail = some (byte, tail') := by
      simpa using found
    obtain ⟨high, low, h, l, rfl, first, second, rfl⟩ := hexEscape_some found
    obtain ⟨text, value, rfl, rfl, quoted, ends⟩ := ih scanned
    exact ⟨_ :: _ :: _ :: _ :: text, _ :: value, rfl, by simp, .hex first second quoted, ends⟩
  | case4 current escaped tail found ih =>
    obtain ⟨text, value, rfl, rfl, quoted, ends⟩ := ih scanned
    have plain : escaped = 120 → ¬ StartsHex text := by
      rintro rfl
      rw [dif_pos rfl] at found
      exact hexEscape_none_iff.mp found
    exact ⟨_ :: _ :: text, _ :: value, rfl, by simp, .escape plain (unescape_iff.mp rfl) quoted,
      ends⟩
  | case5 current tail ends =>
    cases scanned
    exact ⟨[], [], rfl, by simp, .nil, endsArgument_iff.mp ends⟩
  | case7 current b tail backslash quotes ih =>
    obtain ⟨text, value, rfl, rfl, quoted, ends⟩ := ih scanned
    refine ⟨b :: text, b :: value, rfl, by simp, .literal (fun e => ?_) quotes quoted, ends⟩
    -- a backslash is only taken literally at the end of the line, where the quote stays open
    cases text with
    | nil => exact backslash 34 rest e rfl
    | cons c text => exact backslash c _ e rfl
  | case8 current tail ih =>
    obtain ⟨text, value, rfl, rfl, quoted, ends⟩ := ih scanned
    exact ⟨92 :: 39 :: text, 39 :: value, rfl, by simp, .escape quoted, ends⟩
  | case9 current tail ends =>
    cases scanned
    exact ⟨[], [], rfl, by simp, .nil, endsArgument_iff.mp ends⟩
  | case11 current b tail backslash quotes ih =>
    obtain ⟨text, value, rfl, rfl, quoted, ends⟩ := ih scanned
    refine ⟨b :: text, b :: value, rfl, by simp, .literal quotes (fun e none_ => ?_) quoted, ends⟩
    -- right before the quote the backslash escapes it
    subst none_
    exact backslash rest e rfl
  | case12 current next tail space =>
    cases scanned
    refine ⟨[], rfl, endsArgument_iff.mp space, .inl ⟨by simp, by simp, by simp⟩⟩
  | case13 current next tail word opens ih =>
    obtain ⟨rfl, rfl⟩ := opens
    obtain ⟨text, value, rfl, rfl, quoted, ends⟩ := ih scanned
    exact ⟨34 :: (text ++ [34]), by simp, ends, .inr ⟨rfl, .double quoted⟩⟩
  | case14 current next tail word noDouble opens ih =>
    obtain ⟨rfl, rfl⟩ := opens
    obtain ⟨text, value, rfl, rfl, quoted, ends⟩ := ih scanned
    exact ⟨39 :: (text ++ [39]), by simp, ends, .inr ⟨rfl, .single quoted⟩⟩
  | case15 current next tail word noDouble noSingle ih =>
    obtain ⟨text, rfl, ends, ⟨rfl, literal, -⟩ | ⟨empty, -⟩⟩ := ih scanned
    · refine ⟨next :: text, rfl, ends, .inl ⟨by simp, ?_, ?_⟩⟩
      · rw [List.forall_mem_cons]
        exact ⟨fun blank => word (isSpace_iff.mpr blank), literal⟩
      -- a quote opens a quoted word only where nothing has been read yet
      · rintro rfl _ ⟨⟩
        exact ⟨fun e => noDouble ⟨e, rfl⟩, fun e => noSingle ⟨e, rfl⟩⟩
    · exact absurd empty (by simp)

/-- A word is found at the front of a line. -/
lemma scanArgument_word {b : UInt8}
    (scanned : scanArgument .bare [] (b :: line) = some (argument, rest)) (visible : ¬ Blank b) :
    ∃ word, b :: line = word ++ rest ∧ Word word argument ∧ EndsWord rest := by
  obtain ⟨text, e, ends, ⟨literal, visibles, opens⟩ | ⟨-, word⟩⟩ := scanArgument_sound scanned
  · rw [List.nil_append] at literal
    subst literal
    cases argument with
    | nil =>
      rw [List.nil_append] at e
      subst e
      exact absurd (ends b rfl) visible
    | cons c text =>
      obtain ⟨noDouble, noSingle⟩ := opens rfl c rfl
      exact ⟨c :: text, e, .bare noDouble noSingle visibles, ends⟩
  · exact ⟨text, e, word, ends⟩

/-! ### Scanning what the grammar allows -/

lemma scanArgument_double (quoted : DoubleQuoted text value) (ends : EndsWord rest) :
    scanArgument .double current (text ++ 34 :: rest) = some (current ++ value, rest) := by
  induction quoted generalizing current with
  | nil =>
    rw [List.nil_append, List.append_nil, scanArgument, if_pos (endsArgument_iff.mpr ends)]
  | hex first second _ ih =>
    rw [List.cons_append, List.cons_append, List.cons_append, List.cons_append,
      scanArgument_hex (hexEscape_digits first second), ih]
    simp
  | escape plain escape _ ih =>
    rw [List.cons_append, List.cons_append,
      scanArgument_escape fun hex => hexEscape_none_iff.mpr (plain hex), ih,
      unescape_iff.mpr escape]
    simp
  | literal backslash quotes _ ih =>
    rw [List.cons_append, scanArgument_literal backslash quotes, ih]
    simp

/-- The closing quote is the first one that no backslash escapes. -/
lemma SingleQuoted.head {b : UInt8} (h : SingleQuoted (b :: text) value) : b ≠ 39 := by
  cases h with
  | escape => decide
  | literal quotes => exact quotes

lemma scanArgument_single (quoted : SingleQuoted text value) (ends : EndsWord rest) :
    scanArgument .single current (text ++ 39 :: rest) = some (current ++ value, rest) := by
  induction quoted generalizing current with
  | nil =>
    rw [List.nil_append, List.append_nil, scanArgument, if_pos (endsArgument_iff.mpr ends)]
  | escape _ ih =>
    rw [List.cons_append, List.cons_append, scanArgument, ih]
    simp
  | @literal b text value quotes last later ih =>
    rw [List.cons_append, scanArgument, ih]
    · simp
    · exact quotes
    · intro tail backslash e
      cases text with
      | nil => exact last backslash rfl
      | cons c text =>
        cases e
        exact later.head rfl

lemma scanArgument_bare (nonempty : current ≠ []) (literal : ∀ b ∈ text, ¬ Blank b)
    (ends : EndsWord rest) :
    scanArgument .bare current (text ++ rest) = some (current ++ text, rest) := by
  induction text generalizing current with
  | nil =>
    cases rest with
    | nil => simp [scanArgument]
    | cons b rest =>
      rw [List.nil_append, scanArgument, if_pos (isSpace_iff.mpr (ends b rfl)), List.append_nil]
  | cons b text ih =>
    obtain ⟨visible, literal⟩ := List.forall_mem_cons.mp literal
    rw [List.cons_append, scanArgument, if_neg (visible ∘ isSpace_iff.mp),
      if_neg (fun e => nonempty e.2), if_neg (fun e => nonempty e.2), ih (by simp) literal]
    simp

/-- A word at the front of a line is scanned up to its end. -/
lemma Word.scanArgument {word : Bytes} (h : Word word value) (ends : EndsWord rest) :
    scanArgument .bare [] (word ++ rest) = some (value, rest) := by
  cases h with
  | bare noDouble noSingle literal =>
    obtain ⟨visible, literal⟩ := List.forall_mem_cons.mp literal
    rw [List.cons_append, FlashKV.scanArgument, if_neg (visible ∘ isSpace_iff.mp),
      if_neg (fun e => noDouble e.1), if_neg (fun e => noSingle e.1),
      scanArgument_bare (by simp) literal ends]
    rfl
  | double quoted =>
    rw [List.cons_append, List.append_assoc, FlashKV.scanArgument, if_neg (by decide),
      if_pos ⟨rfl, rfl⟩]
    exact scanArgument_double quoted ends
  | single quoted =>
    rw [List.cons_append, List.append_assoc, FlashKV.scanArgument, if_neg (by decide),
      if_neg (by decide), if_pos ⟨rfl, rfl⟩]
    exact scanArgument_single quoted ends

end Quoted

/-! ### Lines -/

section Lines

variable {line : Bytes} {arguments : List Bytes}

/-- The white space before a word is skipped. -/
lemma dropWhile_blank {blank rest : Bytes} {b : UInt8} (skipped : ∀ c ∈ blank, Blank c)
    (visible : ¬ Blank b) : (blank ++ b :: rest).dropWhile isSpace = b :: rest := by
  rw [List.dropWhile_append_of_pos fun c mem => isSpace_iff.mpr (skipped c mem),
    List.dropWhile_cons_of_neg (visible ∘ isSpace_iff.mp)]

/-- A word starts with a byte that is not white space. -/
lemma Word.visible {word value : Bytes} (h : Word word value) :
    ∃ b rest, word = b :: rest ∧ ¬ Blank b := by
  cases h with
  | bare _ _ literal => exact ⟨_, _, rfl, literal _ (by simp)⟩
  | double => exact ⟨_, _, rfl, by simp [Blank]⟩
  | single => exact ⟨_, _, rfl, by simp [Blank]⟩

/-- What the tokenizer accepts is a line of the grammar. -/
lemma tokenizeCommandLine_sound (tokenized : tokenizeCommandLine line = some arguments) :
    CommandLine line arguments := by
  induction length : line.length using Nat.strong_induction_on generalizing line arguments with
  | _ n ih =>
  subst length
  have parts : line.takeWhile isSpace ++ line.dropWhile isSpace = line :=
    List.takeWhile_append_dropWhile
  have blank : ∀ b ∈ line.takeWhile isSpace, Blank b :=
    fun b mem => isSpace_iff.mp (List.mem_takeWhile_imp mem)
  cases skipped : line.dropWhile isSpace with
  | nil =>
    rw [skipped, List.append_nil] at parts
    rw [parts] at blank
    rw [tokenizeCommandLine_blank fun b mem => isSpace_iff.mpr (blank b mem)] at tokenized
    cases tokenized
    exact .nil blank
  | cons b rest =>
    have visible : ¬ Blank b := by
      have head := List.head_dropWhile_not isSpace (l := line) (by simp [skipped])
      simp only [skipped, List.head_cons] at head
      rw [← isSpace_iff, head]
      decide
    rw [tokenizeCommandLine_cons skipped] at tokenized
    obtain ⟨⟨argument, rest'⟩, scanned, tokenized⟩ := Option.bind_eq_some_iff.mp tokenized
    obtain ⟨arguments, tokenized', rfl⟩ := Option.map_eq_some_iff.mp tokenized
    obtain ⟨word, e, isWord, ends⟩ := scanArgument_word scanned visible
    obtain ⟨first, text, nonempty, -⟩ := isWord.visible
    have shorter : rest'.length < line.length := by
      rw [← parts, skipped, e, nonempty]
      simp only [List.length_append, List.length_cons]
      omega
    rw [← parts, skipped, e]
    exact .cons blank isWord ends (ih _ shorter tokenized' rfl)

/-- Every line of the grammar is accepted. -/
lemma CommandLine.tokenizeCommandLine (h : CommandLine line arguments) :
    tokenizeCommandLine line = some arguments := by
  induction h with
  | nil blank => exact tokenizeCommandLine_blank fun b mem => isSpace_iff.mpr (blank b mem)
  | cons blank word ends _ ih =>
    have scanned := word.scanArgument ends
    obtain ⟨b, text, rfl, visible⟩ := word.visible
    rw [List.cons_append] at scanned ⊢
    rw [tokenizeCommandLine_cons (dropWhile_blank blank visible), scanned, Option.bind_some, ih]
    rfl

end Lines

/-- `tokenizeCommandLine` recognises its grammar: it returns what the words denote for a line of the
grammar, and `none` for any other line. -/
theorem tokenizeCommandLine_grammar (line : Bytes) :
    (∀ arguments, tokenizeCommandLine line = some arguments ↔ CommandLine line arguments) ∧
      (tokenizeCommandLine line = none ↔ ∀ arguments, ¬ CommandLine line arguments) := by
  have accepts : ∀ arguments, tokenizeCommandLine line = some arguments ↔
      CommandLine line arguments :=
    fun arguments => ⟨tokenizeCommandLine_sound, CommandLine.tokenizeCommandLine⟩
  refine ⟨accepts, ?_⟩
  rw [Option.eq_none_iff_forall_ne_some]
  exact forall_congr' fun arguments => not_congr (accepts arguments)

end FlashKV
