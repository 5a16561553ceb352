import FlashKV.Lib.Checked
import FlashKV.Resp.CommandLine
import FlashKV.Resp.Extension

/-!
# The parser stays in range

The tokenizer and the parser once more, with every position that they read and every subtraction
checked. They never fault: they are the tokenizer and the parser of the model.
-/

namespace FlashKV

/-! ### The tokenizer -/

/-- The first loop of `tokenizeCommandLine`: the position after the white space. -/
def skipSpacesAt (line : Bytes) (position : Nat) : Checked Nat :=
  if position < line.length then do
    let character ← Checked.get line position
    if isSpace character then skipSpacesAt line (position + 1) else pure position
  else pure position
  termination_by line.length - position

/-- The byte of a `\xHH` escape, `position` being the one of the `x`. -/
def hexEscapeAt (line : Bytes) (escaped : UInt8) (position : Nat) : Checked (Option UInt8) :=
  if escaped = 120 ∧ position + 2 < line.length then do
    let high ← Checked.get line (position + 1)
    (hexValue high).elim (pure none) fun h => do
      let low ← Checked.get line (position + 2)
      pure ((hexValue low).map fun l => UInt8.ofNat (h * 16 + l))
  else pure none

/-- May the quote at this position be a closing one? -/
def endsArgumentAt (line : Bytes) (position : Nat) : Checked Bool :=
  if position + 1 < line.length then do
    let next ← Checked.get line (position + 1)
    pure (isSpace next)
  else pure true

/-- Does a backslash at this position escape a single quote? -/
def escapesQuoteAt (line : Bytes) (character : UInt8) (position : Nat) : Checked Bool :=
  if character = 92 ∧ position + 1 < line.length then do
    let next ← Checked.get line (position + 1)
    pure (decide (next = 39))
  else pure false

/-- The inner loop of `tokenizeCommandLine`: the argument and the position after it, or `none` for
unbalanced quotes. -/
def scanArgumentAt (line : Bytes) (quoting : Quoting) (current : Bytes) (position : Nat) :
    Checked (Option (Bytes × Nat)) :=
  if position < line.length then do
    let character ← Checked.get line position
    if quoting = .double then
      if character = 92 ∧ position + 1 < line.length then do
        let escaped ← Checked.get line (position + 1)
        let byte ← hexEscapeAt line escaped (position + 1)
        byte.elim (scanArgumentAt line .double (current ++ [unescape escaped]) (position + 2))
          fun byte => scanArgumentAt line .double (current ++ [byte]) (position + 4)
      else if character = 34 then do
        let ends ← endsArgumentAt line position
        pure (if ends then some (current, position + 1) else none)
      else scanArgumentAt line .double (current ++ [character]) (position + 1)
    else if quoting = .single then do
      let escapes ← escapesQuoteAt line character position
      if escapes then scanArgumentAt line .single (current ++ [39]) (position + 2)
      else if character = 39 then do
        let ends ← endsArgumentAt line position
        pure (if ends then some (current, position + 1) else none)
      else scanArgumentAt line .single (current ++ [character]) (position + 1)
    else if isSpace character then pure (some (current, position))
    else if character = 34 ∧ current = [] then scanArgumentAt line .double current (position + 1)
    else if character = 39 ∧ current = [] then scanArgumentAt line .single current (position + 1)
    else scanArgumentAt line .bare (current ++ [character]) (position + 1)
  else pure (if quoting = .bare then some (current, position) else none)
  termination_by line.length - position

/-- The outer loop of `tokenizeCommandLine`, for so many arguments at most. -/
def tokenizeFrom (line : Bytes) : Nat → Nat → List Bytes → Checked (Option (List Bytes))
  | 0, _, _ => throw .rounds
  | rounds + 1, position, arguments => do
    let position ← skipSpacesAt line position
    if position < line.length then do
      let scanned ← scanArgumentAt line .bare [] position
      scanned.elim (pure none) fun found =>
        tokenizeFrom line rounds found.2 (arguments ++ [found.1])
    else pure (some arguments)

def tokenizeCommandLineAt (line : Bytes) : Checked (Option (List Bytes)) :=
  tokenizeFrom line (line.length + 1) 0 []

section Tokenizer

variable {line current : Bytes} {position : Nat}

/-- A position that is reached with some rest of the line left. -/
lemma length_sub_drop (inside : position ≤ line.length) :
    line.length - (line.drop position).length = position := by
  rw [List.length_drop]
  omega

lemma skipSpacesAt_eq (inside : position ≤ line.length) :
    skipSpacesAt line position =
      pure (line.length - ((line.drop position).dropWhile isSpace).length) := by
  fun_induction skipSpacesAt line position with
  | case1 position more ih =>
    obtain ⟨character, read, rest⟩ := Checked.get_inside more
    rw [read, pure_bind, rest, List.dropWhile_cons]
    split
    · exact ih more
    · rw [← rest, length_sub_drop inside]
  | case2 position done =>
    rw [List.drop_eq_nil_of_le (Nat.le_of_not_lt done), List.dropWhile_nil, List.length_nil]
    exact congrArg pure (by omega)

lemma hexEscapeAt_eq (escaped : UInt8) :
    hexEscapeAt line escaped position = pure
      ((if escaped = 120 then hexEscape (line.drop (position + 1)) else none).map (·.1)) := by
  unfold hexEscapeAt
  by_cases hex : escaped = 120
  · rw [if_pos hex]
    by_cases more : position + 2 < line.length
    · obtain ⟨high, readHigh, rest⟩ := Checked.get_inside (show position + 1 < line.length by omega)
      obtain ⟨low, readLow, rest'⟩ := Checked.get_inside more
      rw [if_pos ⟨hex, more⟩, readHigh, pure_bind, readLow, rest, rest']
      cases first : hexValue high with
      | none => simp [hexEscape, first]
      | some h =>
        cases second : hexValue low with
        | none => simp [hexEscape, first, second]
        | some l => simp [hexEscape, first, second]
    · -- fewer than two bytes are left
      have short : hexEscape (line.drop (position + 1)) = none := by
        have few : (line.drop (position + 1)).length < 2 := by
          rw [List.length_drop]
          omega
        cases left : line.drop (position + 1) with
        | nil => rfl
        | cons b rest =>
          rw [left, List.length_cons] at few
          rw [List.length_eq_zero_iff.mp (show rest.length = 0 by omega)]
          rfl
      rw [if_neg fun h => more h.2, short]
      rfl
  · rw [if_neg hex, if_neg fun h => hex h.1]
    rfl

lemma endsArgumentAt_eq : endsArgumentAt line position =
    pure (endsArgument (line.drop (position + 1))) := by
  unfold endsArgumentAt
  by_cases more : position + 1 < line.length
  · obtain ⟨next, read, rest⟩ := Checked.get_inside more
    rw [if_pos more, read, rest]
    rfl
  · rw [if_neg more, List.drop_eq_nil_of_le (Nat.le_of_not_lt more)]
    rfl

lemma escapesQuoteAt_eq (character : UInt8) : escapesQuoteAt line character position =
    pure (decide (character = 92 ∧ (line.drop (position + 1)).head? = some 39)) := by
  unfold escapesQuoteAt
  by_cases more : position + 1 < line.length
  · obtain ⟨next, read, rest⟩ := Checked.get_inside more
    rw [read, rest]
    by_cases backslash : character = 92 <;> simp [backslash, more]
  · rw [if_neg fun h => more h.2, List.drop_eq_nil_of_le (Nat.le_of_not_lt more)]
    simp

/-- Where scanning has ended, as a position in the line. -/
def scannedAt (line : Bytes) (scanned : Option (Bytes × Bytes)) : Option (Bytes × Nat) :=
  scanned.map fun found => (found.1, line.length - found.2.length)

lemma scannedAt_some (inside : position ≤ line.length) :
    scannedAt line (some (current, line.drop position)) = some (current, position) := by
  rw [scannedAt, Option.map_some, length_sub_drop inside]

/-- A closing quote, or one that may not stand there. -/
lemma scannedAt_quote (inside : position + 1 ≤ line.length) :
    scannedAt line (if endsArgument (line.drop (position + 1)) then
        some (current, line.drop (position + 1)) else none) =
      if endsArgument (line.drop (position + 1)) then some (current, position + 1) else none := by
  split
  · exact scannedAt_some inside
  · rfl

/-- Inside double quotes, at a backslash that is not the last byte. -/
lemma scanArgument_backslash (escaped : UInt8) (rest : Bytes) :
    scanArgument .double current (92 :: escaped :: rest) =
      (if escaped = 120 then hexEscape rest else none).elim
        (scanArgument .double (current ++ [unescape escaped]) rest)
        fun found => scanArgument .double (current ++ [found.1]) found.2 := by
  by_cases hex : escaped = 120
  · cases found : hexEscape rest with
    | none =>
      rw [scanArgument_escape fun _ => found, if_pos hex]
      rfl
    | some found_ =>
      rw [if_pos hex, hex, scanArgument_hex found]
      rfl
  · rw [scanArgument_escape fun e => absurd e hex, if_neg hex]
    rfl

lemma hexEscape_rest {text : Bytes} {found : UInt8 × Bytes} (escape : hexEscape text = some found) :
    2 ≤ text.length ∧ found.2 = text.drop 2 := by
  unfold hexEscape at escape
  split at escape
  · split at escape
    · cases escape
      exact ⟨by simp, rfl⟩
    · cases escape
  · cases escape

/-- At this position the scanner reads within the line and does what the model's does. -/
def ScansAt (line : Bytes) (quoting : Quoting) (current : Bytes) (position : Nat) : Prop :=
  scanArgumentAt line quoting current position =
    pure (scannedAt line (scanArgument quoting current (line.drop position)))

/-- The scanner does what the model's does at every later position of the line. -/
def ScansAfter (line : Bytes) (position : Nat) : Prop :=
  ∀ quoting current more, 0 < more → position + more ≤ line.length →
    ScansAt line quoting current (position + more)

lemma ScansAfter.double (later : ScansAfter line position) (more : position < line.length)
    (current : Bytes) : ScansAt line .double current position := by
  obtain ⟨character, read, rest⟩ := Checked.get_inside more
  rw [ScansAt, scanArgumentAt, if_pos more, read, pure_bind, if_pos rfl]
  by_cases escape : character = 92 ∧ position + 1 < line.length
  · obtain ⟨rfl, last⟩ := escape
    obtain ⟨escaped, readEscaped, rest'⟩ := Checked.get_inside last
    rw [if_pos ⟨rfl, last⟩, readEscaped, pure_bind, hexEscapeAt_eq, pure_bind, rest, rest',
      scanArgument_backslash]
    cases found : if escaped = 120 then hexEscape (line.drop (position + 1 + 1)) else none with
    | none => exact later .double _ 2 two_pos last
    | some byte =>
      obtain ⟨_, hex⟩ := Option.ite_none_right_eq_some.mp found
      obtain ⟨two, after⟩ := hexEscape_rest hex
      rw [List.length_drop] at two
      rw [List.drop_drop] at after
      rw [Option.elim_some, after]
      exact later .double (current ++ [byte.1]) 4 four_pos (by omega)
  rw [if_neg escape]
  by_cases quote : character = 34
  · rw [if_pos quote, endsArgumentAt_eq, pure_bind, rest, quote, scanArgument, scannedAt_quote more]
  rw [if_neg quote, rest, scanArgument]
  · exact later .double _ 1 one_pos more
  · exact quote
  · intro escaped rest' backslash e
    have shorter := congrArg List.length e
    rw [List.length_drop, List.length_cons] at shorter
    exact escape ⟨backslash, by omega⟩

lemma ScansAfter.single (later : ScansAfter line position) (more : position < line.length)
    (current : Bytes) : ScansAt line .single current position := by
  obtain ⟨character, read, rest⟩ := Checked.get_inside more
  rw [ScansAt, scanArgumentAt, if_pos more, read, pure_bind, if_neg (by decide), if_pos rfl,
    escapesQuoteAt_eq, pure_bind]
  by_cases escape : character = 92 ∧ (line.drop (position + 1)).head? = some 39
  · obtain ⟨rfl, second⟩ := escape
    obtain ⟨rest', tail⟩ := List.head?_eq_some_iff.mp second
    have last := congrArg List.length tail
    rw [List.length_drop, List.length_cons] at last
    have after : line.drop (position + 2) = rest' := by
      have split : line.drop (position + 2) = (line.drop (position + 1)).drop 1 := by
        rw [List.drop_drop]
      rw [split, tail]
      rfl
    rw [if_pos (by simp [second]), rest, tail, scanArgument, ← after]
    exact later .single (current ++ [39]) 2 two_pos (by omega)
  rw [if_neg (by simpa using escape)]
  by_cases quote : character = 39
  · rw [if_pos quote, endsArgumentAt_eq, pure_bind, rest, quote, scanArgument, scannedAt_quote more]
  rw [if_neg quote, rest, scanArgument]
  · exact later .single _ 1 one_pos more
  · exact quote
  · intro tail backslash e
    exact escape ⟨backslash, by rw [e]; rfl⟩

lemma ScansAfter.bare (later : ScansAfter line position) (more : position < line.length)
    (current : Bytes) : ScansAt line .bare current position := by
  obtain ⟨character, read, rest⟩ := Checked.get_inside more
  rw [ScansAt, scanArgumentAt, if_pos more, read, pure_bind, if_neg (by decide),
    if_neg (by decide), rest, scanArgument]
  by_cases blank : isSpace character = true
  · rw [if_pos blank, if_pos blank, ← rest, scannedAt_some more.le]
  rw [if_neg blank, if_neg blank]
  by_cases double : character = 34 ∧ current = []
  · rw [if_pos double, if_pos double]
    exact later .double current 1 one_pos more
  rw [if_neg double, if_neg double]
  by_cases single : character = 39 ∧ current = []
  · rw [if_pos single, if_pos single]
    exact later .single current 1 one_pos more
  rw [if_neg single, if_neg single]
  exact later .bare _ 1 one_pos more

lemma scansAt_end (quoting : Quoting) (current : Bytes) :
    ScansAt line quoting current line.length := by
  rw [ScansAt, scanArgumentAt, if_neg (lt_irrefl _), List.drop_length, scanArgument]
  cases quoting with
  | bare => rfl
  | double => rfl
  | single => rfl

lemma scansAt (quoting : Quoting) (current : Bytes) (inside : position ≤ line.length) :
    ScansAt line quoting current position := by
  induction left : line.length - position using Nat.strong_induction_on
    generalizing quoting current position with
  | _ left_ ih =>
    have later : ScansAfter line position :=
      fun quoting current more pos inside => ih _ (by omega) quoting current inside rfl
    rcases inside.lt_or_eq with more | rfl
    · cases quoting with
      | double => exact later.double more current
      | single => exact later.single more current
      | bare => exact later.bare more current
    · exact scansAt_end quoting current

/-- A rest of the line, as a position in it. -/
lemma drop_of_suffix {rest : Bytes} (suffix : rest <:+ line) :
    line.drop (line.length - rest.length) = rest :=
  (List.suffix_iff_eq_drop.mp suffix).symm

lemma tokenizeFrom_eq (rounds : Nat) (arguments : List Bytes) (inside : position ≤ line.length)
    (enough : line.length - position < rounds) :
    tokenizeFrom line rounds position arguments =
      pure ((tokenizeCommandLine (line.drop position)).map (arguments ++ ·)) := by
  induction rounds generalizing position arguments with
  | zero => omega
  | succ rounds ih =>
    rw [tokenizeFrom, skipSpacesAt_eq inside, pure_bind]
    cases skipped : (line.drop position).dropWhile isSpace with
    | nil =>
      rw [if_neg (by simp), tokenizeCommandLine_blank (List.dropWhile_eq_nil_iff.mp skipped)]
      exact congrArg (fun all => pure (some all)) (List.append_nil arguments).symm
    | cons b rest =>
      have suffix : b :: rest <:+ line.drop position := skipped ▸ List.dropWhile_suffix isSpace
      have suffix' : b :: rest <:+ line := suffix.trans (List.drop_suffix position line)
      have shorter := suffix.length_le
      rw [List.length_drop, List.length_cons] at shorter
      have visible : ¬ Blank b := by
        have head := List.head_dropWhile_not isSpace (l := line.drop position) (by simp [skipped])
        simp only [skipped, List.head_cons] at head
        rw [← isSpace_iff, head]
        decide
      rw [if_pos (by rw [List.length_cons]; omega), scansAt _ _ (Nat.sub_le _ _),
        pure_bind, drop_of_suffix suffix', tokenizeCommandLine_cons skipped]
      cases scanned : scanArgument .bare [] (b :: rest) with
      | none => rfl
      | some found =>
        obtain ⟨word, e, isWord, _⟩ := scanArgument_word scanned visible
        obtain ⟨c, word, rfl, _⟩ := isWord.visible
        have after : found.2 <:+ line :=
          (e ▸ List.suffix_append _ _ : found.2 <:+ b :: rest).trans suffix'
        have fewer := congrArg List.length e
        rw [List.length_append, List.length_cons, List.length_cons] at fewer
        have fits := after.length_le
        have later := @ih (line.length - found.2.length) (arguments ++ [found.1]) (Nat.sub_le _ _)
          (by omega)
        rw [drop_of_suffix after] at later
        refine later.trans (congrArg pure ?_)
        rw [Option.bind_some, Option.map_map]
        congr 1
        funext more
        exact (List.append_assoc _ _ _).trans rfl

lemma tokenizeCommandLineAt_eq : tokenizeCommandLineAt line = pure (tokenizeCommandLine line) := by
  have all := tokenizeFrom_eq (line.length + 1) [] (Nat.zero_le line.length) (by omega)
  rw [tokenizeCommandLineAt, all, List.drop_zero]
  simp

end Tokenizer

/-! ### The parser -/

/-- `buffer.find('\n', position)`. -/
def findLineEnd (buffer : Bytes) (position : Nat) : Option Nat :=
  ((buffer.drop position).findIdx? (· = 10)).map (position + ·)

def parseInlineCommandAt (buffer : Bytes) : Checked RespParseResult := do
  let found ← Checked.find buffer (findLineEnd buffer) 0
  found.elim
    (pure (if buffer.length > maxInlineSize then
        errorResult (ascii "Protocol error: too big inline request")
      else incompleteResult))
    fun lineEnd => do
      let line ← Checked.substr buffer 0 lineEnd
      let tokens ← tokenizeCommandLineAt line
      tokens.elim (pure (errorResult (ascii "Protocol error: unbalanced quotes in request")))
        fun arguments => do
          let consumed ← Checked.add lineEnd 1
          pure (completeResult arguments consumed)

/-- Is the buffer too short for this many bytes of data? -/
def lacksData (buffer : Bytes) (dataStart dataLength : Nat) : Checked Bool :=
  if dataStart > buffer.length then pure true
  else do
    let rest ← Checked.sub buffer.length dataStart
    pure (decide (dataLength > rest))

/-- The loop of `parseRespCommand` over the bulk strings. -/
def parseBulkStringsAt (buffer : Bytes) : Nat → Nat → List Bytes → Checked RespParseResult
  | 0, position, arguments => pure (completeResult arguments position)
  | count + 1, position, arguments =>
    if position ≥ buffer.length then pure incompleteResult
    else do
      let character ← Checked.get buffer position
      if character ≠ 36 then pure (errorResult (ascii "Expected RESP bulk string"))
      else do
        let start ← Checked.add position 1
        let found ← Checked.find buffer (findCrlf buffer) start
        found.elim (pure incompleteResult) fun lengthEnd => do
          let span ← Checked.sub lengthEnd position
          let digits ← Checked.sub span 1
          let text ← Checked.substr buffer start digits
          (parseStrictInteger text).elim (pure (errorResult (ascii "Invalid bulk string length")))
            fun bulkLength =>
              if bulkLength < 0 ∨ bulkLength > maxBulkSize then
                pure (errorResult (ascii "Invalid bulk string length"))
              else do
                let dataStart ← Checked.add lengthEnd 2
                let lacks ← lacksData buffer dataStart bulkLength.toNat
                if lacks then pure incompleteResult
                else do
                  let dataEnd ← Checked.add dataStart bulkLength.toNat
                  let rest ← Checked.sub buffer.length dataEnd
                  if rest < 2 then pure incompleteResult
                  else do
                    let terminator ← Checked.substr buffer dataEnd 2
                    if terminator ≠ crlf then
                      pure (errorResult (ascii "Bulk string missing CRLF"))
                    else do
                      let argument ← Checked.substr buffer dataStart bulkLength.toNat
                      let position ← Checked.add dataEnd 2
                      parseBulkStringsAt buffer count position (arguments ++ [argument])

def parseRespCommandAt (buffer : Bytes) : Checked RespParseResult :=
  if buffer = [] then pure incompleteResult
  else do
    let first ← Checked.get buffer 0
    if first ≠ 42 then parseInlineCommandAt buffer
    else do
      let found ← Checked.find buffer (findCrlf buffer) 1
      found.elim (pure incompleteResult) fun countEnd => do
        let digits ← Checked.sub countEnd 1
        let text ← Checked.substr buffer 1 digits
        (parseStrictInteger text).elim (pure (errorResult (ascii "Invalid array length")))
          fun argumentCount =>
            if argumentCount < 0 ∨ argumentCount > maxArguments then
              pure (errorResult (ascii "Invalid array length"))
            else do
              let position ← Checked.add countEnd 2
              parseBulkStringsAt buffer argumentCount.toNat position []

section Parser

variable {buffer : Bytes} {position : Nat}

lemma substrAt_eq (count : Nat) (inside : position ≤ buffer.length) :
    Checked.substr buffer position count = pure (substr buffer position count) :=
  Checked.substr_inside inside

lemma parseInlineCommandAt_eq (fits : buffer.length < 2 ^ 63) :
    parseInlineCommandAt buffer = pure (parseInlineCommand buffer) := by
  rw [parseInlineCommandAt, Checked.find_inside (Nat.zero_le _), pure_bind, parseInlineCommand]
  have here : findLineEnd buffer 0 = buffer.findIdx? (· = 10) := by
    simp [findLineEnd]
  rw [here]
  cases found : buffer.findIdx? (· = 10) with
  | none => rfl
  | some lineEnd =>
    obtain ⟨inside, _⟩ := List.findIdx?_eq_some_iff_getElem.mp found
    rw [Option.elim_some, substrAt_eq _ (Nat.zero_le _), pure_bind, tokenizeCommandLineAt_eq,
      pure_bind]
    dsimp only
    cases tokenizeCommandLine (substr buffer 0 lineEnd) with
    | none => rfl
    | some arguments =>
      rw [Option.elim_some, Checked.add_fits (by omega)]
      rfl

lemma lacksData_eq (dataStart dataLength : Nat) : lacksData buffer dataStart dataLength =
    pure (decide (dataStart > buffer.length ∨ dataLength > buffer.length - dataStart)) := by
  rw [lacksData]
  split
  · rename_i beyond
    simp [beyond]
  · rename_i inside
    rw [Checked.sub_fits (by omega), pure_bind]
    simp [inside]

lemma parseBulkStringsAt_eq (fits : buffer.length < 2 ^ 63) (count : Nat) (arguments : List Bytes) :
    parseBulkStringsAt buffer count position arguments =
      pure (parseBulkStrings buffer count position arguments) := by
  induction count generalizing position arguments with
  | zero => rfl
  | succ count ih =>
    rw [parseBulkStringsAt, parseBulkStrings]
    by_cases past : position ≥ buffer.length
    · rw [if_pos past, if_pos past]
    have inside : position < buffer.length := Nat.lt_of_not_le past
    obtain ⟨character, read, rest⟩ := Checked.get_inside inside
    have first : buffer[position]? = some character := by
      rw [← List.head?_drop, rest, List.head?_cons]
    rw [if_neg past, if_neg past, read, pure_bind, first]
    by_cases dollar : character = 36
    swap
    · rw [if_pos dollar, if_pos fun e => dollar (Option.some.inj e)]
    rw [if_neg (not_not_intro dollar), if_neg (not_not_intro (congrArg some dollar)),
      Checked.add_fits (by omega), pure_bind, Checked.find_inside inside, pure_bind]
    cases found : findCrlf buffer (position + 1) with
    | none => rfl
    | some lengthEnd =>
      obtain ⟨_, after, before⟩ := findCrlf_extend [] found
      rw [Option.elim_some, Checked.sub_fits (by omega), pure_bind, Checked.sub_fits (by omega),
        pure_bind, substrAt_eq _ inside, pure_bind]
      dsimp only
      cases parseStrictInteger (substr buffer (position + 1) (lengthEnd - position - 1)) with
      | none => rfl
      | some bulkLength =>
        dsimp only [Option.elim_some]
        by_cases limits : bulkLength < 0 ∨ bulkLength > maxBulkSize
        · rw [if_pos limits, if_pos limits]
        rw [if_neg limits, if_neg limits, Checked.add_fits (by omega), pure_bind, lacksData_eq,
          pure_bind]
        by_cases lacks : lengthEnd + 2 > buffer.length ∨
            bulkLength.toNat > buffer.length - (lengthEnd + 2)
        · rw [if_pos (decide_eq_true lacks), if_pos lacks]
        rw [if_neg (by simpa using lacks), if_neg lacks, Checked.add_fits (by omega), pure_bind,
          Checked.sub_fits (by omega), pure_bind]
        by_cases short : buffer.length - (lengthEnd + 2 + bulkLength.toNat) < 2
        · rw [if_pos short, if_pos short]
        rw [if_neg short, if_neg short, substrAt_eq _ (by omega), pure_bind]
        by_cases missing : substr buffer (lengthEnd + 2 + bulkLength.toNat) 2 ≠ crlf
        · rw [if_pos missing, if_pos missing]
        rw [if_neg missing, if_neg missing, substrAt_eq _ (by omega), pure_bind,
          Checked.add_fits (by omega), pure_bind, ih]

/-- The parser reads and searches within the buffer and subtracts without wrapping. -/
lemma parseRespCommandAt_eq (fits : buffer.length < 2 ^ 63) :
    parseRespCommandAt buffer = pure (parseRespCommand buffer) := by
  rw [parseRespCommandAt]
  cases buffer with
  | nil => rfl
  | cons first rest =>
    obtain ⟨_, read, e⟩ := Checked.get_inside (show 0 < (first :: rest).length from Nat.succ_pos _)
    cases e
    rw [if_neg (List.cons_ne_nil _ _), read, pure_bind, parseRespCommand]
    by_cases star : first = 42
    swap
    · rw [if_pos star, if_pos star, parseInlineCommandAt_eq fits]
    rw [if_neg (not_not_intro star), if_neg (not_not_intro star),
      Checked.find_inside (Nat.succ_pos _), pure_bind]
    cases found : findCrlf (first :: rest) 1 with
    | none => rfl
    | some countEnd =>
      obtain ⟨_, after, before⟩ := findCrlf_extend [] found
      rw [Option.elim_some, Checked.sub_fits after, pure_bind,
        substrAt_eq _ (Nat.succ_pos _), pure_bind]
      dsimp only
      cases parseStrictInteger (substr (first :: rest) 1 (countEnd - 1)) with
      | none => rfl
      | some argumentCount =>
        dsimp only [Option.elim_some]
        by_cases limits : argumentCount < 0 ∨ argumentCount > maxArguments
        · rw [if_pos limits, if_pos limits]
        rw [if_neg limits, if_neg limits, Checked.add_fits (by omega), pure_bind,
          parseBulkStringsAt_eq fits]

lemma parseBulkStrings_consumed {count : Nat} {arguments : List Bytes}
    (status : (parseBulkStrings buffer count position arguments).status ≠ .complete) :
    (parseBulkStrings buffer count position arguments).consumedBytes = 0 := by
  fun_induction parseBulkStrings buffer count position arguments with
  | case1 => exact absurd rfl status
  | case10 _ _ _ _ _ _ _ _ _ _ _ _ _ _ _ _ ih => exact ih status
  | _ => rfl

/-- What is not a complete command does not consume anything. -/
lemma parseRespCommand_consumed (status : (parseRespCommand buffer).status ≠ .complete) :
    (parseRespCommand buffer).consumedBytes = 0 := by
  generalize h : parseRespCommand buffer = result at status ⊢
  unfold parseRespCommand at h
  split at h
  · exact h ▸ rfl
  · split at h
    · unfold parseInlineCommand at h
      split at h
      · split at h <;> exact h ▸ rfl
      · split at h
        · exact h ▸ rfl
        · subst h
          exact absurd rfl status
    · split at h
      · exact h ▸ rfl
      · split at h
        · exact h ▸ rfl
        · split at h
          · exact h ▸ rfl
          · subst h
            exact parseBulkStrings_consumed status

end Parser

end FlashKV
