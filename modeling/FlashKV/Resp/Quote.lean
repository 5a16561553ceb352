import FlashKV.Resp.RoundTrip
import Mathlib.Data.List.TakeWhile

/-!
# Quoted command lines

`quote` of `reply_format.cpp` writes a byte string the way `redis-cli` shows it; the tokenizer of
`resp.cpp` reads it back. A command line of quoted arguments therefore delivers the same arguments
as their RESP encoding.
-/

namespace FlashKV

/-- A digit of `%02x`. -/
def hexDigit (n : Nat) : UInt8 :=
  UInt8.ofNat (if n < 10 then 48 + n else 87 + n)

/-- One round of `quote`. -/
def quoteByte (character : UInt8) : Bytes :=
  if character = 92 then [92, 92]
  else if character = 34 then [92, 34]
  else if character = 10 then [92, 110]
  else if character = 13 then [92, 114]
  else if character = 9 then [92, 116]
  else if character < 32 ∨ character ≥ 127 then
    [92, 120, hexDigit (character.toNat / 16), hexDigit (character.toNat % 16)]
  else [character]

/-- Source `quote`. -/
def quote (value : Bytes) : Bytes :=
  34 :: value.flatMap quoteByte ++ [34]

/-- Quoted arguments separated by single spaces. -/
def quoteLine (arguments : List Bytes) : Bytes :=
  List.intercalate [32] (arguments.map quote)

section Scan

variable {current rest : Bytes}

lemma hexValue_hexDigit {n : Nat} (h : n < 16) : hexValue (hexDigit n) = some n := by
  interval_cases n <;> rfl

/-- The escape of any byte. -/
lemma hexEscape_hexDigit (b : UInt8) (rest : Bytes) :
    hexEscape (hexDigit (b.toNat / 16) :: hexDigit (b.toNat % 16) :: rest) = some (b, rest) := by
  have lt := b.toNat_lt
  have whole : b.toNat / 16 * 16 + b.toNat % 16 = b.toNat := by omega
  simp only [hexEscape, hexValue_hexDigit (show b.toNat / 16 < 16 by omega),
    hexValue_hexDigit (show b.toNat % 16 < 16 by omega), whole, UInt8.ofNat_toNat]

/-- A one-letter escape. -/
lemma scanArgument_escape {escaped : UInt8} (plain : escaped = 120 → hexEscape rest = none) :
    scanArgument .double current (92 :: escaped :: rest) =
      scanArgument .double (current ++ [unescape escaped]) rest := by
  rw [scanArgument]
  split
  · rename_i scanned
    obtain ⟨rfl, scanned⟩ := Option.ite_none_right_eq_some.mp scanned
    rw [plain rfl] at scanned
    cases scanned
  · rfl

lemma scanArgument_hex {b : UInt8} {rest' : Bytes} (found : hexEscape rest = some (b, rest')) :
    scanArgument .double current (92 :: 120 :: rest) =
      scanArgument .double (current ++ [b]) rest' := by
  rw [scanArgument]
  split
  · rename_i scanned
    rw [if_pos rfl, found] at scanned
    cases scanned
    rfl
  · rename_i scanned
    rw [if_pos rfl, found] at scanned
    cases scanned

lemma scanArgument_literal {b : UInt8} (backslash : b ≠ 92) (quotes : b ≠ 34) :
    scanArgument .double current (b :: rest) = scanArgument .double (current ++ [b]) rest := by
  rw [scanArgument]
  · exact quotes
  · exact fun _ _ e _ => backslash e

/-- Inside double quotes the tokenizer undoes `quote` byte by byte. -/
lemma scanArgument_quoteByte (b : UInt8) :
    scanArgument .double current (quoteByte b ++ rest) =
      scanArgument .double (current ++ [b]) rest := by
  unfold quoteByte
  by_cases backslash : b = 92
  · rw [if_pos backslash, backslash]
    exact scanArgument_escape (fun e => absurd e (by decide))
  by_cases quotes : b = 34
  · rw [if_neg backslash, if_pos quotes, quotes]
    exact scanArgument_escape (fun e => absurd e (by decide))
  rw [if_neg backslash, if_neg quotes]
  split
  · rename_i newline
    rw [newline]
    exact scanArgument_escape (fun e => absurd e (by decide))
  · split
    · rename_i return_
      rw [return_]
      exact scanArgument_escape (fun e => absurd e (by decide))
    · split
      · rename_i tab
        rw [tab]
        exact scanArgument_escape (fun e => absurd e (by decide))
      · split
        · exact scanArgument_hex (hexEscape_hexDigit b rest)
        · exact scanArgument_literal backslash quotes

lemma scanArgument_quoteBytes (value : Bytes) :
    scanArgument .double current (value.flatMap quoteByte ++ rest) =
      scanArgument .double (current ++ value) rest := by
  induction value generalizing current with
  | nil => simp
  | cons b value ih =>
    rw [List.flatMap_cons, List.append_assoc, scanArgument_quoteByte, ih]
    simp

/-- The tokenizer reads a quoted argument back, wherever an argument may end. -/
lemma scanArgument_quote (value : Bytes) (ends : endsArgument rest = true) :
    scanArgument .bare [] (quote value ++ rest) = some (value, rest) := by
  have opened : scanArgument .bare [] (quote value ++ rest) =
      scanArgument .double [] (value.flatMap quoteByte ++ 34 :: rest) := by
    rw [quote, List.append_assoc, List.cons_append, scanArgument]
    simp [isSpace]
  have closed : scanArgument .double value (34 :: rest) = some (value, rest) := by
    rw [scanArgument, if_pos ends]
  rw [opened, scanArgument_quoteBytes]
  exact closed

end Scan

/-! ### Command lines -/

lemma quoteLine_cons (argument : Bytes) (arguments : List Bytes) :
    quoteLine (argument :: arguments) =
      quote argument ++ if arguments = [] then [] else 32 :: quoteLine arguments := by
  cases arguments with
  | nil => simp [quoteLine, List.intercalate]
  | cons next arguments => simp [quoteLine, List.intercalate]

/-- The end of the line. -/
lemma tokenizeCommandLine_blank {line : Bytes} (blank : ∀ b ∈ line, isSpace b = true) :
    tokenizeCommandLine line = some [] := by
  have dropped : line.dropWhile isSpace = [] := by
    exact List.dropWhile_eq_nil_iff.mpr blank
  rw [tokenizeCommandLine]
  split
  · rfl
  · rename_i found
    rw [dropped] at found
    cases found

/-- One argument, after any number of spaces. -/
lemma tokenizeCommandLine_cons {line rest : Bytes} {b : UInt8}
    (skipped : line.dropWhile isSpace = b :: rest) :
    tokenizeCommandLine line = (scanArgument .bare [] (b :: rest)).bind fun found =>
      (tokenizeCommandLine found.2).map (found.1 :: ·) := by
  rw [tokenizeCommandLine]
  split
  · rename_i empty
    rw [skipped] at empty
    cases empty
  · rename_i found
    rw [skipped] at found
    cases found
    split
    · rename_i unbalanced
      rw [unbalanced]
      rfl
    · rename_i scanned
      rw [scanned]
      rfl

lemma tokenizeCommandLine_quote {line tail argument : Bytes} (ends : endsArgument tail = true)
    (skipped : line.dropWhile isSpace = quote argument ++ tail) :
    tokenizeCommandLine line = (tokenizeCommandLine tail).map (argument :: ·) := by
  have scanned := scanArgument_quote argument ends
  rw [quote, List.cons_append, List.cons_append] at skipped scanned
  rw [tokenizeCommandLine_cons skipped, scanned]
  rfl

/-- The tokenizer reads a line of quoted arguments back, with any white space around it. -/
lemma tokenizeCommandLine_quoteLine (arguments : List Bytes) {before after : Bytes}
    (blank : ∀ b ∈ before, isSpace b = true) (blank' : ∀ b ∈ after, isSpace b = true) :
    tokenizeCommandLine (before ++ (quoteLine arguments ++ after)) = some arguments := by
  induction arguments generalizing before with
  | nil =>
    refine tokenizeCommandLine_blank fun b mem => ?_
    rcases List.mem_append.mp mem with mem | mem
    · exact blank b mem
    · exact blank' b mem
  | cons argument arguments ih =>
    have skipped : ∀ tail, (before ++ (quote argument ++ tail)).dropWhile isSpace =
        quote argument ++ tail := by
      intro tail
      rw [List.dropWhile_append_of_pos blank, quote]
      rfl
    rw [quoteLine_cons, List.append_assoc]
    split
    · rename_i last
      have ends : endsArgument after = true := by
        cases after with
        | nil => rfl
        | cons b after => exact blank' b (by simp)
      rw [List.nil_append, tokenizeCommandLine_quote ends (skipped _), last,
        tokenizeCommandLine_blank blank']
      rfl
    · have next : tokenizeCommandLine ([32] ++ (quoteLine arguments ++ after)) = some arguments :=
        ih (by simp [isSpace])
      rw [tokenizeCommandLine_quote rfl (skipped _)]
      rw [List.singleton_append] at next
      rw [List.cons_append, next]
      rfl

/-- A quoted line has no newline. -/
lemma newline_notMem_quoteLine (arguments : List Bytes) : (10 : UInt8) ∉ quoteLine arguments := by
  have digit : ∀ n < 16, hexDigit n ≠ 10 := by decide
  have byte : ∀ b, (10 : UInt8) ∉ quoteByte b := by
    intro b
    have lt := b.toNat_lt
    have high := digit (b.toNat / 16) (by omega)
    have low := digit (b.toNat % 16) (by omega)
    by_cases newline : b = 10
    · rw [newline]
      decide
    · unfold quoteByte
      split_ifs <;> simp [high.symm, low.symm, Ne.symm newline]
  have quoted : ∀ value, (10 : UInt8) ∉ quote value := by
    intro value
    simp [quote, byte]
  induction arguments with
  | nil => simp [quoteLine, List.intercalate]
  | cons argument arguments ih =>
    rw [quoteLine_cons]
    split
    · simp [quoted]
    · simp [quoted, ih]

/-- The end of a line that has no newline in it. -/
lemma findIdx?_newline {line rest : Bytes} (none_ : 10 ∉ line) :
    (line ++ 10 :: rest).findIdx? (· = 10) = some line.length := by
  have before : line.findIdx? (· = 10) = none := by
    rw [List.findIdx?_eq_none_iff]
    intro b mem
    exact decide_eq_false fun e => none_ (e ▸ mem)
  have here : (10 :: rest).findIdx? (· = 10) = some 0 := by
    rw [List.findIdx?_cons]
    rfl
  rw [List.findIdx?_append, before, here]
  simp

/-- An inline request whose newline has arrived. -/
lemma parseInlineCommand_closed {line : Bytes} (isOpen : 10 ∉ line) (rest : Bytes) :
    parseInlineCommand (line ++ 10 :: rest) =
      (tokenizeCommandLine line).elim
        (errorResult (ascii "Protocol error: unbalanced quotes in request"))
        fun arguments => completeResult arguments (line.length + 1) := by
  have text : substr (line ++ 10 :: rest) 0 line.length = line := by
    rw [substr, List.drop_zero, List.take_left]
  rw [parseInlineCommand, findIdx?_newline isOpen]
  dsimp only
  rw [text]
  cases tokenizeCommandLine line with
  | none => rfl
  | some arguments => rfl

/-- The line of quoted arguments starts with a quote. -/
lemma quoteLine_head {arguments : List Bytes} (nonempty : arguments ≠ []) :
    ∃ rest, quoteLine arguments = 34 :: rest := by
  cases arguments with
  | nil => exact absurd rfl nonempty
  | cons argument arguments =>
    rw [quoteLine_cons, quote]
    exact ⟨_, rfl⟩

/-- The inline path, the reply quoting and the RESP path agree. -/
theorem quoteLine_delivers (arguments : List Bytes) (rest : Bytes) :
    tokenizeCommandLine (quoteLine arguments) = some arguments ∧
    10 ∉ quoteLine arguments ∧
    (arguments ≠ [] → parseRespCommand (quoteLine arguments ++ crlf ++ rest) =
      completeResult arguments ((quoteLine arguments).length + 2)) ∧
    (arguments ≠ [] → WithinLimits arguments →
      (parseRespCommand (quoteLine arguments ++ crlf ++ rest)).arguments =
        (parseRespCommand (respArray arguments ++ rest)).arguments) := by
  have inline : arguments ≠ [] → parseRespCommand (quoteLine arguments ++ crlf ++ rest) =
      completeResult arguments ((quoteLine arguments).length + 2) := by
    intro nonempty
    obtain ⟨line, head⟩ := quoteLine_head nonempty
    have isInline : parseRespCommand (quoteLine arguments ++ crlf ++ rest) =
        parseInlineCommand (quoteLine arguments ++ crlf ++ rest) := by
      rw [head]
      rfl
    have regroup : quoteLine arguments ++ crlf ++ rest =
        (quoteLine arguments ++ [13]) ++ 10 :: rest := by
      simp [crlf]
    have isOpen : 10 ∉ quoteLine arguments ++ [13] := by
      simp [newline_notMem_quoteLine]
    have tokens : tokenizeCommandLine ([] ++ (quoteLine arguments ++ [13])) = some arguments :=
      tokenizeCommandLine_quoteLine arguments (by simp) (by simp [isSpace])
    rw [List.nil_append] at tokens
    rw [isInline, regroup, parseInlineCommand_closed isOpen, tokens, List.length_append]
    rfl
  refine ⟨?_, newline_notMem_quoteLine arguments, inline, fun nonempty within => ?_⟩
  · have tokens : tokenizeCommandLine ([] ++ (quoteLine arguments ++ [])) = some arguments :=
      tokenizeCommandLine_quoteLine arguments (by simp) (by simp)
    rwa [List.nil_append, List.append_nil] at tokens
  · rw [inline nonempty, parseRespCommand_respArray within]
    rfl

theorem quoteLine_delivers_binary :
    parseRespCommand (quoteLine [ascii "ECHO", [0, 34, 92, 255], []] ++ crlf ++ [42]) =
      completeResult [ascii "ECHO", [0, 34, 92, 255], []] 26 :=
  (quoteLine_delivers [ascii "ECHO", [0, 34, 92, 255], []] [42]).2.2.1 (by simp)

end FlashKV
