import FlashKV.Database.Basic

/-!
# The RESP wire format

Model of `resp.cpp`: the reply and command encoders, the command tokenizer for inline requests and
the command parser. The parser keeps the source's positions into the buffer; the tokenizer
represents a position in the line by the suffix that starts there.
-/

namespace FlashKV

/-! ### Encoders -/

/-- CR LF. -/
def crlf : Bytes := [13, 10]

def respSimpleString (value : Bytes) : Bytes :=
  ascii "+" ++ value ++ crlf

def respErrorWithCode (code message : Bytes) : Bytes :=
  ascii "-" ++ code ++ ascii " " ++ message ++ crlf

def respError (message : Bytes) : Bytes :=
  ascii "-ERR " ++ message ++ crlf

def respInteger (value : Int) : Bytes :=
  ascii ":" ++ Decimal.ofInt value ++ crlf

def respBulkString (value : Bytes) : Bytes :=
  ascii "$" ++ Decimal.ofNat value.length ++ crlf ++ value ++ crlf

def respNull : Bytes :=
  ascii "$-1" ++ crlf

/-- Array whose elements are already encoded. -/
def respEncodedArray (encodedElements : List Bytes) : Bytes :=
  ascii "*" ++ Decimal.ofNat encodedElements.length ++ crlf ++ encodedElements.flatten

/-- Array of bulk strings. -/
def respArray (arguments : List Bytes) : Bytes :=
  ascii "*" ++ Decimal.ofNat arguments.length ++ crlf ++ (arguments.map respBulkString).flatten

/-! ### Tokenizer -/

/-- Source `hexValue`, with `none` for `-1`. -/
def hexValue (character : UInt8) : Option Nat :=
  if 48 ≤ character ∧ character ≤ 57 then some (character.toNat - 48)
  else if 97 ≤ character ∧ character ≤ 102 then some (character.toNat - 97 + 10)
  else if 65 ≤ character ∧ character ≤ 70 then some (character.toNat - 65 + 10)
  else none

/-- Space, tab, CR or LF. -/
def isSpace (character : UInt8) : Bool :=
  character = 32 ∨ character = 9 ∨ character = 13 ∨ character = 10

/-- The byte that a one-letter escape stands for. -/
def unescape (escaped : UInt8) : UInt8 :=
  match escaped with
  | 110 => 10
  | 114 => 13
  | 116 => 9
  | 98 => 8
  | 97 => 7
  | _ => escaped

/-- The flags `inDoubleQuotes` and `inSingleQuotes` of the tokenizer; at most one is set. -/
inductive Quoting where
  | bare
  | double
  | single
  deriving DecidableEq, Repr

/-- May a closing quote stand before this rest of the line? -/
def endsArgument (rest : Bytes) : Bool :=
  match rest with
  | [] => true
  | next :: _ => isSpace next

/-- The bytes of a `\xHH` escape after the `x`. -/
def hexEscape : Bytes → Option (UInt8 × Bytes)
  | high :: low :: rest =>
    match hexValue high, hexValue low with
    | some h, some l => some (UInt8.ofNat (h * 16 + l), rest)
    | _, _ => none
  | _ => none

lemma hexEscape_length {line rest : Bytes} {byte : UInt8} (h : hexEscape line = some (byte, rest)) :
    rest.length < line.length := by
  unfold hexEscape at h
  split at h
  · split at h
    · cases h
      simp only [List.length_cons]
      omega
    · cases h
  · cases h

/-- The inner loop of `tokenizeCommandLine`: the argument that starts here and the rest of the line
after it, or `none` for unbalanced quotes. -/
def scanArgument (quoting : Quoting) (current : Bytes) : Bytes → Option (Bytes × Bytes)
  | [] => if quoting = .bare then some (current, []) else none
  | character :: rest =>
    match quoting with
    | .double =>
      match character, rest with
      | 92, escaped :: rest =>
        match _h : if escaped = 120 then hexEscape rest else none with
        | some (byte, rest') => scanArgument .double (current ++ [byte]) rest'
        | none => scanArgument .double (current ++ [unescape escaped]) rest
      | 34, rest => if endsArgument rest then some (current, rest) else none
      | character, rest => scanArgument .double (current ++ [character]) rest
    | .single =>
      match character, rest with
      | 92, 39 :: rest => scanArgument .single (current ++ [39]) rest
      | 39, rest => if endsArgument rest then some (current, rest) else none
      | character, rest => scanArgument .single (current ++ [character]) rest
    | .bare =>
      if isSpace character then some (current, character :: rest)
      else if character = 34 ∧ current = [] then scanArgument .double current rest
      else if character = 39 ∧ current = [] then scanArgument .single current rest
      else scanArgument .bare (current ++ [character]) rest
  termination_by line => line.length
  decreasing_by
    · split at _h
      · have lt := hexEscape_length _h
        simp only [List.length_cons]
        omega
      · cases _h
    all_goals simp

/-- Scanning never goes back. -/
lemma scanArgument_length {quoting : Quoting} {current line argument rest : Bytes}
    (h : scanArgument quoting current line = some (argument, rest)) :
    rest.length ≤ line.length := by
  fun_induction scanArgument quoting current line with
  | case3 current escaped rest byte rest' scanned ih =>
    obtain ⟨_, scanned⟩ : escaped = 120 ∧ hexEscape rest = some (byte, rest') := by
      simpa using scanned
    have lt := hexEscape_length scanned
    have le := ih h
    simp only [List.length_cons]
    omega
  | case2 | case6 | case10 => cases h
  | case1 | case5 | case9 | case12 =>
    cases h
    simp
  | _ =>
    rename_i ih
    have le := ih h
    simp only [List.length_cons] at le ⊢
    omega

/-- Source `tokenizeCommandLine`; `none` stands for `std::nullopt`. -/
def tokenizeCommandLine (line : Bytes) : Option (List Bytes) :=
  match _h : line.dropWhile isSpace with
  | [] => some []
  | character :: rest =>
    match _scan : scanArgument .bare [] (character :: rest) with
    | none => none
    | some (argument, rest') => (tokenizeCommandLine rest').map (argument :: ·)
  termination_by line.length
  decreasing_by
    have notSpace : isSpace character = false := by
      have head := List.head_dropWhile_not isSpace (l := line) (by simp [_h])
      simpa [_h] using head
    have le : rest'.length ≤ rest.length := by
      unfold scanArgument at _scan
      simp only [notSpace, Bool.false_eq_true, if_false] at _scan
      split at _scan
      · exact scanArgument_length _scan
      · split at _scan <;> exact scanArgument_length _scan
    have suffix := (List.dropWhile_suffix isSpace (l := line)).length_le
    rw [_h, List.length_cons] at suffix
    omega

/-! ### Parser -/

def maxArguments : Nat := 1024 * 1024
def maxBulkSize : Nat := 512 * 1024 * 1024
def maxInlineSize : Nat := 64 * 1024

inductive RespParseStatus where
  | complete
  | incomplete
  | error
  deriving DecidableEq, Repr

structure RespParseResult where
  status : RespParseStatus
  arguments : List Bytes := []
  consumedBytes : Nat := 0
  error : Bytes := []
  deriving DecidableEq

def incompleteResult : RespParseResult :=
  { status := .incomplete }

def errorResult (message : Bytes) : RespParseResult :=
  { status := .error, error := message }

def completeResult (arguments : List Bytes) (consumedBytes : Nat) : RespParseResult :=
  { status := .complete, arguments := arguments, consumedBytes := consumedBytes }

/-- `buffer.substr(position, count)`. -/
def substr (buffer : Bytes) (position count : Nat) : Bytes :=
  (buffer.drop position).take count

/-- The position of the first CR LF, if there is one. -/
def indexOfCrlf : Bytes → Option Nat
  | [] => none
  | b :: rest => if crlf <+: b :: rest then some 0 else (indexOfCrlf rest).map (· + 1)

/-- `buffer.find("\r\n", position)`. -/
def findCrlf (buffer : Bytes) (position : Nat) : Option Nat :=
  (indexOfCrlf (buffer.drop position)).map (position + ·)

def parseInlineCommand (buffer : Bytes) : RespParseResult :=
  match buffer.findIdx? (· = 10) with
  | none =>
    if buffer.length > maxInlineSize then
      errorResult (ascii "Protocol error: too big inline request")
    else incompleteResult
  | some lineEnd =>
    match tokenizeCommandLine (substr buffer 0 lineEnd) with
    | none => errorResult (ascii "Protocol error: unbalanced quotes in request")
    | some arguments => completeResult arguments (lineEnd + 1)

/-- The loop of `parseRespCommand` over the bulk strings: `count` are still to come at `position`. -/
def parseBulkStrings (buffer : Bytes) : Nat → Nat → List Bytes → RespParseResult
  | 0, position, arguments => completeResult arguments position
  | count + 1, position, arguments =>
    if position ≥ buffer.length then incompleteResult
    else if buffer[position]? ≠ some 36 then errorResult (ascii "Expected RESP bulk string")
    else
      match findCrlf buffer (position + 1) with
      | none => incompleteResult
      | some lengthEnd =>
        match parseStrictInteger (substr buffer (position + 1) (lengthEnd - position - 1)) with
        | none => errorResult (ascii "Invalid bulk string length")
        | some bulkLength =>
          if bulkLength < 0 ∨ bulkLength > maxBulkSize then
            errorResult (ascii "Invalid bulk string length")
          else
            let dataStart := lengthEnd + 2
            let dataLength := bulkLength.toNat
            if dataStart > buffer.length ∨ dataLength > buffer.length - dataStart then
              incompleteResult
            else
              let dataEnd := dataStart + dataLength
              if buffer.length - dataEnd < 2 then incompleteResult
              else if substr buffer dataEnd 2 ≠ crlf then
                errorResult (ascii "Bulk string missing CRLF")
              else
                parseBulkStrings buffer count (dataEnd + 2)
                  (arguments ++ [substr buffer dataStart dataLength])

/-- Source `parseRespCommand`: parse one command from the front of the buffer. -/
def parseRespCommand (buffer : Bytes) : RespParseResult :=
  match buffer with
  | [] => incompleteResult
  | first :: _ =>
    -- anything but an array is an inline command
    if first ≠ 42 then parseInlineCommand buffer
    else
      match findCrlf buffer 1 with
      | none => incompleteResult
      | some countEnd =>
        match parseStrictInteger (substr buffer 1 (countEnd - 1)) with
        | none => errorResult (ascii "Invalid array length")
        | some argumentCount =>
          if argumentCount < 0 ∨ argumentCount > maxArguments then
            errorResult (ascii "Invalid array length")
          else parseBulkStrings buffer argumentCount.toNat (countEnd + 2) []

/-- The loop does not go back. -/
lemma parseBulkStrings_progress {buffer : Bytes} {count position : Nat} {arguments : List Bytes}
    (complete : (parseBulkStrings buffer count position arguments).status = .complete) :
    position ≤ (parseBulkStrings buffer count position arguments).consumedBytes := by
  fun_induction parseBulkStrings buffer count position arguments with
  | case1 => exact le_rfl
  | case10 count position arguments inside dollar lengthEnd found bulkLength numeral limits dataStart
      dataLength enough dataEnd rest terminated ih =>
    have ih := ih complete
    have after : position + 1 ≤ lengthEnd := by
      obtain ⟨offset, _, rfl⟩ := Option.map_eq_some_iff.mp found
      omega
    omega
  | _ => cases complete

/-- A complete command takes up at least one byte. -/
lemma parseRespCommand_progress {buffer : Bytes}
    (complete : (parseRespCommand buffer).status = .complete) :
    0 < (parseRespCommand buffer).consumedBytes := by
  generalize h : parseRespCommand buffer = result at complete ⊢
  unfold parseRespCommand at h
  split at h
  · subst h
    cases complete
  · split at h
    · unfold parseInlineCommand at h
      split at h
      · split at h <;> subst h <;> cases complete
      · split at h <;> subst h
        · cases complete
        · exact Nat.succ_pos _
    · split at h
      · subst h
        cases complete
      · split at h
        · subst h
          cases complete
        · split at h <;> subst h
          · cases complete
          · have progress := parseBulkStrings_progress complete
            omega

/-- The loop does not read past the end. -/
lemma parseBulkStrings_within {buffer : Bytes} {count position : Nat} {arguments : List Bytes}
    (complete : (parseBulkStrings buffer count position arguments).status = .complete)
    (inside : position ≤ buffer.length) :
    (parseBulkStrings buffer count position arguments).consumedBytes ≤ buffer.length := by
  fun_induction parseBulkStrings buffer count position arguments with
  | case1 => exact inside
  | case10 _ _ _ _ _ _ _ _ _ _ dataStart dataLength enough dataEnd rest _ ih =>
    exact ih complete (by omega)
  | _ => cases complete

end FlashKV
