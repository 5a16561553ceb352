import FlashKV.Resp.Quote

/-!
# Parsing when more bytes arrive

The parser's verdict on a buffer only depends on the bytes it has looked at: a complete command and
a protocol error stay what they are when the buffer grows. The one exception is an open inline line
beyond the size limit, which is refused before it is known how it ends.
-/

namespace FlashKV

/-- The line at the front of a buffer: up to the newline, or all of it. -/
def inlineLine (buffer : Bytes) : Bytes :=
  buffer.takeWhile (· ≠ 10)

/-- An inline request at the front of the buffer is within the size limit. -/
def InlineFits (buffer : Bytes) : Prop :=
  buffer.head? ≠ some 42 → (inlineLine buffer).length ≤ maxInlineSize

section Positions

variable {buffer : Bytes} (more : Bytes) {position count : Nat}

lemma indexOfCrlf_extend {text : Bytes} {i : Nat} (found : indexOfCrlf text = some i) :
    indexOfCrlf (text ++ more) = some i ∧ i + 2 ≤ text.length := by
  induction text generalizing i with
  | nil => cases found
  | cons b text ih =>
    unfold indexOfCrlf at found
    rw [List.cons_append, indexOfCrlf]
    split at found
    · rename_i here
      cases found
      refine ⟨if_pos (here.trans ?_), here.length_le⟩
      exact ⟨more, rfl⟩
    · rename_i elsewhere
      obtain ⟨j, foundLater, rfl⟩ := Option.map_eq_some_iff.mp found
      obtain ⟨later, inside⟩ := ih foundLater
      have other : ¬ crlf <+: b :: (text ++ more) := by
        intro here
        refine elsewhere ?_
        refine List.prefix_of_prefix_length_le here ⟨more, rfl⟩ ?_
        rw [List.length_cons]
        exact le_trans (by decide) (Nat.succ_le_succ (by omega : 1 ≤ text.length))
      rw [if_neg other, later]
      exact ⟨rfl, by rw [List.length_cons]; omega⟩

lemma findCrlf_extend {i : Nat} (found : findCrlf buffer position = some i) :
    findCrlf (buffer ++ more) position = some i ∧ position ≤ i ∧ i + 2 ≤ buffer.length := by
  unfold findCrlf at found ⊢
  obtain ⟨offset, foundThere, rfl⟩ := Option.map_eq_some_iff.mp found
  obtain ⟨_, inside⟩ := indexOfCrlf_extend [] foundThere
  rw [List.length_drop] at inside
  rw [List.drop_append_of_le_length (by omega), (indexOfCrlf_extend more foundThere).1]
  exact ⟨rfl, by omega, by omega⟩

lemma substr_extend (inside : position + count ≤ buffer.length) :
    substr (buffer ++ more) position count = substr buffer position count := by
  unfold substr
  rw [List.drop_append_of_le_length (by omega), List.take_append_of_le_length]
  rw [List.length_drop]
  omega

end Positions

/-- What the loop over the bulk strings reads before the data of the next one: the test of the
dollar sign and the numeral come out the same in a longer buffer. -/
lemma header_extend {buffer : Bytes} (more : Bytes) {position lengthEnd : Nat}
    (inside : ¬ position ≥ buffer.length) (found : findCrlf buffer (position + 1) = some lengthEnd) :
    ¬ position ≥ (buffer ++ more).length ∧ (buffer ++ more)[position]? = buffer[position]? ∧
    findCrlf (buffer ++ more) (position + 1) = some lengthEnd ∧
    substr (buffer ++ more) (position + 1) (lengthEnd - position - 1) =
      substr buffer (position + 1) (lengthEnd - position - 1) := by
  obtain ⟨later, after, within⟩ := findCrlf_extend more found
  refine ⟨?_, List.getElem?_append_left (by omega), later, substr_extend more (by omega)⟩
  rw [List.length_append]
  omega

/-- A verdict of the loop over the bulk strings stays when the buffer grows. -/
lemma parseBulkStrings_extend {buffer : Bytes} (more : Bytes) {count position : Nat}
    {arguments : List Bytes}
    (decided : (parseBulkStrings buffer count position arguments).status ≠ .incomplete) :
    parseBulkStrings (buffer ++ more) count position arguments =
      parseBulkStrings buffer count position arguments := by
  fun_induction parseBulkStrings buffer count position arguments with
  | case1 => rfl
  | case2 | case4 | case7 | case8 => exact absurd rfl decided
  | case3 count position arguments inside dollar =>
    have first : (buffer ++ more)[position]? = buffer[position]? :=
      List.getElem?_append_left (by omega)
    rw [parseBulkStrings, if_neg (by simp; omega), first, if_pos dollar]
  | case5 count position arguments inside dollar lengthEnd found numeral =>
    obtain ⟨inside', first, found', digits⟩ := header_extend more inside found
    rw [parseBulkStrings, if_neg inside', first, if_neg dollar, found']
    dsimp only
    rw [digits, numeral]
  | case6 count position arguments inside dollar lengthEnd found bulkLength numeral limits =>
    obtain ⟨inside', first, found', digits⟩ := header_extend more inside found
    rw [parseBulkStrings, if_neg inside', first, if_neg dollar, found']
    dsimp only
    rw [digits, numeral]
    dsimp only
    rw [if_pos limits]
  | case9 count position arguments inside dollar lengthEnd found bulkLength numeral limits dataStart
      dataLength enough dataEnd rest missing =>
    obtain ⟨inside', first, found', digits⟩ := header_extend more inside found
    have terminator : substr (buffer ++ more) dataEnd 2 = substr buffer dataEnd 2 :=
      substr_extend more (by omega)
    rw [parseBulkStrings, if_neg inside', first, if_neg dollar, found']
    dsimp only
    rw [digits, numeral]
    dsimp only
    rw [if_neg limits, if_neg (by rw [List.length_append]; omega),
      if_neg (by rw [List.length_append]; omega), terminator, if_pos missing]
  | case10 count position arguments inside dollar lengthEnd found bulkLength numeral limits dataStart
      dataLength enough dataEnd rest terminated ih =>
    obtain ⟨inside', first, found', digits⟩ := header_extend more inside found
    have terminator : substr (buffer ++ more) dataEnd 2 = substr buffer dataEnd 2 :=
      substr_extend more (by omega)
    have data : substr (buffer ++ more) dataStart dataLength = substr buffer dataStart dataLength :=
      substr_extend more (by omega)
    rw [parseBulkStrings, if_neg inside', first, if_neg dollar, found']
    dsimp only
    rw [digits, numeral]
    dsimp only
    rw [if_neg limits, if_neg (by rw [List.length_append]; omega),
      if_neg (by rw [List.length_append]; omega), terminator, if_neg terminated, data]
    exact ih decided

section Inline

variable {buffer line : Bytes}

lemma visible_of_open (isOpen : 10 ∉ line) : ∀ b ∈ line, decide (b ≠ 10) = true := by
  intro b mem
  rw [decide_eq_true_eq]
  rintro rfl
  exact isOpen mem

lemma inlineLine_open (isOpen : 10 ∉ buffer) : inlineLine buffer = buffer := by
  rw [inlineLine, List.takeWhile_eq_self_iff]
  exact visible_of_open isOpen

lemma inlineLine_closed (isOpen : 10 ∉ line) (rest : Bytes) :
    inlineLine (line ++ 10 :: rest) = line := by
  rw [inlineLine, List.takeWhile_append_of_pos (visible_of_open isOpen)]
  simp

/-- An inline request whose newline has not arrived. -/
lemma parseInlineCommand_open (isOpen : 10 ∉ buffer) :
    parseInlineCommand buffer = if maxInlineSize < buffer.length then
      errorResult (ascii "Protocol error: too big inline request") else incompleteResult := by
  have noEnd : buffer.findIdx? (· = 10) = none := by
    rw [List.findIdx?_eq_none_iff]
    intro b mem
    exact decide_eq_false fun e => isOpen (e ▸ mem)
  rw [parseInlineCommand, noEnd]

/-- A verdict on an inline request stays when the buffer grows, but for the refusal of an open
line. -/
lemma parseInlineCommand_extend (more : Bytes)
    (decided : (parseInlineCommand buffer).status ≠ .incomplete)
    (fits : (inlineLine (buffer ++ more)).length ≤ maxInlineSize) :
    parseInlineCommand (buffer ++ more) = parseInlineCommand buffer := by
  by_cases closed : 10 ∈ buffer
  · obtain ⟨line, rest, rfl, isOpen⟩ := List.eq_append_cons_of_mem closed
    rw [List.append_assoc, List.cons_append, parseInlineCommand_closed isOpen,
      parseInlineCommand_closed isOpen]
  · have short : buffer.length ≤ maxInlineSize := by
      refine le_trans ?_ fits
      rw [inlineLine, List.takeWhile_append_of_pos (visible_of_open closed), List.length_append]
      exact Nat.le_add_right _ _
    rw [parseInlineCommand_open closed, if_neg (Nat.not_lt.mpr short)] at decided
    exact absurd rfl decided

end Inline

/-- A verdict of the parser stays when the buffer grows. -/
lemma parseRespCommand_extend {buffer : Bytes} (more : Bytes)
    (decided : (parseRespCommand buffer).status ≠ .incomplete)
    (fits : InlineFits (buffer ++ more)) :
    parseRespCommand (buffer ++ more) = parseRespCommand buffer := by
  cases buffer with
  | nil => exact absurd rfl decided
  | cons first buffer =>
    unfold parseRespCommand at decided ⊢
    by_cases array : first ≠ 42
    · simp only [List.cons_append, if_pos array] at decided ⊢
      refine parseInlineCommand_extend more decided (fits ?_)
      simpa using array
    · simp only [List.cons_append, if_neg array] at decided ⊢
      cases found : findCrlf (first :: buffer) 1 with
      | none =>
        rw [found] at decided
        exact absurd rfl decided
      | some countEnd =>
        rw [found] at decided
        obtain ⟨found', after, within⟩ := findCrlf_extend more found
        have digits : substr (first :: buffer ++ more) 1 (countEnd - 1) =
            substr (first :: buffer) 1 (countEnd - 1) := substr_extend more (by omega)
        rw [← List.cons_append, found']
        dsimp only at decided ⊢
        rw [digits]
        cases numeral : parseStrictInteger (substr (first :: buffer) 1 (countEnd - 1)) with
        | none => rfl
        | some argumentCount =>
          rw [numeral] at decided
          dsimp only at decided ⊢
          split
          · rfl
          · rename_i limits
            rw [if_neg limits] at decided
            exact parseBulkStrings_extend more decided

/-- A complete command lies within the buffer. -/
lemma parseRespCommand_within {buffer : Bytes}
    (complete : (parseRespCommand buffer).status = .complete) :
    (parseRespCommand buffer).consumedBytes ≤ buffer.length := by
  generalize h : parseRespCommand buffer = result at complete ⊢
  unfold parseRespCommand at h
  split at h
  · subst h
    cases complete
  · split at h
    · unfold parseInlineCommand at h
      split at h
      · split at h <;> subst h <;> cases complete
      · rename_i found
        obtain ⟨inside, _⟩ := List.findIdx?_eq_some_iff_getElem.mp found
        split at h <;> subst h
        · cases complete
        · exact inside
    · split at h
      · subst h
        cases complete
      · rename_i found
        obtain ⟨_, _, inside⟩ := findCrlf_extend [] found
        split at h
        · subst h
          cases complete
        · split at h <;> subst h
          · cases complete
          · exact parseBulkStrings_within complete inside

/-! ### Arrays -/

/-- What the parser reads is at the front of the buffer. -/
lemma parseRespCommand_front {tail : Bytes} {result : RespParseResult}
    (parsed : parseRespCommand (42 :: tail) = result) (complete : result.status = .complete) :
    ∃ text rest, 42 :: tail = text ++ rest ∧ CommandText result.arguments text ∧
      result = completeResult result.arguments text.length := by
  subst parsed
  obtain ⟨text, rest, e, command⟩ := parseRespCommand_sound complete
  refine ⟨text, rest, e, command, ?_⟩
  have read := parseRespCommand_complete command rest
  rwa [← e] at read

/-- A complete verdict depends only on the bytes consumed. -/
lemma parseRespCommand_local {buffer : Bytes}
    (complete : (parseRespCommand buffer).status = .complete) :
    ∃ text rest, buffer = text ++ rest ∧ text ≠ [] ∧ ∀ other,
      parseRespCommand (text ++ other) =
        completeResult (parseRespCommand buffer).arguments text.length := by
  cases buffer with
  | nil => cases complete
  | cons first tail =>
    by_cases array : first = 42
    · subst array
      obtain ⟨text, rest, e, command, _⟩ := parseRespCommand_front rfl complete
      refine ⟨text, rest, e, ?_, parseRespCommand_complete command⟩
      rintro rfl
      cases command
    · have isInline : ∀ other, parseRespCommand (first :: other) = parseInlineCommand (first :: other) :=
        fun other => by rw [parseRespCommand, if_pos array]
      rw [isInline] at complete ⊢
      have closed : 10 ∈ first :: tail := by
        by_contra isOpen
        rw [parseInlineCommand_open isOpen] at complete
        split at complete <;> cases complete
      obtain ⟨line, rest, e, isOpen⟩ := List.eq_append_cons_of_mem closed
      refine ⟨line ++ [10], rest, by simp [e], by simp, fun other => ?_⟩
      have shape : line ++ [10] ++ other = line ++ 10 :: other := by simp
      -- the first byte is in the line or is its newline
      have starts : ∃ more, line ++ 10 :: other = first :: more := by
        cases line with
        | nil =>
          cases e
          exact ⟨other, rfl⟩
        | cons b line =>
          cases e
          exact ⟨_, rfl⟩
      obtain ⟨more, start⟩ := starts
      rw [shape, start, isInline, ← start, e, parseInlineCommand_closed isOpen,
        parseInlineCommand_closed isOpen]
      rw [e, parseInlineCommand_closed isOpen] at complete
      cases tokens : tokenizeCommandLine line with
      | none =>
        rw [tokens] at complete
        cases complete
      | some arguments => simp [completeResult]

/-- The parser accepts only its grammar: the bytes that a complete result has consumed are a command
of the grammar with the result's arguments, no other byte has an influence on the result, and what
is refused stays refused. -/
theorem parseRespCommand_grammar (tail : Bytes) :
    (∀ result, parseRespCommand (42 :: tail) = result → result.status = .complete →
      result.consumedBytes ≤ (42 :: tail).length ∧
      CommandText result.arguments ((42 :: tail).take result.consumedBytes) ∧
      ∀ other : Bytes, other.take result.consumedBytes = (42 :: tail).take result.consumedBytes →
        parseRespCommand other = result) ∧
    ((parseRespCommand (42 :: tail)).status = .error →
      ∀ more, (parseRespCommand (42 :: tail ++ more)).status ≠ .complete) := by
  constructor
  · intro result parsed complete
    obtain ⟨text, rest, e, command, shape⟩ := parseRespCommand_front parsed complete
    have consumed : result.consumedBytes = text.length := by
      rw [shape]
      rfl
    have front : (42 :: tail).take text.length = text := by
      rw [e]
      exact List.take_left
    rw [consumed, front]
    refine ⟨?_, command, fun other same => ?_⟩
    · rw [e, List.length_append]
      exact Nat.le_add_right _ _
    · have whole : text ++ other.drop text.length = other := by
        have parts := List.take_append_drop text.length other
        rwa [same] at parts
      have again := parseRespCommand_complete command (other.drop text.length)
      rwa [whole, ← shape] at again
  · intro refused more
    have decided : (parseRespCommand (42 :: tail)).status ≠ .incomplete := by
      rw [refused]
      decide
    have fits : InlineFits (42 :: tail ++ more) := fun inline => absurd rfl inline
    rw [parseRespCommand_extend more decided fits, refused]
    decide

end FlashKV
