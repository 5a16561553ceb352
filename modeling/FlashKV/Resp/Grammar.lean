import FlashKV.Resp.Parser

/-!
# The grammar of commands

The bytes of a command on the wire: an array header, and a bulk string for every argument. A length
may be written with any numeral that denotes it. The parser reads every command of this grammar
(`parseRespCommand_complete`), and what it reads is one (`parseRespCommand_sound`). A position in
the buffer is written as the length of the bytes before it.
-/

namespace FlashKV

/-- A bulk string that holds the argument. -/
inductive BulkString (argument : Bytes) : Bytes → Prop where
  | intro {numeral : Bytes} :
    Decimal.Numeral numeral argument.length →
    argument.length ≤ maxBulkSize →
    BulkString argument (36 :: (numeral ++ (crlf ++ (argument ++ crlf))))

/-- An array of bulk strings that hold the arguments in order. -/
inductive CommandText (arguments : List Bytes) : Bytes → Prop where
  | intro {numeral : Bytes} {bulks : List Bytes} :
    Decimal.Numeral numeral arguments.length →
    arguments.length ≤ maxArguments →
    List.Forall₂ BulkString arguments bulks →
    CommandText arguments (42 :: (numeral ++ (crlf ++ bulks.flatten)))

section Lines

variable {line rest text : Bytes}

/-- A line without CR ends at the first CR LF after it. -/
lemma indexOfCrlf_append (noCr : 13 ∉ line) :
    indexOfCrlf (line ++ (crlf ++ rest)) = some line.length := by
  induction line with
  | nil => simp [indexOfCrlf, crlf]
  | cons b line ih =>
    rw [List.mem_cons, not_or] at noCr
    have ne : ¬ crlf <+: b :: (line ++ (crlf ++ rest)) := by
      rw [crlf, List.cons_prefix_cons]
      exact fun h => noCr.1 h.1
    rw [List.cons_append, indexOfCrlf, if_neg ne, ih noCr.2]
    rfl

end Lines

section Numerals

variable {numeral : Bytes} {n : Nat}

/-- A numeral contains no CR. -/
lemma cr_notMem_numeral {z : Int} (denotes : Decimal.Numeral numeral z) :
    (13 : UInt8) ∉ numeral := by
  intro mem
  rcases denotes.mem mem with digit | sign
  · exact absurd digit (by decide)
  · exact absurd sign (by decide)

/-- Dropping what stands before a position. -/
lemma drop_before (before after : Bytes) (b : UInt8) :
    (before ++ b :: after).drop (before.length + 1) = after := by
  rw [List.append_cons]
  exact List.drop_left' (by simp)

/-- The numeral between a position and the next CR LF. -/
lemma findCrlf_numeral (noCr : 13 ∉ numeral) (before rest : Bytes) (b : UInt8) :
    findCrlf (before ++ b :: (numeral ++ (crlf ++ rest))) (before.length + 1) =
      some (before.length + 1 + numeral.length) := by
  rw [findCrlf, drop_before, indexOfCrlf_append noCr]
  rfl

lemma substr_numeral (before rest : Bytes) (b : UInt8) :
    substr (before ++ b :: (numeral ++ (crlf ++ rest))) (before.length + 1) numeral.length =
      numeral := by
  rw [substr, drop_before, List.take_left]

/-- Reading a length's numeral: it is refused when it does not fit a `long long`. -/
lemma parseStrictInteger_numeral (denotes : Decimal.Numeral numeral n) :
    parseStrictInteger numeral = if (n : Int) ≤ int64Max then some (n : Int) else none := by
  rw [parseStrictInteger, Decimal.parseInt, Decimal.parseSigned_eq_some_iff.mpr denotes,
    Option.filter_some]
  have above : int64Min ≤ n := by
    rw [int64Min]
    omega
  simp [above]

/-- One round of the loop on a bulk string's header and the bytes after it. -/
lemma parseBulkStrings_header (denotes : Decimal.Numeral numeral n) (before data : Bytes)
    (count : Nat) (arguments : List Bytes) :
    parseBulkStrings (before ++ 36 :: (numeral ++ (crlf ++ data))) (count + 1) before.length
        arguments =
      if maxBulkSize < n then errorResult (ascii "Invalid bulk string length")
      else if data.length < n + 2 then incompleteResult
      else if substr data n 2 ≠ crlf then errorResult (ascii "Bulk string missing CRLF")
      else parseBulkStrings (before ++ 36 :: (numeral ++ (crlf ++ data))) count
        (before.length + 1 + numeral.length + 2 + n + 2) (arguments ++ [data.take n]) := by
  generalize hb : before ++ 36 :: (numeral ++ (crlf ++ data)) = buffer
  have len : buffer.length = before.length + 1 + numeral.length + 2 + data.length := by
    rw [← hb]
    simp only [List.length_append, List.length_cons, crlf, List.length_nil]
    omega
  have dropped : buffer.drop (before.length + 1 + numeral.length + 2) = data := by
    rw [← hb, show before ++ 36 :: (numeral ++ (crlf ++ data)) =
      (before ++ 36 :: (numeral ++ crlf)) ++ data by simp]
    exact List.drop_left' (by simp [crlf]; omega)
  have inside : ¬ before.length ≥ buffer.length := by omega
  have dollar : buffer[before.length]? = some 36 := by
    rw [← hb]
    simp
  have header : findCrlf buffer (before.length + 1) = some (before.length + 1 + numeral.length) := by
    rw [← hb]
    exact findCrlf_numeral (cr_notMem_numeral denotes) before data 36
  have digits : substr buffer (before.length + 1)
      (before.length + 1 + numeral.length - before.length - 1) = numeral := by
    rw [show before.length + 1 + numeral.length - before.length - 1 = numeral.length by omega, ← hb]
    exact substr_numeral before data 36
  rw [parseBulkStrings, if_neg inside, if_neg (by simp [dollar]), header]
  dsimp only
  rw [digits, parseStrictInteger_numeral denotes]
  by_cases big : maxBulkSize < n
  · rw [if_pos big]
    split
    · rfl
    · rename_i z h
      have e : z = n := by
        split at h
        · exact (Option.some.inj h).symm
        · cases h
      rw [if_pos (.inr (by rw [e]; exact_mod_cast big))]
  · have fits : (n : Int) ≤ int64Max := by
      rw [int64Max]
      rw [maxBulkSize] at big
      omega
    rw [if_pos fits, if_neg big]
    dsimp only
    rw [if_neg (by rintro (h | h) <;> omega), Int.toNat_natCast, len]
    by_cases short : data.length < n + 2
    · rw [if_pos short]
      split
      · rfl
      · rw [if_pos (by omega)]
    · have atData : substr buffer (before.length + 1 + numeral.length + 2) n =
          data.take n := by
        rw [substr, dropped]
      have atEnd : substr buffer (before.length + 1 + numeral.length + 2 + n) 2 =
          substr data n 2 := by
        rw [substr, substr, ← dropped, List.drop_drop]
      rw [if_neg short, if_neg (by omega), if_neg (by omega), atData, atEnd]

/-- The parser on an array's header and the bytes after it. -/
lemma parseRespCommand_header (denotes : Decimal.Numeral numeral n) (data : Bytes) :
    parseRespCommand (42 :: (numeral ++ (crlf ++ data))) =
      if maxArguments < n then errorResult (ascii "Invalid array length")
      else parseBulkStrings (42 :: (numeral ++ (crlf ++ data))) n (42 :: (numeral ++ crlf)).length
        [] := by
  have header := findCrlf_numeral (cr_notMem_numeral denotes) [] data 42
  have digits := @substr_numeral numeral [] data 42
  rw [List.nil_append, List.length_nil, Nat.zero_add] at header digits
  rw [parseRespCommand, if_neg (by simp), header]
  dsimp only
  rw [Nat.add_sub_cancel_left, digits, parseStrictInteger_numeral denotes]
  by_cases big : maxArguments < n
  · rw [if_pos big]
    split
    · rfl
    · rename_i z h
      have e : z = n := by
        split at h
        · exact (Option.some.inj h).symm
        · cases h
      rw [if_pos (.inr (by rw [e]; exact_mod_cast big))]
  · have fits : (n : Int) ≤ int64Max := by
      rw [int64Max]
      rw [maxArguments] at big
      omega
    have len : (42 :: (numeral ++ crlf)).length = 1 + numeral.length + 2 := by
      simp [crlf]
      omega
    rw [if_pos fits, if_neg big, len]
    dsimp only
    rw [if_neg (by rintro (h | h) <;> omega), Int.toNat_natCast]

end Numerals

/-! ### Reading commands of the grammar -/

section Complete

variable {argument text rest : Bytes} {arguments pending bulks : List Bytes}

/-- The loop reads one bulk string and goes on after it. -/
lemma BulkString.parse (bulk : BulkString argument text) (before rest : Bytes) (count : Nat)
    (arguments : List Bytes) :
    parseBulkStrings (before ++ (text ++ rest)) (count + 1) before.length arguments =
      parseBulkStrings (before ++ (text ++ rest)) count (before ++ text).length
        (arguments ++ [argument]) := by
  obtain ⟨denotes, within⟩ := bulk
  rename_i numeral
  have shape : 36 :: (numeral ++ (crlf ++ (argument ++ crlf))) ++ rest =
      36 :: (numeral ++ (crlf ++ (argument ++ (crlf ++ rest)))) := by
    simp
  have len : (before ++ 36 :: (numeral ++ (crlf ++ (argument ++ crlf)))).length =
      before.length + 1 + numeral.length + 2 + argument.length + 2 := by
    simp [crlf]
    omega
  rw [shape, parseBulkStrings_header denotes, if_neg (by omega), if_neg (by simp [crlf]), if_neg, len,
    List.take_left]
  simp [substr, crlf]

/-- The loop reads a list of bulk strings, whatever follows. -/
lemma parseBulkStrings_bulks (texts : List.Forall₂ BulkString pending bulks) (before rest : Bytes)
    (arguments : List Bytes) :
    parseBulkStrings (before ++ (bulks.flatten ++ rest)) pending.length before.length arguments =
      completeResult (arguments ++ pending) (before ++ bulks.flatten).length := by
  induction texts generalizing before arguments with
  | nil => simp [parseBulkStrings]
  | @cons argument text pending bulks bulk _ ih =>
    have ih := ih (before ++ text) (arguments ++ [argument])
    rw [List.length_cons, List.flatten_cons, List.append_assoc, bulk.parse]
    simpa using ih

/-- The parser reads every command of the grammar, whatever follows it. -/
lemma parseRespCommand_complete (command : CommandText arguments text) (rest : Bytes) :
    parseRespCommand (text ++ rest) = completeResult arguments text.length := by
  obtain ⟨denotes, few, texts⟩ := command
  rename_i numeral bulks
  have all := parseBulkStrings_bulks texts (42 :: (numeral ++ crlf)) rest []
  have shape : 42 :: (numeral ++ (crlf ++ bulks.flatten)) ++ rest =
      42 :: (numeral ++ (crlf ++ (bulks.flatten ++ rest))) := by
    simp
  rw [shape, parseRespCommand_header denotes, if_neg (by omega)]
  simpa using all

end Complete

/-! ### What the parser reads -/

section Sound

variable {buffer text : Bytes} {position count i : Nat} {arguments : List Bytes}

/-- A line up to its CR LF. -/
lemma indexOfCrlf_sound (found : indexOfCrlf text = some i) :
    text = text.take i ++ (crlf ++ text.drop (i + 2)) := by
  induction text generalizing i with
  | nil => cases found
  | cons b text ih =>
    unfold indexOfCrlf at found
    split at found
    · rename_i here
      cases found
      obtain ⟨rest, e⟩ := here
      rw [← e]
      simp [crlf]
    · obtain ⟨j, later, rfl⟩ := Option.map_eq_some_iff.mp found
      have ih := ih later
      simp only [List.take_succ_cons, List.cons_append, List.drop_succ_cons]
      rw [← ih]

lemma findCrlf_sound (found : findCrlf buffer position = some i) :
    position ≤ i ∧ buffer.drop position =
      substr buffer position (i - position) ++ (crlf ++ buffer.drop (i + 2)) := by
  obtain ⟨offset, there, rfl⟩ := Option.map_eq_some_iff.mp found
  refine ⟨Nat.le_add_right _ _, ?_⟩
  have line := indexOfCrlf_sound there
  rw [List.drop_drop] at line
  rw [substr, Nat.add_sub_cancel_left, Nat.add_assoc]
  exact line

/-- The bytes from a position on begin with the ones in front of a later position. -/
lemma drop_substr (position count : Nat) :
    buffer.drop position = substr buffer position count ++ buffer.drop (position + count) := by
  rw [substr, ← List.drop_drop, List.take_append_drop]

/-- What the loop reads from a position on. -/
lemma parseBulkStrings_sound
    (complete : (parseBulkStrings buffer count position arguments).status = .complete) :
    ∃ pending bulks, (parseBulkStrings buffer count position arguments).arguments =
        arguments ++ pending ∧ pending.length = count ∧ List.Forall₂ BulkString pending bulks ∧
      buffer.drop position = bulks.flatten ++
        buffer.drop (parseBulkStrings buffer count position arguments).consumedBytes := by
  fun_induction parseBulkStrings buffer count position arguments with
  | case1 position arguments =>
    exact ⟨[], [], by simp [completeResult], rfl, .nil, by simp [completeResult]⟩
  | case10 count position arguments inside dollar lengthEnd found bulkLength numeral limits dataStart
      dataLength enough dataEnd rest terminated ih =>
    obtain ⟨pending, bulks, read, counted, texts, bytes⟩ := ih complete
    obtain ⟨denotes, -⟩ := Decimal.parseInt_eq_some_iff.mp numeral
    obtain ⟨after, header⟩ := findCrlf_sound found
    have small : dataLength ≤ maxBulkSize := by omega
    have first : buffer.drop position = 36 :: buffer.drop (position + 1) := by
      obtain ⟨lt, e⟩ := List.getElem?_eq_some_iff.mp (not_not.mp dollar)
      rw [List.drop_eq_getElem_cons lt, e]
    have ends : buffer.drop dataEnd = crlf ++ buffer.drop (dataEnd + 2) := by
      rw [drop_substr dataEnd 2, not_not.mp terminated]
    have length : (substr buffer dataStart dataLength).length = dataLength := by
      rw [substr, List.length_take, List.length_drop]
      omega
    -- the bytes of this round
    have bulk : BulkString (substr buffer dataStart dataLength)
        (36 :: (substr buffer (position + 1) (lengthEnd - (position + 1)) ++
          (crlf ++ (substr buffer dataStart dataLength ++ crlf)))) := by
      refine .intro ?_ (by omega)
      rw [length, Int.toNat_of_nonneg (by omega), ← Nat.sub_sub]
      exact denotes
    refine ⟨_ :: pending, _ :: bulks, ?_, by rw [List.length_cons, counted], .cons bulk texts, ?_⟩
    · rw [read, List.append_assoc]
      rfl
    · rw [first, header, drop_substr dataStart dataLength, ends, bytes]
      simp
  | _ => cases complete

/-- What the parser reads from an array is a command of the grammar. -/
lemma parseRespCommand_sound {tail : Bytes}
    (complete : (parseRespCommand (42 :: tail)).status = .complete) :
    ∃ text rest, 42 :: tail = text ++ rest ∧
      CommandText (parseRespCommand (42 :: tail)).arguments text := by
  rw [parseRespCommand, if_neg (by simp)] at complete ⊢
  cases found : findCrlf (42 :: tail) 1 with
  | none =>
    rw [found] at complete
    cases complete
  | some countEnd =>
    rw [found] at complete
    dsimp only at complete ⊢
    cases numeral : parseStrictInteger (substr (42 :: tail) 1 (countEnd - 1)) with
    | none =>
      rw [numeral] at complete
      cases complete
    | some argumentCount =>
      rw [numeral] at complete
      dsimp only at complete ⊢
      split at complete
      · cases complete
      · rename_i limits
        rw [if_neg limits]
        obtain ⟨denotes, -⟩ := Decimal.parseInt_eq_some_iff.mp numeral
        obtain ⟨after, header⟩ := findCrlf_sound found
        obtain ⟨arguments, bulks, read, counted, texts, bytes⟩ := parseBulkStrings_sound complete
        rw [List.drop_one, List.tail_cons, bytes] at header
        have command : CommandText arguments
            (42 :: (substr (42 :: tail) 1 (countEnd - 1) ++ (crlf ++ bulks.flatten))) := by
          refine .intro ?_ (by omega) texts
          rw [counted, Int.toNat_of_nonneg (by omega)]
          exact denotes
        rw [read, List.nil_append]
        have whole := congrArg (42 :: ·) header
        simp only [← List.append_assoc, ← List.cons_append] at whole command
        exact ⟨_, _, whole, command⟩

end Sound

end FlashKV
