import FlashKV.Resp.Grammar

/-!
# Reading back an encoded command

What `parseRespCommand` does on the bytes that `respArray` writes. A command within the parser's
limits is read back exactly, whatever follows it (`parseRespCommand_respArray`); every strict prefix
of its encoding is incomplete (`parseRespCommand_cut`); a command beyond the limits is refused
(`parseRespCommand_beyond`). A position in the buffer is written as the length of the bytes before
it.
-/

namespace FlashKV

/-- The commands that the parser accepts. -/
def WithinLimits (arguments : List Bytes) : Prop :=
  arguments.length ≤ maxArguments ∧ ∀ argument ∈ arguments, argument.length ≤ maxBulkSize

instance (arguments : List Bytes) : Decidable (WithinLimits arguments) :=
  inferInstanceAs (Decidable (_ ∧ _))

section Lines

variable {line rest text : Bytes}

/-- A line that is cut before its LF contains no CR LF. -/
lemma indexOfCrlf_cut (noCr : 13 ∉ line) (cut : text <+: line ++ [13]) : indexOfCrlf text = none := by
  induction text generalizing line with
  | nil => rfl
  | cons b text ih =>
    cases line with
    | nil =>
      rw [List.nil_append, List.cons_prefix_cons, List.prefix_nil] at cut
      obtain ⟨rfl, rfl⟩ := cut
      decide
    | cons c line =>
      rw [List.cons_append, List.cons_prefix_cons] at cut
      obtain ⟨rfl, cut⟩ := cut
      rw [List.mem_cons, not_or] at noCr
      have ne : ¬ crlf <+: b :: text := by
        rw [crlf, List.cons_prefix_cons]
        exact fun h => noCr.1 h.1
      rw [indexOfCrlf, if_neg ne, ih noCr.2 cut]
      rfl

/-- A numeral contains no CR. -/
lemma cr_notMem_ofNat (n : Nat) : (13 : UInt8) ∉ Decimal.ofNat n :=
  Decimal.not_mem_ofNat (by decide)

/-- A prefix of two pieces ends inside the first one or somewhere after it. -/
lemma prefix_append_cases {first second : Bytes} (cut : text <+: first ++ second) :
    text <+: first ∨ ∃ rest, text = first ++ rest ∧ rest <+: second := by
  rcases List.prefix_or_prefix_of_prefix cut (List.prefix_append first second) with
    short | ⟨rest, rfl⟩
  · exact .inl short
  · exact .inr ⟨rest, rfl, (List.prefix_append_right_inj first).mp cut⟩

/-- A strict prefix of a line with its CR LF is cut before the LF or after the whole line. -/
lemma prefix_line_cases {tail : Bytes} (cut : text <+: line ++ (crlf ++ tail)) :
    text <+: line ++ [13] ∨ ∃ rest, text = line ++ (crlf ++ rest) ∧ rest <+: tail := by
  have regroup : line ++ (crlf ++ tail) = (line ++ [13]) ++ (10 :: tail) := by simp [crlf]
  rw [regroup] at cut
  rcases prefix_append_cases cut with short | ⟨rest, e, pre⟩
  · exact .inl short
  · cases rest with
    | nil => exact .inl (by rw [e, List.append_nil])
    | cons b rest =>
      rw [List.cons_prefix_cons] at pre
      obtain ⟨rfl, pre⟩ := pre
      exact .inr ⟨rest, by rw [e]; simp [crlf], pre⟩

end Lines

section Bulks

variable {before rest text : Bytes} {count n : Nat} {arguments : List Bytes} {argument : Bytes}

/-- A bulk string's bytes, one piece after the other. -/
lemma respBulkString_eq (argument : Bytes) :
    respBulkString argument =
      36 :: (Decimal.ofNat argument.length ++ (crlf ++ (argument ++ crlf))) := by
  simp [respBulkString, ascii]

/-- The encoding of an argument within the limit is a bulk string. -/
lemma bulkString_respBulkString (within : argument.length ≤ maxBulkSize) :
    BulkString argument (respBulkString argument) := by
  rw [respBulkString_eq]
  exact .intro (Decimal.numeral_ofNat _) within

/-- The loop reads one bulk string within the limit and goes on after it. -/
lemma parseBulkStrings_cons (before rest : Bytes) (count : Nat) (arguments : List Bytes)
    (within : argument.length ≤ maxBulkSize) :
    parseBulkStrings (before ++ (respBulkString argument ++ rest)) (count + 1) before.length
        arguments =
      parseBulkStrings (before ++ (respBulkString argument ++ rest)) count
        (before ++ respBulkString argument).length (arguments ++ [argument]) :=
  (bulkString_respBulkString within).parse before rest count arguments

/-- A bulk string beyond the limit is refused. -/
lemma parseBulkStrings_beyond (beyond : maxBulkSize < argument.length) :
    parseBulkStrings (before ++ (respBulkString argument ++ rest)) (count + 1) before.length
        arguments = errorResult (ascii "Invalid bulk string length") := by
  have shape : respBulkString argument ++ rest =
      36 :: (Decimal.ofNat argument.length ++ (crlf ++ (argument ++ (crlf ++ rest)))) := by
    simp [respBulkString_eq]
  rw [shape, parseBulkStrings_header (Decimal.numeral_ofNat _), if_pos beyond]

/-- A strict prefix of a bulk string within the limit is incomplete. -/
lemma parseBulkStrings_cut (within : argument.length ≤ maxBulkSize)
    (cut : text <+: respBulkString argument) (strict : text ≠ respBulkString argument) :
    parseBulkStrings (before ++ text) (count + 1) before.length arguments = incompleteResult := by
  rw [respBulkString_eq] at cut strict
  cases text with
  | nil => simp [parseBulkStrings]
  | cons b text =>
    rw [List.cons_prefix_cons] at cut
    obtain ⟨rfl, cut⟩ := cut
    rcases prefix_line_cases cut with short | ⟨data, rfl, inData⟩
    · -- the length has no CR LF yet
      have header : findCrlf (before ++ 36 :: text) (before.length + 1) = none := by
        rw [findCrlf, drop_before, indexOfCrlf_cut (cr_notMem_ofNat _) short]
        rfl
      have inside : ¬ before.length ≥ (before ++ 36 :: text).length := by simp
      rw [parseBulkStrings, if_neg inside, if_neg (by simp), header]
    · have shorter : data.length < argument.length + 2 := by
        rcases Nat.lt_or_ge data.length (argument ++ crlf).length with lt | ge
        · simpa [crlf] using lt
        · refine absurd ?_ strict
          rw [inData.eq_of_length_le ge]
      rw [parseBulkStrings_header (Decimal.numeral_ofNat _), if_neg (by omega), if_pos shorter]

/-- A strict prefix of a list of bulk strings within the limit is incomplete. -/
lemma parseBulkStrings_all_cut (before : Bytes) (arguments pending : List Bytes)
    (within : ∀ argument ∈ pending, argument.length ≤ maxBulkSize)
    (cut : text <+: (pending.map respBulkString).flatten)
    (strict : text ≠ (pending.map respBulkString).flatten) :
    parseBulkStrings (before ++ text) pending.length before.length arguments = incompleteResult := by
  induction pending generalizing before arguments text with
  | nil => exact absurd (List.prefix_nil.mp cut) strict
  | cons argument pending ih =>
    rw [List.map_cons, List.flatten_cons] at cut strict
    rcases prefix_append_cases cut with short | ⟨later, rfl, inRest⟩
    · by_cases whole : text = respBulkString argument
      · -- cut exactly between two bulk strings: the next round finds no byte
        subst whole
        have next := parseBulkStrings_cons before [] pending.length arguments
          (within argument (by simp))
        rw [List.append_nil] at next
        rw [List.length_cons, next]
        cases pending with
        | nil => simp at strict
        | cons other pending => simp [parseBulkStrings]
      · exact parseBulkStrings_cut (within argument (by simp)) short whole
    · have ih := ih (before ++ respBulkString argument) (arguments ++ [argument])
        (fun a mem => within a (by simp [mem])) inRest fun e => strict (by rw [e])
      rw [List.length_cons, parseBulkStrings_cons _ _ _ _ (within argument (by simp))]
      simpa using ih

/-- A list of bulk strings of which one is beyond the limit is refused. -/
lemma parseBulkStrings_all_beyond (before rest : Bytes) (arguments pending : List Bytes)
    (beyond : ∃ argument ∈ pending, maxBulkSize < argument.length) :
    parseBulkStrings (before ++ ((pending.map respBulkString).flatten ++ rest)) pending.length
        before.length arguments = errorResult (ascii "Invalid bulk string length") := by
  induction pending generalizing before arguments with
  | nil => simp at beyond
  | cons argument pending ih =>
    rw [List.length_cons, List.map_cons, List.flatten_cons, List.append_assoc]
    rcases Nat.lt_or_ge maxBulkSize argument.length with gt | le
    · exact parseBulkStrings_beyond gt
    · have later : ∃ other ∈ pending, maxBulkSize < other.length := by
        obtain ⟨other, mem, gt⟩ := beyond
        rcases List.mem_cons.mp mem with rfl | mem
        · omega
        · exact ⟨other, mem, gt⟩
      have ih := ih (before ++ respBulkString argument) (arguments ++ [argument]) later
      rw [parseBulkStrings_cons _ _ _ _ le]
      simpa using ih

end Bulks

section Commands

variable {arguments : List Bytes} {rest text : Bytes}

/-- A command's bytes, one piece after the other. -/
lemma respArray_eq (arguments : List Bytes) :
    respArray arguments =
      42 :: (Decimal.ofNat arguments.length ++ (crlf ++ (arguments.map respBulkString).flatten)) := by
  simp [respArray, ascii]

/-- The encoding of a command within the limits belongs to the grammar. -/
lemma commandText_respArray (within : WithinLimits arguments) :
    CommandText arguments (respArray arguments) := by
  have texts : List.Forall₂ BulkString arguments (arguments.map respBulkString) := by
    rw [List.forall₂_map_right_iff, List.forall₂_same]
    exact fun argument mem => bulkString_respBulkString (within.2 argument mem)
  rw [respArray_eq]
  exact .intro (Decimal.numeral_ofNat _) within.1 texts

/-- Reading undoes writing: a command within the limits is read back, whatever follows it. -/
lemma parseRespCommand_respArray (within : WithinLimits arguments) (rest : Bytes) :
    parseRespCommand (respArray arguments ++ rest) =
      completeResult arguments (respArray arguments).length :=
  parseRespCommand_complete (commandText_respArray within) rest

/-- A command beyond the limits is refused. -/
lemma parseRespCommand_beyond (beyond : ¬ WithinLimits arguments) (rest : Bytes) :
    (parseRespCommand (respArray arguments ++ rest)).status = .error := by
  have shape : respArray arguments ++ rest =
      42 :: (Decimal.ofNat arguments.length ++ (crlf ++
        ((arguments.map respBulkString).flatten ++ rest))) := by
    simp [respArray_eq]
  rw [shape, parseRespCommand_header (Decimal.numeral_ofNat _)]
  split
  · rfl
  · rename_i few
    have large : ∃ argument ∈ arguments, maxBulkSize < argument.length := by
      by_contra none
      refine beyond ⟨by omega, fun a mem => ?_⟩
      by_contra gt
      exact none ⟨a, mem, by omega⟩
    have all := parseBulkStrings_all_beyond (42 :: (Decimal.ofNat arguments.length ++ crlf)) rest []
      arguments large
    have all := congrArg RespParseResult.status all
    simpa [errorResult] using all

/-- Every strict prefix of the encoding of a command within the limits is incomplete. -/
lemma parseRespCommand_cut (within : WithinLimits arguments) (cut : text <+: respArray arguments)
    (strict : text ≠ respArray arguments) : parseRespCommand text = incompleteResult := by
  rw [respArray_eq] at cut strict
  cases text with
  | nil => rfl
  | cons b text =>
    rw [List.cons_prefix_cons] at cut
    obtain ⟨rfl, cut⟩ := cut
    rcases prefix_line_cases cut with short | ⟨data, rfl, inData⟩
    · have header : findCrlf (42 :: text) 1 = none := by
        rw [findCrlf, List.drop_one, List.tail_cons, indexOfCrlf_cut (cr_notMem_ofNat _) short]
        rfl
      rw [parseRespCommand, if_neg (by simp), header]
    · have all := parseBulkStrings_all_cut (42 :: (Decimal.ofNat arguments.length ++ crlf)) []
        arguments within.2 inData fun e => strict (by rw [e])
      have notMany : ¬ maxArguments < arguments.length := by
        have le := within.1
        omega
      rw [parseRespCommand_header (Decimal.numeral_ofNat _), if_neg notMany]
      simpa using all

/-- The encoding of a command is not empty. -/
lemma respArray_ne_nil (arguments : List Bytes) : respArray arguments ≠ [] := by
  simp [respArray_eq]

end Commands

/-! ### Pipelines -/

/-- Apply the parser a number of times, each time to what the commands before have not consumed: the
results, and the bytes that are left. -/
def parseRepeatedly : Nat → Bytes → List RespParseResult × Bytes
  | 0, buffer => ([], buffer)
  | count + 1, buffer =>
    let result := parseRespCommand buffer
    let (results, rest) := parseRepeatedly count (buffer.drop result.consumedBytes)
    (result :: results, rest)

/-- Decoding undoes encoding, for pipelines and with prefix-freeness. -/
theorem parseRepeatedly_respArray (commands : List (List Bytes)) (rest : Bytes)
    (within : ∀ command ∈ commands, WithinLimits command) :
    parseRepeatedly commands.length ((commands.map respArray).flatten ++ rest) =
      (commands.map fun command => completeResult command (respArray command).length, rest) ∧
    ∀ command ∈ commands, ∀ text, text <+: respArray command → text ≠ respArray command →
      (parseRespCommand text).status = .incomplete := by
  refine ⟨?_, fun command mem text cut strict => ?_⟩
  · induction commands with
    | nil => rfl
    | cons command commands ih =>
      have first := parseRespCommand_respArray (within command (by simp))
        ((commands.map respArray).flatten ++ rest)
      have others := ih fun command mem => within command (by simp [mem])
      have consumed : (respArray command ++ ((commands.map respArray).flatten ++ rest)).drop
          (completeResult command (respArray command).length).consumedBytes =
          (commands.map respArray).flatten ++ rest := List.drop_left
      rw [List.map_cons, List.flatten_cons, List.append_assoc, List.length_cons, parseRepeatedly, first]
      dsimp only
      rw [consumed, others]
      rfl
  · rw [parseRespCommand_cut (within command mem) cut strict]
    rfl

theorem parseRepeatedly_respArray_binary :
    parseRepeatedly 2 (respArray [ascii "SET", [13, 10, 36, 0], []] ++ (respArray [] ++ [42])) =
      ([completeResult [ascii "SET", [13, 10, 36, 0], []] 29, completeResult [] 4], [42]) := by
  have both := (parseRepeatedly_respArray [[ascii "SET", [13, 10, 36, 0], []], []] [42]
    (by decide)).1
  exact both

end FlashKV
