import FlashKV.Resp.CommandLine
import FlashKV.Resp.Extension

/-!
# The size limit of inline requests

`parseInlineCommand` compares the size with the limit only while the line is open. A line beyond the
limit is therefore refused when its newline has not arrived, and accepted when it has.
-/

namespace FlashKV

section Inline

variable {buffer line : Bytes}

/-- Anything but an array is an inline request. -/
lemma parseRespCommand_inline (inline : buffer.head? ≠ some 42) :
    parseRespCommand buffer = parseInlineCommand buffer := by
  cases buffer with
  | nil => rfl
  | cons first buffer =>
    have other : first ≠ 42 := fun e => inline (congrArg some e)
    rw [parseRespCommand, if_pos other]

/-- An open line is refused when it is beyond the limit. -/
lemma refused_open (isOpen : 10 ∉ buffer) :
    (parseInlineCommand buffer).status = .error ↔ maxInlineSize < buffer.length := by
  rw [parseInlineCommand_open isOpen]
  split
  · rename_i long
    exact iff_of_true rfl long
  · rename_i short
    exact iff_of_false (by simp [incompleteResult]) short

/-- A line with its newline is refused when it is no command line, whatever its size. -/
lemma refused_closed (closed : 10 ∈ buffer) :
    (parseInlineCommand buffer).status = .error ↔
      ¬ ∃ arguments, CommandLine (inlineLine buffer) arguments := by
  obtain ⟨line, rest, rfl, isOpen⟩ := List.eq_append_cons_of_mem closed
  rw [parseInlineCommand_closed isOpen, inlineLine_closed isOpen]
  cases tokens : tokenizeCommandLine line with
  | none =>
    refine iff_of_true rfl ?_
    rintro ⟨arguments, grammar⟩
    rw [grammar.tokenizeCommandLine] at tokens
    cases tokens
  | some arguments =>
    refine iff_of_false (by simp [completeResult]) (not_not.mpr ?_)
    exact ⟨arguments, tokenizeCommandLine_sound tokens⟩

/-- A line that has its newline does not change. -/
lemma inlineLine_append (closed : 10 ∈ buffer) (more : Bytes) :
    inlineLine (buffer ++ more) = inlineLine buffer := by
  obtain ⟨line, rest, rfl, isOpen⟩ := List.eq_append_cons_of_mem closed
  rw [List.append_assoc, List.cons_append, inlineLine_closed isOpen, inlineLine_closed isOpen]

/-- The refusal of an inline request when more bytes arrive. -/
lemma parseInlineCommand_refusal (buffer more : Bytes) :
    ((parseInlineCommand buffer).status = .error →
        (parseInlineCommand (buffer ++ more)).status = .error) ↔
      ¬ (10 ∉ buffer ∧ maxInlineSize < buffer.length ∧ 10 ∈ more ∧
        ∃ arguments, CommandLine (inlineLine (buffer ++ more)) arguments) := by
  by_cases closed : 10 ∈ buffer
  · -- the line is the same one
    have later : 10 ∈ buffer ++ more := List.mem_append_left more closed
    rw [refused_closed closed, refused_closed later, inlineLine_append closed]
    exact iff_of_true id fun h => h.1 closed
  · rw [refused_open closed]
    -- the newline that arrives takes the request to the branch without the size check
    by_cases arrives : 10 ∈ more
    · have later : 10 ∈ buffer ++ more := List.mem_append_right buffer arrives
      rw [refused_closed later]
      constructor
      · exact fun stays h => stays h.2.1 h.2.2.2
      · exact fun h long grammar => h ⟨closed, long, arrives, grammar⟩
    · have later : 10 ∉ buffer ++ more := by
        rw [List.mem_append, not_or]
        exact ⟨closed, arrives⟩
      rw [refused_open later, List.length_append]
      exact iff_of_true (fun long => Nat.lt_add_right _ long) fun h => arrives h.2.2.1

/-- The refusal of a line beyond the limit. -/
lemma parseInlineCommand_long (buffer : Bytes) :
    (maxInlineSize < (inlineLine buffer).length → (parseInlineCommand buffer).status = .error) ↔
      ¬ (10 ∈ buffer ∧ maxInlineSize < (inlineLine buffer).length ∧
        ∃ arguments, CommandLine (inlineLine buffer) arguments) := by
  by_cases closed : 10 ∈ buffer
  · rw [refused_closed closed]
    constructor
    · exact fun refused h => refused h.2.1 h.2.2
    · exact fun h long grammar => h ⟨closed, long, grammar⟩
  · rw [refused_open closed, inlineLine_open closed]
    exact iff_of_true id fun h => closed h.1

end Inline

/-- When the refusal of an inline request does not depend on how the bytes arrive. A refused buffer
is accepted later exactly if it is an open line beyond the limit that the bytes after it complete to
a command line, and a line beyond the limit is accepted at once exactly if it is a command line that
comes with its newline. -/
theorem inline_refusal_iff (buffer more : Bytes) (inline : buffer.head? ≠ some 42) :
    (((parseRespCommand buffer).status = .error →
        (parseRespCommand (buffer ++ more)).status = .error) ↔
      ¬ (10 ∉ buffer ∧ maxInlineSize < buffer.length ∧ 10 ∈ more ∧
        ∃ arguments, CommandLine (inlineLine (buffer ++ more)) arguments)) ∧
    ((maxInlineSize < (inlineLine buffer).length → (parseRespCommand buffer).status = .error) ↔
      ¬ (10 ∈ buffer ∧ maxInlineSize < (inlineLine buffer).length ∧
        ∃ arguments, CommandLine (inlineLine buffer) arguments)) := by
  rw [parseRespCommand_inline inline]
  refine ⟨?_, parseInlineCommand_long buffer⟩
  cases buffer with
  | nil => exact iff_of_true (fun refused => by cases refused) fun h => by cases h.2.1
  | cons first buffer =>
    have later : (first :: buffer ++ more).head? ≠ some 42 := inline
    rw [parseRespCommand_inline later]
    exact parseInlineCommand_refusal (first :: buffer) more

/-- A quote that is not closed. -/
lemma not_commandLine_unclosed (n : Nat) (arguments : List Bytes) :
    ¬ CommandLine (34 :: List.replicate n 97) arguments := by
  intro grammar
  generalize shape : 34 :: List.replicate n (97 : UInt8) = line at grammar
  cases grammar with
  | nil blank =>
    have quote := blank 34 (by rw [← shape]; exact List.mem_cons_self)
    exact absurd quote (by simp [Blank])
  | @cons blank word value rest values isBlank isWord _ _ =>
    cases blank with
    | cons first blank =>
      cases (List.cons.inj shape).1
      exact absurd (isBlank 34 List.mem_cons_self) (by simp [Blank])
    | nil =>
      cases isWord with
      | bare other _ _ => exact other (List.cons.inj shape).1.symm
      | single _ => cases (List.cons.inj shape).1
      | double _ =>
        -- the closing quote would be among the letters
        have closing : 34 ∈ List.replicate n (97 : UInt8) := by
          rw [(List.cons.inj shape).2]
          simp
        cases List.eq_of_mem_replicate closing

/-- A line beyond the limit with a quote that is not closed: it is refused while it is open, and when
its newline has arrived. -/
theorem inline_refusal_iff_unclosed :
    let buffer : Bytes := 34 :: List.replicate maxInlineSize 97
    (parseRespCommand buffer).status = .error ∧
    (parseRespCommand (buffer ++ [10])).status = .error := by
  intro buffer
  have isOpen : 10 ∉ buffer := by
    intro mem
    rcases List.mem_cons.mp mem with other | mem
    · cases other
    · cases List.eq_of_mem_replicate mem
  have size : maxInlineSize < (inlineLine buffer).length := by
    rw [inlineLine_open isOpen, List.length_cons, List.length_replicate]
    exact Nat.lt_succ_self _
  obtain ⟨stays, long⟩ := inline_refusal_iff buffer [10] (by decide)
  have refused := long.mpr (fun closed => isOpen closed.1) size
  refine ⟨refused, stays.mpr ?_ refused⟩
  rintro ⟨_, _, _, arguments, grammar⟩
  rw [inlineLine_closed isOpen] at grammar
  exact not_commandLine_unclosed _ arguments grammar

/-- A bare word of any length is a command line. -/
lemma commandLine_replicate (n : Nat) :
    CommandLine (List.replicate (n + 1) 97) [List.replicate (n + 1) 97] := by
  have word : Word (List.replicate (n + 1) 97) (List.replicate (n + 1) 97) := by
    rw [List.replicate_succ]
    refine .bare (by decide) (by decide) fun c mem => ?_
    rw [← List.replicate_succ] at mem
    rw [List.eq_of_mem_replicate mem]
    simp [Blank]
  have line : CommandLine ([] ++ (List.replicate (n + 1) 97 ++ [])) [List.replicate (n + 1) 97] :=
    .cons (by simp) word (by simp [EndsWord]) (.nil (by simp))
  rwa [List.nil_append, List.append_nil] at line

theorem inline_refusal_long : ¬ ∀ buffer more : Bytes, buffer.head? ≠ some 42 →
    (parseRespCommand buffer).status = .error →
    (parseRespCommand (buffer ++ more)).status = .error := by
  intro always
  have isOpen : 10 ∉ List.replicate (maxInlineSize + 1) (97 : UInt8) := by
    intro mem
    cases List.eq_of_mem_replicate mem
  have inline : (List.replicate (maxInlineSize + 1) (97 : UInt8)).head? ≠ some 42 := by
    rw [List.replicate_succ, List.head?_cons]
    decide
  have line : inlineLine (List.replicate (maxInlineSize + 1) 97 ++ [10]) =
      List.replicate (maxInlineSize + 1) 97 := inlineLine_closed isOpen []
  have refused : (parseRespCommand (List.replicate (maxInlineSize + 1) 97)).status = .error := by
    rw [parseRespCommand_inline inline, refused_open isOpen, List.length_replicate]
    exact Nat.lt_succ_self _
  have later := always _ [10] inline refused
  rw [parseRespCommand_inline, refused_closed (by simp), line] at later
  · exact later ⟨_, commandLine_replicate maxInlineSize⟩
  · rw [List.replicate_succ, List.cons_append, List.head?_cons]
    decide

end FlashKV
