import FlashKV.Persistence.Load
import FlashKV.Resp.InRange
import FlashKV.Server.Chunks

/-!
# The loops over the parser come to an end

The loop of `processInput` and the loop of `load` once more, for so many rounds at most and with
checked reads. A round for each byte is enough, and no more commands are executed than bytes are
consumed.
-/

namespace FlashKV

/-- What a loop over the parser has done: its result, how many commands it has executed, and how
many bytes it has consumed. -/
structure Consumed (α : Type) where
  result : α
  commands : Nat
  bytes : Nat

/-- The verdict on what is left of the bytes from a position on. -/
def parseFrom (bytes : Bytes) (position : Nat) : Checked RespParseResult := do
  let size ← Checked.sub bytes.length position
  let rest ← Checked.substr bytes position size
  parseRespCommandAt rest

lemma parseFrom_eq {bytes : Bytes} {position : Nat} (inside : position ≤ bytes.length)
    (fits : bytes.length < 2 ^ 63) :
    parseFrom bytes position = pure (parseRespCommand (bytes.drop position)) := by
  have whole : (bytes.drop position).take (bytes.length - position) = bytes.drop position :=
    List.take_of_length_le (List.length_drop).le
  have short : (bytes.drop position).length < 2 ^ 63 := by
    rw [List.length_drop]
    omega
  rw [parseFrom, Checked.sub_fits inside, pure_bind, Checked.substr_inside inside, pure_bind, whole,
    parseRespCommandAt_eq short]

section Input

variable {σ : Type} (execute : Execute σ)

/-- The loop of `processInput`, with its `consumed` and the number of commands so far. -/
def processRounds : Nat → Nat → Nat → Client → σ → Checked (Consumed (List (Answer σ) × Client × σ))
  | 0, _, _, _, _ => throw .rounds
  | rounds + 1, consumed, commands, client, state =>
    if client.closeAfterWrite = false ∧ consumed < client.input.length then do
      let result ← parseFrom client.input consumed
      if result.status = .incomplete then
        pure ⟨([], { client with input := client.input.drop consumed }, state), commands, consumed⟩
      else if result.status = .error then
        pure ⟨([⟨none, respError result.error, state, state⟩],
          { client with
            input := client.input.drop consumed
            output := client.output ++ respError result.error
            closeAfterWrite := true }, state), commands, consumed⟩
      else do
        let consumed ← Checked.add consumed result.consumedBytes
        if result.arguments = [] then processRounds rounds consumed commands client state
        else do
          let answered := execute result.arguments state
          let run ← processRounds rounds consumed (commands + 1) (client.answer answered.1)
            answered.2
          pure ⟨(⟨some result.arguments, answered.1.payload, state, answered.2⟩ :: run.result.1,
            run.result.2), run.commands, run.bytes⟩
    else pure ⟨([], { client with input := client.input.drop consumed }, state), commands, consumed⟩

/-- The answers to commands. -/
def commandAnswers (answers : List (Answer σ)) : List (Answer σ) :=
  answers.filter fun answer => answer.arguments.isSome

/-- What a run of the loop over `input` says about the loop of the model from `consumed` on. -/
structure ProcessRun (input : Bytes) (client : Client) (state : σ) (consumed commands : Nat)
    (run : Consumed (List (Answer σ) × Client × σ)) : Prop where
  result : run.result = processLoop execute (input.drop consumed) client state
  executed : run.commands = commands + (commandAnswers run.result.1).length
  progress : run.commands ≤ run.bytes
  within : run.bytes ≤ input.length
  left : run.result.2.1.input = input.drop run.bytes

variable {execute} {client : Client} {state : σ} {consumed commands : Nat}

/-- Where the loop stops without another command. -/
lemma ProcessRun.stop {input : Bytes} {answers : List (Answer σ)} {last : Client}
    (result : (answers, last, state) = processLoop execute (input.drop consumed) client state)
    (none : commandAnswers answers = []) (left : last.input = input.drop consumed)
    (progress : commands ≤ consumed) (within : consumed ≤ input.length) :
    ProcessRun execute input client state consumed commands
      ⟨(answers, last, state), commands, consumed⟩ where
  result := result
  executed := by rw [none, List.length_nil, Nat.add_zero]
  progress := progress
  within := within
  left := left

lemma processRounds_run (rounds : Nat) (client : Client) (state : σ) (consumed commands : Nat)
    (fits : client.input.length < 2 ^ 63) (within : consumed ≤ client.input.length)
    (progress : commands ≤ consumed) (enough : client.input.length - consumed < rounds) :
    ∃ run, processRounds execute rounds consumed commands client state = pure run ∧
      ProcessRun execute client.input client state consumed commands run := by
  induction rounds generalizing client state consumed commands with
  | zero => omega
  | succ rounds ih =>
    rw [processRounds]
    by_cases live : client.closeAfterWrite = false ∧ consumed < client.input.length
    swap
    · -- the connection is closing, or everything is consumed
      have stops : client.closeAfterWrite = true ∨ client.input.drop consumed = [] := by
        rw [List.drop_eq_nil_iff]
        cases closing : client.closeAfterWrite with
        | true => exact .inl rfl
        | false => exact .inr (Nat.le_of_not_lt fun more => live ⟨closing, more⟩)
      rw [if_neg live]
      exact ⟨_, rfl, .stop (processLoop_stop (stops.imp_right .inl)).symm rfl rfl progress within⟩
    have open' : ¬ (client.closeAfterWrite = true ∨ client.input.drop consumed = []) := by
      rw [List.drop_eq_nil_iff, live.1]
      have more := live.2
      simp only [Bool.false_eq_true, false_or]
      omega
    rw [if_pos live, parseFrom_eq within fits, pure_bind]
    cases status : (parseRespCommand (client.input.drop consumed)).status with
    | incomplete =>
      rw [if_pos rfl]
      exact ⟨_, rfl, .stop (processLoop_stop (.inr (.inr status))).symm rfl rfl progress within⟩
    | error =>
      rw [if_neg (by decide), if_pos rfl]
      exact ⟨_, rfl, .stop (processLoop_error open' status).symm rfl rfl progress within⟩
    | complete =>
      have pos := parseRespCommand_progress status
      have inside := parseRespCommand_within status
      rw [List.length_drop] at inside
      rw [if_neg (by decide), if_neg (by decide), Checked.add_fits (by omega), pure_bind]
      by_cases blank : (parseRespCommand (client.input.drop consumed)).arguments = []
      · obtain ⟨run, runs, about⟩ := ih client state
          (consumed + (parseRespCommand (client.input.drop consumed)).consumedBytes) commands fits
          (by omega) (by omega) (by omega)
        rw [if_pos blank, runs]
        refine ⟨run, rfl, { about with result := ?_ }⟩
        rw [about.result, processLoop_blank open' status blank, List.drop_drop]
      · obtain ⟨answered, answers⟩ : ∃ answered, answered =
          execute (parseRespCommand (client.input.drop consumed)).arguments state := ⟨_, rfl⟩
        obtain ⟨run, runs, about⟩ := ih (client.answer answered.1) answered.2
          (consumed + (parseRespCommand (client.input.drop consumed)).consumedBytes) (commands + 1)
          fits (by show consumed + _ ≤ client.input.length; omega) (by omega)
          (by show client.input.length - _ < rounds; omega)
        rw [if_neg blank, ← answers]
        dsimp only
        rw [runs, pure_bind]
        refine ⟨_, rfl, ?_, ?_, about.progress, about.within, about.left⟩
        · rw [about.result, processLoop_command open' status blank, List.drop_drop, ← answers]
          rfl
        · exact about.executed.trans (Nat.add_right_comm commands 1 _)

end Input

namespace AppendOnlyFile

section Load

variable {σ : Type} (replay : ReplayFunction σ) (truncation : Option Bytes) (contents : Bytes)

/-- The loop of `load`, with its `position` and `commandNumber` and the number of calls so far. -/
def loadRounds : Nat → Nat → Nat → Nat → σ → Checked (Consumed (LoadResult σ))
  | 0, _, _, _, _ => throw .rounds
  | rounds + 1, position, commandNumber, commands, state =>
    if position < contents.length then do
      let result ← parseFrom contents position
      if result.status = .incomplete then
        pure ⟨truncation.elim ⟨none, some (contents.take position), state⟩ fun message =>
          ⟨some (ascii "failed to truncate AOF: " ++ message), some contents, state⟩,
          commands, position⟩
      else if result.status = .error then
        pure ⟨⟨some (ascii "invalid AOF data at byte " ++ Decimal.ofNat position ++ ascii ": " ++
          result.error), some contents, state⟩, commands, position⟩
      else do
        let position ← Checked.add position result.consumedBytes
        if result.arguments = [] then
          loadRounds rounds position (commandNumber + 1) commands state
        else
          let replayed := replay result.arguments state
          replayed.1.elim
            (loadRounds rounds position (commandNumber + 1) (commands + 1) replayed.2)
            fun replayError =>
              pure ⟨⟨some (ascii "AOF command #" ++ Decimal.ofNat (commandNumber + 1) ++ ascii " (" ++
                result.arguments.headD [] ++ ascii ") failed: " ++ replayError), some contents,
                replayed.2⟩, commands + 1, position⟩
    else pure ⟨⟨none, some contents, state⟩, commands, position⟩

variable {replay truncation}

lemma loadRounds_run (rounds : Nat) (before remaining : Bytes) (commandNumber commands : Nat)
    (state : σ) (fits : (before ++ remaining).length < 2 ^ 63) (progress : commands ≤ before.length)
    (enough : remaining.length < rounds) :
    ∃ run, loadRounds replay truncation (before ++ remaining) rounds before.length commandNumber
        commands state = pure run ∧
      run.result = loadLoop replay truncation (before ++ remaining) before.length commandNumber state ∧
      run.commands ≤ run.bytes ∧ run.bytes ≤ (before ++ remaining).length := by
  induction rounds generalizing before remaining commandNumber commands state with
  | zero => omega
  | succ rounds ih =>
    have total : (before ++ remaining).length = before.length + remaining.length :=
      List.length_append
    rw [loadRounds]
    by_cases nothing : remaining = []
    · subst nothing
      rw [if_neg (by simp), List.append_nil, loadLoop_end]
      exact ⟨_, rfl, rfl, progress, le_rfl⟩
    have some_left := List.length_pos_of_ne_nil nothing
    have within : before.length ≤ (before ++ remaining).length := by
      omega
    rw [if_pos (by omega), parseFrom_eq within fits, pure_bind, List.drop_left, List.take_left,
      loadLoop_round nothing rfl]
    cases status : (parseRespCommand remaining).status with
    | incomplete =>
      rw [if_pos rfl]
      refine ⟨_, rfl, ?_, progress, within⟩
      cases truncation with
      | none => rfl
      | some message => rfl
    | error =>
      rw [if_neg (by decide), if_pos rfl]
      exact ⟨_, rfl, rfl, progress, within⟩
    | complete =>
      have pos := parseRespCommand_progress status
      have inside := parseRespCommand_within status
      obtain ⟨text, rest, e, consumed⟩ : ∃ text rest, remaining = text ++ rest ∧
          (parseRespCommand remaining).consumedBytes = text.length :=
        ⟨_, _, (List.take_append_drop _ remaining).symm, (List.length_take_of_le inside).symm⟩
      have lengths : remaining.length = text.length + rest.length := by
        rw [e, List.length_append]
      have next : before.length + text.length = (before ++ text).length :=
        List.length_append.symm
      have same : before ++ remaining = before ++ text ++ rest := by
        rw [e, List.append_assoc]
      have later : commands + 1 ≤ (before ++ text).length := by
        omega
      have inside' : (before ++ text).length ≤ (before ++ remaining).length := by
        omega
      rw [if_neg (by decide), if_neg (by decide), Checked.add_fits (by omega), pure_bind, consumed,
        next]
      dsimp only
      by_cases blank : (parseRespCommand remaining).arguments = []
      · rw [if_pos blank, if_pos blank, same]
        exact ih _ _ _ _ _ (same ▸ fits) (by omega) (by omega)
      rw [if_neg blank, if_neg blank]
      rcases replay (parseRespCommand remaining).arguments state with ⟨_ | message, state'⟩
      · rw [same]
        exact ih _ _ _ _ _ (same ▸ fits) later (by omega)
      · exact ⟨_, rfl, rfl, later, inside'⟩

end Load

end AppendOnlyFile

/-- The parser makes progress and stays in range. On any bytes, fewer than `2 ^ 63`, it reads and
searches within them and subtracts without wrapping; a complete command consumes at least one byte
and not more than there are, and any other verdict consumes none. So a round for each byte is enough
for the loop of `processInput` and for the loop of `load`, and they execute at most one command for
each byte that they consume. -/
theorem parser_in_range (bytes : Bytes) (fits : bytes.length < 2 ^ 63) :
    (parseRespCommandAt bytes = pure (parseRespCommand bytes) ∧
      ((parseRespCommand bytes).status = .complete →
        0 < (parseRespCommand bytes).consumedBytes ∧
        (parseRespCommand bytes).consumedBytes ≤ bytes.length) ∧
      ((parseRespCommand bytes).status ≠ .complete →
        (parseRespCommand bytes).consumedBytes = 0)) ∧
    (∀ {σ : Type} (execute : Execute σ) (client : Client) (state : σ), client.input = bytes →
      ∃ run, processRounds execute (bytes.length + 1) 0 0 client state = pure run ∧
        run.result = processInput execute client state ∧
        run.commands = (commandAnswers run.result.1).length ∧
        run.result.2.1.input = bytes.drop run.bytes ∧
        run.commands ≤ run.bytes ∧ run.bytes ≤ bytes.length) ∧
    ∀ {σ : Type} (replay : ReplayFunction σ) (truncation : Option Bytes) (aof : AppendOnlyFile)
      (state : σ), aof.file = some bytes →
      ∃ run, AppendOnlyFile.loadRounds replay truncation bytes (bytes.length + 1) 0 0 0 state =
          pure run ∧
        run.result = aof.load replay truncation state ∧
        run.commands ≤ run.bytes ∧ run.bytes ≤ bytes.length := by
  refine ⟨⟨parseRespCommandAt_eq fits, fun complete => ?_, parseRespCommand_consumed⟩, ?_, ?_⟩
  · exact ⟨parseRespCommand_progress complete, parseRespCommand_within complete⟩
  · rintro σ execute client state rfl
    obtain ⟨run, runs, about⟩ := @processRounds_run σ execute (client.input.length + 1) client
      state 0 0 fits (Nat.zero_le _) le_rfl (by omega)
    refine ⟨run, runs, about.result, ?_, about.left, about.progress, about.within⟩
    rw [about.executed, Nat.zero_add]
  · intro σ replay truncation aof state file
    obtain ⟨run, runs, result, progress, within⟩ := @AppendOnlyFile.loadRounds_run σ replay
      truncation (bytes.length + 1) [] bytes 0 0 state fits le_rfl (by omega)
    refine ⟨run, runs, ?_, progress, within⟩
    rw [result, AppendOnlyFile.load, file]
    rfl

theorem parser_in_range_ping : (ascii "PING\r\n").length < 2 ^ 63 ∧
    parseRespCommandAt (ascii "PING\r\n") = pure (completeResult [ascii "PING"] 6) := by
  have fits : (ascii "PING\r\n").length < 2 ^ 63 := by decide
  refine ⟨fits, (parser_in_range (ascii "PING\r\n") fits).1.1.trans ?_⟩
  decide +kernel

end FlashKV
