import FlashKV.Persistence.Load
import FlashKV.Resp.Extension

/-!
# Loading a log twice

Whatever the file holds, a load that succeeds leaves a sequence of commands in it, and the next load
hands over the same commands and leaves the file as it is.
-/

namespace FlashKV

/-- The bytes are commands, one after the other, that the parser reads as these argument vectors. -/
inductive CommandSequence : List (List Bytes) → Bytes → Prop where
  | nil : CommandSequence [] []
  | cons {arguments : List Bytes} {text : Bytes} {commands : List (List Bytes)} {rest : Bytes} :
    parseRespCommand text = completeResult arguments text.length →
    CommandSequence commands rest →
    CommandSequence (arguments :: commands) (text ++ rest)

/-- The commands that a load hands to its callback: all but the empty ones. -/
def handed (commands : List (List Bytes)) : List (List Bytes) :=
  commands.filter (· ≠ [])

lemma replayState_handed_cons {σ : Type} (replay : ReplayFunction σ) (arguments : List Bytes)
    (commands : List (List Bytes)) (state : σ) :
    replayState replay (handed (arguments :: commands)) state =
      replayState replay (handed commands) (replayState replay (handed [arguments]) state) := by
  have split : handed (arguments :: commands) = handed [arguments] ++ handed commands := by
    rw [handed, handed, handed, ← List.filter_append, List.singleton_append]
  rw [split]
  exact List.foldl_append ..

/-- A command that the parser reads completely is read so whatever follows it. -/
lemma parseRespCommand_append {arguments : List Bytes} {text : Bytes}
    (read : parseRespCommand text = completeResult arguments text.length) (rest : Bytes) :
    text ≠ [] ∧ parseRespCommand (text ++ rest) = completeResult arguments text.length := by
  have complete : (parseRespCommand text).status = .complete := by
    rw [read]
    rfl
  obtain ⟨front, more, e, nonempty, same⟩ := parseRespCommand_local complete
  have whole := same more
  rw [← e, read] at whole
  -- all of the text was consumed
  have length : text.length = front.length := congrArg RespParseResult.consumedBytes whole
  have none_ : more = [] := by
    rw [e, List.length_append] at length
    exact List.length_eq_zero_iff.mp (by omega)
  rw [none_, List.append_nil] at e
  subst e
  refine ⟨nonempty, ?_⟩
  rw [same rest, read]
  rfl

/-- Commands up to where no command follows: nothing longer in front of the bytes is a sequence of
commands. -/
lemma CommandSequence.longest {commands others : List (List Bytes)} {kept front rest : Bytes}
    (sequence : CommandSequence commands kept) (stops : (parseRespCommand rest).status ≠ .complete)
    (other : CommandSequence others front) (part : front <+: kept ++ rest) : front <+: kept := by
  induction sequence generalizing others front with
  | nil =>
    cases other with
    | nil => exact List.prefix_rfl
    | @cons arguments text _ later read _ =>
      obtain ⟨more, whole⟩ := part
      rw [List.append_assoc, List.nil_append] at whole
      obtain ⟨_, parsed⟩ := parseRespCommand_append read (later ++ more)
      rw [whole] at parsed
      exact absurd (congrArg RespParseResult.status parsed) stops
  | @cons arguments text commands kept read _ ih =>
    cases other with
    | nil => exact List.nil_prefix
    | @cons arguments' text' _ later read' other =>
      obtain ⟨more, whole⟩ := part
      rw [List.append_assoc, List.append_assoc] at whole
      obtain ⟨_, parsed⟩ := parseRespCommand_append read (kept ++ rest)
      obtain ⟨_, parsed'⟩ := parseRespCommand_append read' (later ++ more)
      rw [whole, parsed] at parsed'
      -- the parser reads only one command there
      have length : text'.length = text.length :=
        (congrArg RespParseResult.consumedBytes parsed').symm
      obtain ⟨rfl, same⟩ := List.append_inj whole length
      exact (List.prefix_append_right_inj _).mpr (ih other ⟨more, same⟩)

namespace AppendOnlyFile

section Loop

variable {σ : Type} {replay : ReplayFunction σ} {before text : Bytes} {arguments : List Bytes}

/-- One round of the loop on a complete command, with a callback that does not fail. -/
lemma loadLoop_complete (succeeds : ∀ record state, (replay record state).1 = none)
    (read : parseRespCommand text = completeResult arguments text.length) (rest : Bytes)
    (commandNumber : Nat) (state : σ) :
    loadLoop replay none (before ++ (text ++ rest)) before.length commandNumber state =
      loadLoop replay none (before ++ text ++ rest) (before ++ text).length (commandNumber + 1)
        (replayState replay (handed [arguments]) state) := by
  obtain ⟨nonempty, parsed⟩ := parseRespCommand_append read rest
  rw [loadLoop_round (List.append_ne_nil_of_left_ne_nil nonempty rest) parsed, List.append_assoc,
    List.length_append]
  by_cases blank : arguments = []
  · simp [completeResult, blank, handed, replayState]
  · have ok := succeeds arguments state
    rcases h : replay arguments state with ⟨_ | message, next⟩
    · simp [completeResult, blank, handed, replayState, h]
    · rw [h] at ok
      cases ok

/-- The loop over a sequence of commands hands over all of them and keeps the file. -/
lemma loadLoop_commands (succeeds : ∀ record state, (replay record state).1 = none)
    {commands : List (List Bytes)} (sequence : CommandSequence commands text) (before : Bytes)
    (commandNumber : Nat) (state : σ) :
    loadLoop replay none (before ++ text) before.length commandNumber state =
      ⟨none, some (before ++ text), replayState replay (handed commands) state⟩ := by
  induction sequence generalizing before commandNumber state with
  | nil =>
    rw [List.append_nil, loadLoop_end]
    rfl
  | @cons arguments text commands rest read _ ih =>
    rw [loadLoop_complete succeeds read, ih, ← replayState_handed_cons, List.append_assoc]

/-- The loop over any bytes: it hands over the commands in front. It removes what is after them if
that may be a command which is cut, and otherwise it fails and keeps the file. -/
lemma loadLoop_any (remaining : Bytes) :
    ∃ commands kept rest, remaining = kept ++ rest ∧ CommandSequence commands kept ∧
      (parseRespCommand rest).status ≠ .complete ∧
      ((∀ {σ : Type} (replay : ReplayFunction σ), (∀ record state, (replay record state).1 = none) →
        ∀ before commandNumber state,
          loadLoop replay none (before ++ remaining) before.length commandNumber state =
            ⟨none, some (before ++ kept), replayState replay (handed commands) state⟩) ∨
      ∀ {σ : Type} (replay : ReplayFunction σ), (∀ record state, (replay record state).1 = none) →
        ∀ before commandNumber state, ∃ message,
          loadLoop replay none (before ++ remaining) before.length commandNumber state =
            ⟨some message, some (before ++ remaining), replayState replay (handed commands) state⟩) := by
  induction size : remaining.length using Nat.strong_induction_on generalizing remaining with
  | _ total ih =>
    by_cases nothing : remaining = []
    · refine ⟨[], [], [], nothing, .nil, by decide,
        .inl fun replay _ before commandNumber state => ?_⟩
      rw [nothing, List.append_nil, loadLoop_end]
      rfl
    cases status : (parseRespCommand remaining).status with
    | incomplete =>
      refine ⟨[], [], remaining, rfl, .nil, by rw [status]; exact nofun,
        .inl fun replay _ before commandNumber state => ?_⟩
      rw [loadLoop_round nothing rfl, status, List.append_nil]
      rfl
    | error =>
      refine ⟨[], [], remaining, rfl, .nil, by rw [status]; exact nofun,
        .inr fun replay _ before commandNumber state => ?_⟩
      rw [loadLoop_round nothing rfl, status]
      exact ⟨_, rfl⟩
    | complete =>
      obtain ⟨text, rest, e, nonempty, same⟩ := parseRespCommand_local status
      have read : parseRespCommand text =
          completeResult (parseRespCommand remaining).arguments text.length := by
        have alone := same []
        rwa [List.append_nil] at alone
      have shorter : rest.length < total := by
        have pos := List.length_pos_of_ne_nil nonempty
        rw [← size, e, List.length_append]
        omega
      obtain ⟨commands, kept, tail, e', sequence, stops, verdict⟩ := ih rest.length shorter rest rfl
      generalize (parseRespCommand remaining).arguments = arguments at read
      refine ⟨arguments :: commands, text ++ kept, tail, by rw [e, e', List.append_assoc],
        .cons read sequence, stops, ?_⟩
      rcases verdict with loads | fails
      · refine .inl fun replay succeeds before commandNumber state => ?_
        rw [e, loadLoop_complete succeeds read, loads replay succeeds, ← replayState_handed_cons,
          List.append_assoc]
      · refine .inr fun replay succeeds before commandNumber state => ?_
        obtain ⟨message, failed⟩ := fails replay succeeds (before ++ text) (commandNumber + 1)
          (replayState replay (handed [arguments]) state)
        refine ⟨message, ?_⟩
        rw [e, loadLoop_complete succeeds read, failed, ← replayState_handed_cons, List.append_assoc]

end Loop

end AppendOnlyFile

/-- Loading is idempotent. Of any file, a load with a callback that always succeeds hands over the
commands of the longest front that is a sequence of commands. If it returns `true`, the file holds exactly these commands afterwards, and a
second load returns `true`, hands over the same commands and leaves the file as it is; if it returns
`false`, the file is as it was. -/
theorem load_idempotent (contents : Bytes) :
    ∃ commands kept, kept <+: contents ∧ CommandSequence commands kept ∧
      (∀ others front, CommandSequence others front → front <+: contents → front <+: kept) ∧
      ∀ {σ : Type} (replay : ReplayFunction σ), (∀ record state, (replay record state).1 = none) →
        ∀ state,
          let first := ({ file := some contents } : AppendOnlyFile).load replay none state
          first.state = replayState replay (handed commands) state ∧
          (first.error = none → first.file = some kept ∧ ∀ state',
            ({ file := some kept } : AppendOnlyFile).load replay none state' =
              ⟨none, some kept, replayState replay (handed commands) state'⟩) ∧
          (first.error ≠ none → first.file = some contents) := by
  obtain ⟨commands, kept, rest, e, sequence, stops, verdict⟩ := AppendOnlyFile.loadLoop_any contents
  refine ⟨commands, kept, ⟨rest, e.symm⟩, sequence, fun others front other part => ?_,
    fun replay succeeds state => ?_⟩
  · rw [e] at part
    exact sequence.longest stops other part
  have again : ∀ state', ({ file := some kept } : AppendOnlyFile).load replay none state' =
      ⟨none, some kept, replayState replay (handed commands) state'⟩ :=
    AppendOnlyFile.loadLoop_commands succeeds sequence [] 0
  intro first
  rcases verdict with loads | fails
  · have loaded : first = ⟨none, some kept, replayState replay (handed commands) state⟩ :=
      loads replay succeeds [] 0 state
    rw [loaded]
    exact ⟨rfl, fun _ => ⟨rfl, again⟩, fun failed => absurd rfl failed⟩
  · obtain ⟨message, failed⟩ := fails replay succeeds [] 0 state
    have refused : first =
        ⟨some message, some contents, replayState replay (handed commands) state⟩ := failed
    rw [refused]
    exact ⟨rfl, (fun fine => by cases fine), fun _ => rfl⟩

end FlashKV
