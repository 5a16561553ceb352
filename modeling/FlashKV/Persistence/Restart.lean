import FlashKV.Command.Run
import FlashKV.Database.Index
import FlashKV.Persistence.Replay

/-!
# Restarting from the log

A run of commands with a log, and a restart at a later time: `main` loads the log into an empty
database through a processor without a log. If every command of the run is safe for the time of the
restart, the log loads and the reloaded database shows what the original one shows.
-/

namespace FlashKV

open Database

/-- The callback that `main` passes to `load`: an error reply stops the load. -/
def replayCallback (now : Int) : ReplayFunction Processor := fun arguments processor =>
  let (reply, _, processor) := processor.execute .detached now arguments
  if isErrorReply reply.payload then
    (some (substr reply.payload 1 (reply.payload.length - 3)), processor)
  else (none, processor)

section Callback

variable {restart : Int}

/-- The state after the callback has taken records. -/
lemma replayState_callback (records : List (List Bytes)) (processor : Processor) :
    replayState (replayCallback restart) records processor =
      (replayLog (records.map fun record => (restart, record)) processor).2 := by
  induction records generalizing processor with
  | nil => rfl
  | cons record records ih =>
    have next : (replayCallback restart record processor).2 =
        (processor.execute .detached restart record).2.2 := by
      unfold replayCallback
      dsimp only
      split <;> rfl
    show replayState (replayCallback restart) records (replayCallback restart record processor).2 = _
    rw [ih, next]
    rfl

/-- The callback succeeds on exactly the records whose replies are no errors. -/
lemma replaySucceeds_callback (records : List (List Bytes)) (processor : Processor) :
    ReplaySucceeds (replayCallback restart) records processor ↔
      ReplaysCleanly (records.map fun record => (restart, record)) processor := by
  induction records generalizing processor with
  | nil => exact ⟨fun _ _ mem => (by cases mem), fun _ => trivial⟩
  | cons record records ih =>
    show _ ∧ ReplaySucceeds (replayCallback restart) records _ ↔ ∀ reply ∈ _ :: _, _
    rw [ih, List.forall_mem_cons]
    unfold replayCallback
    dsimp only
    cases fine : isErrorReply (processor.execute .detached restart record).1.payload with
    | false => exact ⟨fun h => ⟨fine, h.2⟩, fun h => ⟨rfl, h.2⟩⟩
    | true =>
      constructor
      · intro h
        cases h.1
      · intro h
        cases fine.symm.trans h.1

end Callback

/-- The log file once every record of the run is flushed. -/
def Run.file (run : Run) : AppendOnlyFile where
  file := some (encodeAll (run.log.map (·.2)))

/-! ### Runs of safe commands -/

/-- Every command of the run is safe for a restart at time `restart`. -/
def SafeRun (restart : Int) (limit : Nat) (policy : EvictionPolicy)
    (commands : List (Int × List Bytes)) : Prop :=
  ∀ before command after, commands = before ++ command :: after →
    (commandRun limit policy before).processor.SafeAt restart command.1 command.2

/-- The log of a run of safe commands, replayed at the time of the restart. -/
lemma commandRun_replays {restart : Int} {limit : Nat} {policy : EvictionPolicy}
    (commands : List (Int × List Bytes)) (clock : (commands.map (·.1)).Pairwise (· ≤ ·))
    (last : ∀ command ∈ commands, command.1 ≤ restart)
    (safe : SafeRun restart limit policy commands) :
    let log := (commandRun limit policy commands).log.map fun entry => (restart, entry.2)
    ReplaysCleanly log {} ∧
    (replayLog log {}).2.database.memoryLimit = 0 ∧
    (replayLog log {}).2.database.view restart =
      (commandRun limit policy commands).processor.database.view restart := by
  have inv := commandRun_induction limit policy
    (A := fun command run =>
      command.1 ≤ restart ∧ run.processor.SafeAt restart command.1 command.2)
    (I := fun commands run =>
      let log := run.log.map fun entry => (restart, entry.2)
      (ReplaysCleanly log {} ∧ (replayLog log {}).2.database.memoryLimit = 0 ∧
        (replayLog log {}).2.database.view restart = run.processor.database.view restart) ∧
      ∀ now, (∀ c ∈ commands, c.1 ≤ now) → run.processor.database.Sound now)
    ?_ ?_ commands clock ?_
  · exact inv.1
  · refine ⟨⟨(fun _ mem => by cases mem), rfl, rfl⟩, fun _ _ key slot shown => by cases shown⟩
  · rintro commands ⟨now, arguments⟩ run earlier ⟨le, safe⟩ ⟨⟨clean, unlimited, same⟩, sound⟩
    obtain ⟨reproduces, sound'⟩ :=
      Processor.execute_reproduces le (sound now earlier) safe
    obtain ⟨clean', unlimited', same'⟩ := reproduces.replayLog unlimited same
    have log : (run.step .healthy (.command now arguments)).log.map
        (fun entry => (restart, entry.2)) =
        run.log.map (fun entry => (restart, entry.2)) ++
          (run.processor.execute .healthy now arguments).2.1.map fun record => (restart, record) := by
      simp [Run.step]
    dsimp only
    rw [log]
    unfold ReplaysCleanly
    rw [replayLog_append]
    refine ⟨⟨fun reply mem => ?_, unlimited', same'⟩, fun later notBefore => ?_⟩
    · rcases List.mem_append.mp mem with mem | mem
      · exact clean reply mem
      · exact clean' reply mem
    · exact sound'.later (notBefore (now, arguments) (by simp))
  · intro before command after split
    exact ⟨last command (by rw [split]; simp), safe before command after split⟩

/-! ### Records within the parser's limits -/

/-- A record is a command. -/
lemma Written.ne_nil {arguments record : List Bytes} (nonempty : arguments ≠ [])
    (written : Written arguments record) : record ≠ [] := by
  cases written with
  | same => exact nonempty
  | _ => exact List.cons_ne_nil _ _

lemma delRecord_within {key : Bytes} (short : key.length ≤ maxBulkSize) :
    WithinLimits (delRecord key) := by
  refine ⟨by simp [delRecord, maxArguments], fun argument mem => ?_⟩
  rcases List.mem_pair.mp mem with rfl | rfl
  · decide
  · exact short

/-- The records of a command within the limits are within the limits. -/
lemma Written.within {arguments record : List Bytes} (written : Written arguments record)
    (within : WithinLimits arguments) : WithinLimits record := by
  have triple : ∀ {name second third : Bytes}, name.length ≤ maxBulkSize →
      second.length ≤ maxBulkSize → third.length ≤ maxBulkSize →
      WithinLimits [name, second, third] := by
    intro name second third h h' h''
    refine ⟨by simp [maxArguments], fun argument mem => ?_⟩
    simp only [List.mem_cons, List.not_mem_nil, or_false] at mem
    rcases mem with rfl | rfl | rfl
    · exact h
    · exact h'
    · exact h''
  cases written with
  | same => exact within
  | flushall => decide
  | del mem => exact delRecord_within (within.2 _ mem)
  | set key value => exact triple (by decide) (within.2 _ key) (within.2 _ value)
  | @expiry _ unixTimeMs key range =>
    -- a `long long` has at most nineteen digits
    have digits : (Decimal.ofInt unixTimeMs).length ≤ 19 + 1 := by
      refine Decimal.length_ofInt_le (by decide) ?_
      rw [int64Min, int64Max] at range
      omega
    exact triple (by decide) (within.2 _ key) (digits.trans (by decide))

/-- An evicted key is a key of the recency list. -/
lemma victims_of_lruKeys {K : Bytes → Prop} {db : Database} (keys : db.LruKeys K) :
    ∀ victim ∈ db.victims, K victim := by
  have loop : ∀ fuel (db : Database), db.LruKeys K → ∀ victim ∈ (evictLoop fuel db).1.2, K victim := by
    intro fuel
    induction fuel with
    | zero =>
      intro db _ victim mem
      cases mem
    | succ fuel ih =>
      intro db keys victim mem
      unfold evictLoop at mem
      split at mem
      · cases mem
      · split at mem
        · cases mem
        · split at mem
          · cases mem
          · rename_i cell back
            rcases List.mem_cons.mp mem with rfl | mem
            · exact keys cell (List.mem_of_getLast? back)
            · have steps := evictOne_mutates (p := .erasing) trivial cell.key db
              exact ih _ (steps.preserves (fun _ _ m h => h.mutation nofun m) keys) victim mem
  by_cases unlimited : db.memoryLimit = 0
  · rw [victims_of_unlimited unlimited]
    intro victim mem
    cases mem
  · unfold victims evictIfNeeded
    rw [if_neg unlimited]
    exact loop _ db keys

/-- The keys that a command evicts are keys of the recency list. -/
lemma evicting_of_lruKeys {K : Bytes → Prop} {processor : Processor} (arguments : List Bytes)
    (keys : processor.database.LruKeys K) : ∀ victim ∈ (processor.evicting arguments).2, K victim := by
  unfold Processor.evicting
  split
  · split
    · rename_i bytes _ _
      have limited : ({ processor.database with memoryLimit := bytes } : Database).LruKeys K := keys
      exact victims_of_lruKeys limited
    · dsimp only
      split
      · exact victims_of_lruKeys keys
      · intro victim mem
        cases mem
  · intro victim mem
    cases mem

/-- The records of a run are commands, and within the limits if its commands are. -/
lemma commandRun_records {limit : Nat} {policy : EvictionPolicy} (commands : List (Int × List Bytes))
    (clock : (commands.map (·.1)).Pairwise (· ≤ ·)) :
    ∀ entry ∈ (commandRun limit policy commands).log, entry.2 ≠ [] ∧
      ((∀ command ∈ commands, WithinLimits command.2) → WithinLimits entry.2) := by
  have inv := commandRun_induction limit policy
    (A := fun _ _ => True)
    (I := fun commands run => (∀ entry ∈ run.log, entry.2 ≠ [] ∧
        ((∀ command ∈ commands, WithinLimits command.2) → WithinLimits entry.2)) ∧
      ((∀ command ∈ commands, WithinLimits command.2) →
        run.processor.database.LruKeys fun key => key.length ≤ maxBulkSize))
    ?_ ?_ commands clock (fun _ _ _ _ => trivial)
  · exact inv.1
  · exact ⟨(fun _ mem => by cases mem), fun _ _ mem => by cases mem⟩
  · rintro commands ⟨now, arguments⟩ run _ _ ⟨records, keys⟩
    have healthy : AofStatus.healthy ≠ .failed := by decide
    refine ⟨fun entry mem => ?_, fun within => ?_⟩
    · rcases List.mem_append.mp mem with mem | mem
      · obtain ⟨nonempty, within⟩ := records entry mem
        exact ⟨nonempty, fun all => within fun command mem => all command (by simp [mem])⟩
      · obtain ⟨record, recorded, rfl⟩ := List.mem_map.mp mem
        have given : arguments ≠ [] := by
          rintro rfl
          cases recorded
        rcases Processor.execute_written healthy run.processor record recorded with
          written | ⟨victim, evicted, rfl⟩
        · refine ⟨written.ne_nil given, fun all => written.within ?_⟩
          exact all (now, arguments) (by simp)
        · refine ⟨List.cons_ne_nil _ _, fun all => delRecord_within ?_⟩
          have keys := keys fun command mem => all command (by simp [mem])
          exact evicting_of_lruKeys arguments keys victim evicted
    · have steps := Processor.execute_mutates
        (K := fun key => key.length ≤ maxBulkSize) healthy now arguments
        (fun a mem => (within (now, arguments) (by simp)).2 a (List.mem_of_mem_drop mem)) run.processor
      refine steps.preserves (fun _ _ m h => h.mutation (fun _ k => k) m) (keys ?_)
      exact fun command mem => within command (by simp [mem])

section Reload

variable {limit : Nat} {policy : EvictionPolicy} {restart : Int} {truncation : Option Bytes}

/-- What a restart makes of the log of a run. -/
lemma reload_eq (commands : List (Int × List Bytes)) (clock : (commands.map (·.1)).Pairwise (· ≤ ·)) :
    let run := commandRun limit policy commands
    let log := run.log.map fun entry => (restart, entry.2)
    let loaded := run.file.load (replayCallback restart) truncation {}
    (loaded.error = none ↔ (∀ entry ∈ run.log, WithinLimits entry.2) ∧ ReplaysCleanly log {}) ∧
    (loaded.error = none → loaded.state = (replayLog log {}).2) := by
  intro run log loaded
  have nonempty : ∀ record ∈ run.log.map (·.2), record ≠ [] := by
    intro record mem
    obtain ⟨entry, mem', rfl⟩ := List.mem_map.mp mem
    exact (commandRun_records commands clock entry mem').1
  have same : log = (run.log.map (·.2)).map fun record => (restart, record) := by
    rw [List.map_map]
    rfl
  obtain ⟨success, state⟩ := AppendOnlyFile.load_encodeAll (replayCallback restart) truncation
    nonempty run.file rfl {}
  rw [same, success, replaySucceeds_callback, List.forall_mem_map, ← replayState_callback]
  exact ⟨Iff.rfl, fun h => state (success.mpr ⟨List.forall_mem_map.mpr h.1,
    (replaySucceeds_callback _ _).mpr h.2⟩)⟩

end Reload

/-- Restart equivalence: if every command of a run was safe for the time of the restart and the log
loads, the reloaded database shows at that time what the original one shows. -/
theorem reload_shows_same (limit : Nat) (policy : EvictionPolicy) (commands : List (Int × List Bytes))
    (restart : Int) (truncation : Option Bytes) (clock : (commands.map (·.1)).Pairwise (· ≤ ·))
    (last : ∀ command ∈ commands, command.1 ≤ restart)
    (safe : SafeRun restart limit policy commands)
    (loads : ((commandRun limit policy commands).file.load (replayCallback restart) truncation
      {}).error = none) :
    ((commandRun limit policy commands).file.load (replayCallback restart) truncation
      {}).state.database.view restart =
    (commandRun limit policy commands).processor.database.view restart := by
  obtain ⟨_, _, same⟩ := commandRun_replays commands clock last safe
  rw [(reload_eq commands clock).2 loads]
  exact same

/-- The log of a run of safe commands loads: no replayed record gets an error reply, and if the
commands are within the parser's limits, `load` succeeds. -/
theorem reload_succeeds (limit : Nat) (policy : EvictionPolicy) (commands : List (Int × List Bytes))
    (restart : Int) (truncation : Option Bytes) (clock : (commands.map (·.1)).Pairwise (· ≤ ·))
    (last : ∀ command ∈ commands, command.1 ≤ restart)
    (safe : SafeRun restart limit policy commands) :
    ReplaysCleanly ((commandRun limit policy commands).log.map fun entry => (restart, entry.2)) {} ∧
    ((∀ command ∈ commands, WithinLimits command.2) →
      ((commandRun limit policy commands).file.load (replayCallback restart) truncation
        {}).error = none) := by
  obtain ⟨clean, _, _⟩ := commandRun_replays commands clock last safe
  refine ⟨clean, fun within => (reload_eq commands clock).1.mpr ⟨?_, clean⟩⟩
  exact fun entry mem => (commandRun_records commands clock entry mem).2 within

/-- A run that a restart survives: a string that has expired by then, and a counter. -/
def survivingCommands : List (Int × List Bytes) :=
  [(0, [ascii "SET", ascii "k", ascii "v", ascii "EX", ascii "10"]), (3, [ascii "INCR", ascii "n"])]

lemma survivingCommands_safe : SafeRun 20000 0 .noEviction survivingCommands := by
  intro before command after split
  rcases before with _ | ⟨c, _ | ⟨c', before⟩⟩
  · cases split
    intro handler ran
    have isSet : (commandRun 0 .noEviction []).processor.dispatched
        [ascii "SET", ascii "k", ascii "v", ascii "EX", ascii "10"] = some .set := by decide +kernel
    cases isSet.symm.trans ran
    constructor
    · exact fun _ _ _ _ _ wrote => wrote
    · intro _ _ _ _ _ asked
      cases asked
    · intro _ key options deadline _ parsed _ given _
      have read : Handler.parseSetOptions 0 [ascii "EX", ascii "10"] {} =
          .ok ⟨false, false, some 10000⟩ := by decide +kernel
      cases read.symm.trans parsed
      cases given
      decide
  · cases split
    intro handler ran
    have isIncr : (commandRun 0 .noEviction [(0, [ascii "SET", ascii "k", ascii "v", ascii "EX",
        ascii "10"])]).processor.dispatched [ascii "INCR", ascii "n"] = some .incr := by
      decide +kernel
    cases isIncr.symm.trans ran
    constructor
    · intro key slot first shown
      cases first
      cases shown
    · intro _ _ _ _ _ asked
      cases asked
    · intro isSet
      cases isSet
  · simp [survivingCommands] at split

lemma survivingCommands_loads :
    ((commandRun 0 .noEviction survivingCommands).file.load (replayCallback 20000) none
      {}).error = none := by
  refine (reload_eq survivingCommands (by decide)).1.mpr ⟨by decide +kernel, ?_⟩
  unfold ReplaysCleanly
  decide +kernel

theorem reload_shows_same_surviving :
    ((commandRun 0 .noEviction survivingCommands).file.load (replayCallback 20000) none
      {}).state.database.view 20000 =
    (commandRun 0 .noEviction survivingCommands).processor.database.view 20000 :=
  reload_shows_same 0 .noEviction survivingCommands 20000 none (by decide) (by decide)
    survivingCommands_safe survivingCommands_loads

theorem reload_succeeds_surviving :
    ReplaysCleanly
      ((commandRun 0 .noEviction survivingCommands).log.map fun entry => (20000, entry.2)) {} ∧
    ((commandRun 0 .noEviction survivingCommands).file.load (replayCallback 20000) none
      {}).error = none := by
  obtain ⟨clean, loads⟩ := reload_succeeds 0 .noEviction survivingCommands 20000 none (by decide)
    (by decide) survivingCommands_safe
  exact ⟨clean, loads (by decide)⟩

/-- A key whose time to live is extended is lost: at the restart the first deadline has passed, the
replay removes the key there, and the record of the second deadline finds nothing. -/
theorem reload_loses_extended_key :
    let commands := [(0, [ascii "SET", ascii "k", ascii "v", ascii "EX", ascii "10"]),
      (5000, [ascii "EXPIRE", ascii "k", ascii "100"])]
    let run := commandRun 0 .noEviction commands
    let loaded := run.file.load (replayCallback 20000) none {}
    loaded.error = none ∧
    run.processor.database.view 20000 (ascii "k") = some ⟨.string (ascii "v"), some 105000⟩ ∧
    loaded.state.database.view 20000 (ascii "k") = none := by
  intro commands run loaded
  have loads : loaded.error = none := by
    refine (reload_eq commands (by decide)).1.mpr ⟨by decide +kernel, ?_⟩
    unfold ReplaysCleanly
    decide +kernel
  refine ⟨loads, by decide +kernel, ?_⟩
  rw [(reload_eq commands (by decide)).2 loads]
  decide +kernel

/-- A log that does not load: the counter had expired when the list was pushed, but the replay,
which finds it expired from the start, creates it again without a deadline. -/
theorem reload_refuses_log :
    let commands := [(0, [ascii "SET", ascii "k", ascii "5", ascii "EX", ascii "10"]),
      (5000, [ascii "INCR", ascii "k"]), (11000, [ascii "LPUSH", ascii "k", ascii "a"])]
    let run := commandRun 0 .noEviction commands
    ¬ ReplaysCleanly (run.log.map fun entry => (20000, entry.2)) {} ∧
    (run.file.load (replayCallback 20000) none {}).error ≠ none := by
  intro commands run
  have refused : ¬ ReplaysCleanly (run.log.map fun entry => (20000, entry.2)) {} := by
    unfold ReplaysCleanly
    decide +kernel
  refine ⟨refused, fun loads => refused ?_⟩
  exact ((reload_eq commands (by decide)).1.mp loads).2

end FlashKV
