import FlashKV.Persistence.Reload
import FlashKV.Server.Config
import FlashKV.Server.History

/-!
# The start of the server

Model of `main` up to the event loop, and of its end. The log is replayed into an empty database
through a processor without a log; the memory limit is set afterwards. Whatever the file holds and
whatever the clients do, the database is intact in every state of the program.
-/

namespace FlashKV

open Database

/-- The callback that `main` passes to `load`. `replayer` has no log, so nothing is logged again. -/
def Core.replay (clock : Nat → Int) : ReplayFunction Core := fun arguments replayer =>
  let (reply, replayer) := Core.execute clock arguments replayer
  if isErrorReply reply.payload then
    (some (substr reply.payload 1 (reply.payload.length - 3)), replayer)
  else (none, replayer)

/-- A command processor is made for this database. -/
def Core.create (clock : Nat → Int) (readings : Nat) (database : Database)
    (aof : Option AppendOnlyFile) : Core where
  processor := { database := database, stats := { startTimeMs := clock readings } }
  aof := aof
  readings := readings + 1

/-- The server is made, after the settings of the memory limit. -/
def Core.serve (clock : Nat → Int) (config : ServerConfig) (readings : Nat) (database : Database)
    (aof : Option AppendOnlyFile) : Core :=
  let database := (setMaxMemory config.maxMemory database).2
  let database := (setEvictionPolicy config.evictionPolicy database).2
  let core := Core.create clock readings database aof
  { core with processor := { core.processor with
      stats := { core.processor.stats with port := config.port } } }

/-- What comes of a start: the server is ready, or it has failed with a message and left a file. -/
inductive Boot where
  | failed (message : Bytes) (file : Option Bytes)
  | ready (core : Core)

/-- Source `main` with these settings. `truncation` and `opening` are the error texts of `truncate`
and `open`, if they fail. -/
def boot (clock : Nat → Int) (truncation opening : Option Bytes) (config : ServerConfig)
    (file : Option Bytes) : Boot :=
  if config.appendOnly then
    let aof : AppendOnlyFile := { file := file }
    let loaded := aof.load (Core.replay clock) truncation (Core.create clock 0 {} none)
    let opened := opening.map fun message =>
      ascii "failed to open " ++ config.aofPath ++ ascii ": " ++ message
    match loaded.error.or opened with
    | some error =>
      .failed (ascii "Failed to load " ++ config.aofPath ++ ascii ": " ++ error) loaded.file
    | none =>
      .ready (Core.serve clock config loaded.state.readings loaded.state.processor.database
        (some (AppendOnlyFile.open { aof with file := loaded.file })))
  else .ready (Core.serve clock config 0 {} none)

/-- The end of `main`: the log is flushed, synced and closed by its destructor. -/
def AppendOnlyFile.close (writes : List WriteOutcome) (synced : Bool) (aof : AppendOnlyFile) :
    AppendOnlyFile :=
  { ((aof.flush writes).2.sync synced).2 with opened := false }

section Load

variable {σ : Type} {replay : ReplayFunction σ} {truncation : Option Bytes} {I : σ → Prop}

/-- What the callback keeps is kept by the loop. -/
lemma AppendOnlyFile.loadLoop_keeps (keeps : ∀ record state, I state → I (replay record state).2)
    (contents : Bytes) (position commandNumber : Nat) {state : σ} (h : I state) :
    I (loadLoop replay truncation contents position commandNumber state).state := by
  fun_induction loadLoop replay truncation contents position commandNumber state with
  | case1 | case2 | case3 | case7 => exact h
  | case4 _ _ _ _ _ _ _ ih => exact ih h
  | case5 position number state inside result status given message next failed =>
    have kept := keeps result.arguments state h
    rwa [failed] at kept
  | case6 position number state inside result status given next done ih =>
    have kept := keeps result.arguments state h
    rw [done] at kept
    exact ih kept

lemma AppendOnlyFile.load_keeps (keeps : ∀ record state, I state → I (replay record state).2)
    (aof : AppendOnlyFile) {state : σ} (h : I state) : I (aof.load replay truncation state).state := by
  unfold load
  split
  · exact h
  · exact loadLoop_keeps keeps _ 0 0 h

end Load

section Boot

variable {clock : Nat → Int} {truncation opening : Option Bytes} {config : ServerConfig}
  {file : Option Bytes} {core : Core}

lemma Core.replay_state (clock : Nat → Int) (arguments : List Bytes) (replayer : Core) :
    (Core.replay clock arguments replayer).2 = (Core.execute clock arguments replayer).2 := by
  unfold Core.replay
  dsimp only
  split <;> rfl

/-- A server that is ready has loaded its log and opened it, or it has no log. -/
lemma boot_ready (ready : boot clock truncation opening config file = .ready core) :
    (config.appendOnly = false ∧ core = Core.serve clock config 0 {} none) ∨
    ∃ loaded, loaded = ({ file := file } : AppendOnlyFile).load (Core.replay clock) truncation
        (Core.create clock 0 {} none) ∧
      config.appendOnly = true ∧ loaded.error = none ∧ opening = none ∧
      core = Core.serve clock config loaded.state.readings loaded.state.processor.database
        (some (AppendOnlyFile.open { file := loaded.file })) := by
  unfold boot at ready
  split at ready
  · rename_i attached
    dsimp only at ready
    split at ready
    · cases ready
    · rename_i fine
      obtain ⟨loaded, opened⟩ := Option.or_eq_none_iff.mp fine
      cases ready
      exact .inr ⟨_, rfl, attached, loaded, Option.map_eq_none_iff.mp opened, rfl⟩
  · rename_i detached
    cases ready
    exact .inl ⟨Bool.eq_false_of_not_eq_true detached, rfl⟩

/-- A server whose log has been loaded is ready. -/
lemma boot_of_loaded {loaded : LoadResult Core} (attached : config.appendOnly = true)
    (isLoaded : ({ file := file } : AppendOnlyFile).load (Core.replay clock) truncation
      (Core.create clock 0 {} none) = loaded) (fine : loaded.error = none) :
    boot clock truncation none config file = .ready (Core.serve clock config loaded.state.readings
      loaded.state.processor.database (some (AppendOnlyFile.open { file := loaded.file }))) := by
  unfold boot
  rw [if_pos attached]
  dsimp only
  rw [isLoaded, fine]
  rfl

/-- The database of a server that is ready is intact, whatever was in the file. -/
lemma boot_intact (late : ∀ i, noExpiry ≤ clock i)
    (ready : boot clock truncation opening config file = .ready core) :
    core.processor.database.Intact := by
  have empty : ({} : Database).Intact := intact_empty 0 .noEviction
  rcases boot_ready ready with ⟨_, rfl⟩ | ⟨loaded, isLoaded, _, _, _, rfl⟩
  · exact empty.settings config.maxMemory config.evictionPolicy
  · have keeps : ∀ record (replayer : Core), replayer.processor.database.Intact →
        (Core.replay clock record replayer).2.processor.database.Intact := by
      intro record replayer intact
      rw [Core.replay_state]
      exact intact.execute replayer.status (late replayer.readings) record
    have replayed : loaded.state.processor.database.Intact := by
      rw [isLoaded]
      exact AppendOnlyFile.load_keeps keeps _ empty
    exact replayed.settings config.maxMemory config.evictionPolicy

end Boot

/-- Every request has been answered at a reading of the clock. -/
lemma Sequential.Mirrors.now_mem {clock : Nat → Int} {initial core : Core} {s : Sequential}
    (h : s.Mirrors clock initial core) :
    ∀ answered ∈ s.answered, ∃ i < core.readings, answered.now = clock i := by
  intro answered mem
  have time : answered.now ∈ s.answered.map (·.now) := List.mem_map_of_mem mem
  rw [h.times] at time
  obtain ⟨i, inside, e⟩ := List.mem_map.mp time
  refine ⟨initial.readings + i, ?_, e.symm⟩
  have before := List.mem_range.mp inside
  have readings := h.readings
  omega

/-- The invariants of the storage engine hold in every state of the program: whatever file it starts
with, whatever its settings are, and whatever the clients and the background tasks do. -/
theorem program_intact (clock : Nat → Int) (late : ∀ i, noExpiry ≤ clock i)
    (truncation opening : Option Bytes) (config : ServerConfig) (file : Option Bytes) (core : Core)
    (ready : boot clock truncation opening config file = .ready core) (events : List ServerEvent) :
    let database := (Server.run clock { core := core } events).core.processor.database
    database.IndexConsistent ∧ database.ExactAccounting ∧ database.NoneEmpty := by
  intro database
  obtain ⟨actions, _, explains⟩ := run_explains (fun _ => True) (fun _ => True)
    clock core events (fun _ _ _ => trivial) fun _ _ _ _ => trivial
  have same : database = (Sequential.of core.processor actions).processor.database :=
    congrArg (·.database) explains.processor
  have intact : database.Intact := by
    rw [same]
    refine Sequential.run_intact (boot_intact late ready) actions fun answered mem => ?_
    obtain ⟨i, _, now⟩ := explains.now_mem answered mem
    rw [now]
    exact late i
  exact ⟨indexConsistent_of intact.linked intact.indexed, intact.accounted.exact, intact.noneEmpty⟩

/-- A log that ends with a part of a command, and a client that pushes to the list it has stored. -/
theorem program_intact_torn :
    let file := some (respArray [ascii "RPUSH", ascii "l", ascii "a"] ++ ascii "*3\r\n$3")
    let events : List ServerEvent := [.accept, .client 0
      { readable := true, recvs := [.received (ascii "LPOP l\r\nSET k v PX 7\r\n")] } []]
    ∃ core, boot (fun _ => 0) none none {} file = .ready core ∧
      let database := (Server.run (fun _ => 0) { core := core } events).core.processor.database
      database.IndexConsistent ∧ database.ExactAccounting ∧ database.NoneEmpty := by
  intro file events
  have ready := @boot_of_loaded (fun _ => 0) none {} file _ rfl rfl (by decide +kernel)
  exact ⟨_, ready, program_intact (fun _ => 0) (fun _ => by decide) none none {} file _ ready events⟩

end FlashKV
