import FlashKV.Server.Boot
import FlashKV.Server.Crash

/-!
# One session after the other

A session starts the server on the file that the session before has left, runs the event loop and
shuts the server down. If everything that has been asked is safe for a restart at a time, a start at
that time shows what the last session showed at its end.
-/

namespace FlashKV

open Database

/-- Replayed at time `t` into an empty database, the records load and show what `db` shows. -/
def Reloads (t : Int) (records : List (List Bytes)) (db : Database) : Prop :=
  ∀ processor : Processor, processor.database = {} →
    ReplaysCleanly (records.map fun record => (t, record)) processor ∧
    (replayLog (records.map fun record => (t, record)) processor).2.database.memoryLimit = 0 ∧
    (replayLog (records.map fun record => (t, record)) processor).2.database.view t = db.view t

section Reloads

variable {t now : Int} {logged records : List (List Bytes)} {db db' : Database} {s : Sequential}
  {processor : Processor} {arguments : List Bytes}

lemma Reloads.start : Reloads t [] {} := by
  intro processor empty
  refine ⟨nofun, ?_, ?_⟩
  · exact congrArg (·.memoryLimit) empty
  · exact congrArg (·.view t) empty

lemma Reloads.of_view (h : Reloads t logged db) (same : db.view t = db'.view t) :
    Reloads t logged db' := by
  intro processor empty
  obtain ⟨clean, unlimited, shows⟩ := h processor empty
  exact ⟨clean, unlimited, shows.trans same⟩

lemma Reloads.extend (h : Reloads t logged db) (more : Reproduces t records db db') :
    Reloads t (logged ++ records) db' := by
  intro processor empty
  obtain ⟨clean, unlimited, shows⟩ := h processor empty
  obtain ⟨clean', rest⟩ := more.replayLog unlimited shows
  unfold ReplaysCleanly
  rw [List.map_append, replayLog_append]
  exact ⟨List.forall_mem_append.mpr ⟨clean, clean'⟩, rest⟩

lemma Database.NoneEmpty.sound (h : db.NoneEmpty) (t : Int) : db.Sound t := by
  intro key slot shown
  obtain ⟨stored, _⟩ := Option.filter_eq_some_iff.mp shown
  obtain ⟨entry, found, rfl⟩ := Option.map_eq_some_iff.mp stored
  exact h key entry found

/-- What a safe request does is reproduced, whether its records could be written or not. -/
lemma Processor.execute_reloads {aof : AofStatus} (attached : aof.attached = true) (le : now ≤ t)
    (noneEmpty : processor.database.NoneEmpty) (safe : processor.SafeAt t now arguments) :
    Reproduces t (processor.execute aof now arguments).2.1 processor.database
      (processor.execute aof now arguments).2.2.database := by
  have healthy := (Processor.execute_reproduces le (noneEmpty.sound now) safe).1
  cases aof with
  | detached => cases attached
  | healthy => exact healthy
  | failed =>
    rcases processor.execute_failed now arguments with same | ⟨nothing, same⟩
    · rw [same]
      exact healthy
    · rw [nothing]
      exact .of_view (congrArg (·.view t) same.symm)

/-- Every request of the sequence is safe for a restart at time `t`. -/
def Sequential.Safe (t : Int) (s : Sequential) : Prop :=
  ∀ answered ∈ s.answered,
    answered.now ≤ t ∧ answered.before.SafeAt t answered.now answered.arguments

/-- A sequence of safe requests. -/
lemma Sequential.run_reloads (intact : s.processor.database.Intact)
    (reloads : Reloads t (logged ++ s.records) s.processor.database) (actions : List Action)
    (sees : ∀ action ∈ actions, action.Sees (·.attached = true) (· ≤ t))
    (late : ∀ answered ∈ (s.run actions).answered, noExpiry ≤ answered.now)
    (safe : (s.run actions).Safe t) :
    Reloads t (logged ++ (s.run actions).records) (s.run actions).processor.database := by
  induction actions using List.reverseRecOn with
  | nil => exact reloads
  | append_singleton actions action ih =>
    obtain ⟨earlier, here⟩ := List.forall_mem_append.mp sees
    have sees' := here action (List.mem_singleton_self _)
    rw [Sequential.run_append] at late safe ⊢
    cases action with
    | request client aof now arguments =>
      obtain ⟨late', _⟩ := List.forall_mem_append.mp late
      obtain ⟨safe', now'⟩ := List.forall_mem_append.mp safe
      obtain ⟨le, safeAt⟩ := now' _ (List.mem_singleton_self _)
      have intact' := Sequential.run_intact intact actions late'
      have step := Processor.execute_reloads sees' le intact'.noneEmpty safeAt
      have reloads' := (ih earlier late' safe').extend step
      rwa [List.append_assoc] at reloads'
    | cycle choices samplesPerLoop now =>
      have intact' := Sequential.run_intact intact actions late
      obtain ⟨same, _⟩ := activeExpireCycle_view choices samplesPerLoop now intact'.indexed
      exact (ih earlier late safe).of_view (view_eq_later sees' same).symm
    | accepted | closed => exact ih earlier late safe

end Reloads

/-! ### The start -/

section Load

variable {t : Int} {truncation : Option Bytes} {records : List (List Bytes)} {core : Core}

/-- The loop over a log that the callback takes hands over all records and keeps the file. -/
lemma AppendOnlyFile.loadLoop_all {σ : Type} {replay : ReplayFunction σ}
    (commands : ∀ record ∈ records, record ≠ [] ∧ WithinLimits record) (before : Bytes)
    (commandNumber : Nat) (state : σ) (succeeds : ReplaySucceeds replay records state) :
    loadLoop replay truncation (before ++ encodeAll records) before.length commandNumber state =
      ⟨none, some (before ++ encodeAll records), replayState replay records state⟩ := by
  induction records generalizing before commandNumber state with
  | nil =>
    rw [show encodeAll [] = [] from rfl, List.append_nil, loadLoop_end]
    rfl
  | cons record records ih =>
    obtain ⟨⟨nonempty, within⟩, others⟩ := List.forall_mem_cons.mp commands
    obtain ⟨ok, succeeds⟩ := succeeds
    have shape : encodeAll (record :: records) = respArray record ++ encodeAll records := rfl
    have rest := ih others (before ++ respArray record) (commandNumber + 1) _ succeeds
    rw [List.append_assoc] at rest
    rw [shape, loadLoop_record nonempty within]
    rcases h : replay record state with ⟨_ | message, next⟩
    · rw [h] at rest
      rw [show replayState replay (record :: records) state = replayState replay records next by
        rw [replayState, List.foldl_cons, h]; rfl]
      exact rest
    · rw [h] at ok
      cases ok

/-- At a standing clock the replay of `main` is that of a processor without a log. -/
lemma Core.replay_callback (t : Int) (record : List Bytes) (detached : core.aof = none) :
    (Core.replay (fun _ => t) record core).1 = (replayCallback t record core.processor).1 ∧
    (Core.replay (fun _ => t) record core).2.processor =
      (replayCallback t record core.processor).2 ∧
    (Core.replay (fun _ => t) record core).2.aof = none := by
  have status : core.status = .detached := by rw [Core.status, detached]
  unfold Core.replay replayCallback Core.execute
  rw [status]
  dsimp only
  split
  · exact ⟨rfl, rfl, by rw [detached]; rfl⟩
  · exact ⟨rfl, rfl, by rw [detached]; rfl⟩

lemma Core.replay_records (t : Int) (records : List (List Bytes)) (detached : core.aof = none) :
    (ReplaySucceeds (Core.replay fun _ => t) records core ↔
      ReplaySucceeds (replayCallback t) records core.processor) ∧
    (replayState (Core.replay fun _ => t) records core).processor =
      replayState (replayCallback t) records core.processor := by
  induction records generalizing core with
  | nil => exact ⟨Iff.rfl, rfl⟩
  | cons record records ih =>
    obtain ⟨error, next, detached'⟩ := Core.replay_callback t record detached
    obtain ⟨succeeds, state⟩ := ih detached'
    rw [next] at succeeds state
    refine ⟨?_, state⟩
    show _ ∧ _ ↔ _ ∧ _
    rw [error, succeeds]

/-- Replaying records within the limits leaves keys within the limits. -/
lemma Core.replay_keysFit (commands : ∀ record ∈ records, record ≠ [] ∧ WithinLimits record)
    (keys : core.processor.database.KeysFit) (clock : Nat → Int) :
    (replayState (Core.replay clock) records core).processor.database.KeysFit := by
  refine List.foldlRecOn (motive := fun core : Core => core.processor.database.KeysFit) records _
    keys fun core keys record mem => ?_
  rw [Core.replay_state]
  exact core.processor.execute_keysFit core.status _ (commands record mem).2 keys

/-- The server starts on a log that reloads. -/
lemma boot_reloads {db : Database} {file : Option Bytes} {config : ServerConfig}
    (truncation : Option Bytes) (attached : config.appendOnly = true)
    (commands : ∀ record ∈ records, record ≠ [] ∧ WithinLimits record)
    (contents : file.getD [] = encodeAll records) (reloads : Reloads t records db) :
    ∃ core, boot (fun _ => t) truncation none config file = .ready core ∧
      core.processor.database.view t = db.view t ∧ core.processor.database.KeysFit ∧
      core.processor.database.memoryLimit = config.maxMemory ∧
      core.processor.database.policy = config.evictionPolicy ∧
      core.aof = some (AppendOnlyFile.open { file := file }) := by
  obtain ⟨clean, _, shows⟩ := reloads (Core.create (fun _ => t) 0 {} none).processor rfl
  obtain ⟨succeeds, state⟩ := Core.replay_records t records
    (show (Core.create (fun _ => t) 0 {} none).aof = none from rfl)
  have loaded : ({ file := file } : AppendOnlyFile).load (Core.replay fun _ => t) truncation
      (Core.create (fun _ => t) 0 {} none) =
      ⟨none, file, replayState (Core.replay fun _ => t) records
        (Core.create (fun _ => t) 0 {} none)⟩ := by
    cases file with
    | none =>
      have nothing : records = [] := by
        cases records with
        | nil => rfl
        | cons record records =>
          exact absurd (List.append_eq_nil_iff.mp contents.symm).1 (respArray_ne_nil record)
      rw [nothing]
      rfl
    | some bytes =>
      have whole : bytes = encodeAll records := contents
      subst whole
      exact AppendOnlyFile.loadLoop_all commands [] 0 _
        (succeeds.mpr ((replaySucceeds_callback _ _).mpr clean))
  refine ⟨_, boot_of_loaded attached loaded rfl, ?_, Core.replay_keysFit commands ?_ _, rfl, rfl, rfl⟩
  · rw [← shows, ← replayState_callback, ← state]
    rfl
  · exact fun cell mem => absurd mem List.not_mem_nil

end Load

/-! ### Sessions -/

/-- Everything that the session does is safe for a restart at time `t`. -/
structure SafeSession (clock : Nat → Int) (core : Core) (events : List ServerEvent) (t : Int) :
    Prop where
  cycles : ∀ choices samplesPerLoop now, .cycle choices samplesPerLoop now ∈ events → now ≤ t
  requests : ∀ connection ∈ (Server.run clock { core := core } events).connections,
    ∀ answer ∈ connection.answers, ∀ arguments, answer.arguments = some arguments →
      clock answer.before.readings ≤ t ∧
      answer.before.processor.SafeAt t (clock answer.before.readings) arguments

/-- Sessions, one after the other: the file and the database at the end of the last one, and the
times at which a restart is safe. While a session runs, writes to the log may fail; at its end
everything is written. -/
inductive Sessions : Option Bytes → Database → (Int → Prop) → Prop where
  | first : Sessions none {} fun _ => True
  | next {file db safe start config core clock events aof writes synced} :
    Sessions file db safe →
    safe start →
    noExpiry ≤ start →
    boot (fun _ => start) none none config file = .ready core →
    (∀ i, noExpiry ≤ clock i) →
    (∀ event ∈ events, event.Fits) →
    (Server.run clock { core := core } events).core.aof = some aof →
    (∀ written, ¬ FailsAfter writes aof.buffer.length written) →
    Sessions (aof.close writes synced).file
      (Server.run clock { core := core } events).core.processor.database
      fun t => safe t ∧ start ≤ t ∧ SafeSession clock core events t

section Sessions

variable {clock : Nat → Int} {core : Core} {file : Option Bytes} {db : Database} {safe : Int → Prop}

/-- The log stays open. -/
lemma run_opened (clock : Nat → Int) (opened : core.Opened) (events : List ServerEvent) :
    (Server.run clock { core := core } events).core.Opened := by
  have propagates : (Server.run clock { core := core } events).Propagates clock :=
    List.foldlRecOn (motive := fun server : Server => server.Propagates clock) events _
      ⟨opened, nofun, nofun⟩ fun server propagates event _ => (propagates.step event).1
  exact propagates.opened

/-- A log that is closed with all its bytes written. -/
lemma AppendOnlyFile.close_file {aof : AppendOnlyFile} (opened : aof.opened = true)
    {writes : List WriteOutcome}
    (succeed : ∀ written, ¬ FailsAfter writes aof.buffer.length written) (synced : Bool) :
    (aof.close writes synced).file.getD [] = aof.stream := by
  have written : (aof.flush writes).2.stream = aof.stream := aof.stream_flush writes
  rw [stream, flush_empties writes opened succeed, List.append_nil] at written
  rw [← written]
  unfold close sync
  split <;> rfl

/-- What the file holds at the end of a session reloads at every time that is safe. -/
lemma Sessions.reloads (sessions : Sessions file db safe) :
    ∃ records, file.getD [] = encodeAll records ∧
      (∀ record ∈ records, record ≠ [] ∧ WithinLimits record) ∧
      ∀ t, safe t → Reloads t records db := by
  induction sessions with
  | first => exact ⟨[], rfl, nofun, fun t _ => .start⟩
  | @next file db safe start config core clock events aof writes synced _ safe' since ready late fits
      attached succeed ih =>
    obtain ⟨logged, contents, commands, reloads⟩ := ih
    have isAttached : core.aof.isSome = true := by
      rw [← run_attached clock core events, Core.status_attached, attached]
      rfl
    have appendOnly : config.appendOnly = true := by
      rcases boot_ready ready with ⟨_, rfl⟩ | ⟨_, _, appendOnly, _⟩
      · cases isAttached
      · exact appendOnly
    obtain ⟨core', ready', shows, keys, _, _, log⟩ :=
      boot_reloads none appendOnly commands contents (reloads start safe')
    cases ready.symm.trans ready'
    have intact : core.processor.database.Intact := boot_intact (fun _ => since) ready
    obtain ⟨actions, sees, explains⟩ := run_explains (·.attached = true)
      (fun now => ∃ choices samplesPerLoop, .cycle choices samplesPerLoop now ∈ events) clock core
      events (fun before _ _ => (run_attached clock core before).trans isAttached)
      fun choices samplesPerLoop now mem => ⟨choices, samplesPerLoop, mem⟩
    have opened : aof.opened = true := by
      obtain ⟨aof', same, opened⟩ := run_opened clock ⟨_, log, rfl⟩ events
      cases attached.symm.trans same
      exact opened
    obtain ⟨records, _⟩ := Sequential.run_records (s := { processor := core.processor }) keys actions
      (explains.within (run_limited clock core events fits)) nofun
    refine ⟨logged ++ (Sequential.of core.processor actions).records, ?_, ?_, ?_⟩
    · have stream := explains.toMirrors.stream isAttached
      rw [Core.stream, attached, Core.stream, log] at stream
      rw [AppendOnlyFile.close_file opened succeed, encodeAll_append, ← contents]
      refine stream.trans (congrArg (· ++ _) ?_)
      exact List.append_nil _
    · exact List.forall_mem_append.mpr ⟨commands, records⟩
    · rintro t ⟨safeBefore, le, cycles, requests⟩
      have start' : Reloads t (logged ++ []) core.processor.database := by
        rw [List.append_nil]
        exact (reloads t safeBefore).of_view (view_eq_later le shows).symm
      rw [explains.processor]
      refine Sequential.run_reloads (s := { processor := core.processor }) intact start' actions
        (fun action mem => ?_) (fun answered mem => ?_) fun answered mem => ?_
      · have sees := sees action mem
        cases action with
        | request => exact sees
        | cycle choices samplesPerLoop now =>
          obtain ⟨_, _, mem⟩ := sees
          exact cycles _ _ now mem
        | accepted | closed => trivial
      · obtain ⟨i, _, now⟩ := explains.now_mem answered mem
        rw [now]
        exact late i
      · obtain ⟨connection, there, answer, given, e⟩ := explains.answered_mem answered mem
        obtain ⟨arguments, asked, same⟩ := Option.map_eq_some_iff.mp e
        rw [← same]
        exact requests connection there answer given arguments asked

end Sessions

/-- A restart loses nothing and invents nothing. After any sessions in which everything asked was
safe for a restart at time `t`, whatever the clients did and whatever writes to the log failed, a server
that is started at that time is ready, and it shows exactly what the last session showed. -/
theorem sessions_reload {file : Option Bytes} {db : Database} {safe : Int → Prop}
    (sessions : Sessions file db safe) (t : Int) (now : safe t) (config : ServerConfig)
    (attached : config.appendOnly = true) :
    ∃ core, boot (fun _ => t) none none config file = .ready core ∧
      core.processor.database.view t = db.view t ∧
      core.processor.database.memoryLimit = config.maxMemory ∧
      core.processor.database.policy = config.evictionPolicy := by
  obtain ⟨records, contents, commands, reloads⟩ := sessions.reloads
  obtain ⟨core, ready, shows, _, limit, policy, _⟩ :=
    boot_reloads none attached commands contents (reloads t now)
  exact ⟨core, ready, shows, limit, policy⟩

/-- Setting a key without options is always safe. -/
lemma safeAt_set (restart now : Int) (key value : Bytes) (processor : Processor) :
    processor.SafeAt restart now [ascii "SET", key, value] := by
  intro handler ran
  obtain ⟨spec, found, data⟩ := Processor.resolve_of_dispatched ran
  cases resolve_set.symm.trans found
  cases data
  constructor
  · exact fun _ _ _ _ _ wrote => wrote
  · intro _ _ _ _ _ asked
    cases asked
  · intro _ _ options _ _ parsed _ given _
    cases (show Except.ok {} = Except.ok options from parsed)
    cases given

/-- A client sets a key, and the record cannot be written before the server is shut down. -/
def failingSession : List ServerEvent :=
  [.accept, .client 0
    { readable := true, recvs := [.received (respArray [ascii "SET", ascii "k", ascii "v"])] }
    [.failed]]

theorem sessions_reload_failing :
    let core := Core.serve (fun _ => 0) {} 1 {} (some (AppendOnlyFile.open {}))
    let server := Server.run (fun _ => 5) { core := core } failingSession
    let file := server.core.aof.bind fun aof => (aof.close [] true).file
    ∃ core, boot (fun _ => 9) none none {} file = .ready core ∧
      core.processor.database.view 9 = server.core.processor.database.view 9 ∧
      core.processor.database.memoryLimit = 0 ∧
      core.processor.database.policy = .noEviction := by
  intro core server file
  obtain ⟨aof, attached⟩ := Option.isSome_iff_exists.mp (show server.core.aof.isSome = true by
    rw [← Core.status_attached]
    exact run_attached _ core failingSession)
  have fits : ∀ event ∈ failingSession, event.Fits := by
    intro event mem
    rcases List.mem_cons.mp mem with rfl | mem
    · trivial
    · rw [List.mem_singleton.mp mem]
      intro bytes received
      cases List.mem_singleton.mp received
      decide
  have ready : boot (fun _ => 0) none none {} none = .ready core := rfl
  have sessions : Sessions (aof.close [] true).file server.core.processor.database
      fun t => True ∧ 0 ≤ t ∧ SafeSession (fun _ => 5) core failingSession t :=
    .next .first trivial (by decide) ready (fun _ => by decide) fits attached
      fun _ => not_failsAfter nofun
  have asked : ∀ connection ∈ server.connections, ∀ answer ∈ connection.answers,
      answer.arguments = some [ascii "SET", ascii "k", ascii "v"] := by
    have all : (server.connections.flatMap fun connection =>
        connection.answers.map (·.arguments)) = [some [ascii "SET", ascii "k", ascii "v"]] := by
      decide +kernel
    intro connection there answer given
    have mem : answer.arguments ∈ server.connections.flatMap fun connection =>
        connection.answers.map (·.arguments) :=
      List.mem_flatMap.mpr ⟨connection, there, List.mem_map_of_mem given⟩
    rw [all] at mem
    exact List.mem_singleton.mp mem
  have safe : SafeSession (fun _ => 5) core failingSession 9 := by
    constructor
    · intro _ _ _ mem
      rcases List.mem_cons.mp mem with never | mem
      · cases never
      · cases List.mem_singleton.mp mem
    · intro connection there answer given arguments isAsked
      cases (asked connection there answer given).symm.trans isAsked
      exact ⟨by decide, safeAt_set _ _ _ _ _⟩
  have contents : file = (aof.close [] true).file := by
    show server.core.aof.bind _ = _
    rw [attached]
    rfl
  rw [contents]
  exact sessions_reload sessions 9 ⟨trivial, by decide, safe⟩ {} rfl

end FlashKV
