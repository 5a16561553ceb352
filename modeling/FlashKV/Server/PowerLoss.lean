import FlashKV.Persistence.Sync
import FlashKV.Server.Crash

/-!
# Power failures

A power failure can take bytes that are in the file but were not synced. The loop of the server syncs
the log from time to time. If no write and no `fsync` fails, `needsSync` is set whenever some bytes
are not synced, so each of these steps makes everything durable that was in the file: the commands
whose replies had begun to leave before the last one survive.
-/

namespace FlashKV

open Database

/-- The server, with what the last successful `fsync` covers. -/
structure SyncedServer where
  server : Server
  /-- Ghost: the number of bytes that the file had at the last successful `fsync`. -/
  covered : Nat

namespace SyncedServer

/-- The log, if there is one. -/
def log (state : SyncedServer) : Option SyncState :=
  state.server.core.aof.map fun aof => ⟨aof, state.covered⟩

def step (clock : Nat → Int) (state : SyncedServer) (event : ServerEvent) : SyncedServer where
  server := state.server.step clock event
  covered :=
    match event with
    | .sync synced => (state.log.map fun log => (log.apply (.sync synced)).covered).getD state.covered
    | _ => state.covered

/-- At start, what is in the file is taken as synced. -/
def start (processor : Processor) (file : Option Bytes) : SyncedServer where
  server := Server.start processor file
  covered := (file.getD []).length

def run (clock : Nat → Int) (state : SyncedServer) (events : List ServerEvent) : SyncedServer :=
  events.foldl (step clock) state

end SyncedServer

/-- No call of `write` and no `fsync` that the step makes fails. -/
def ServerEvent.Lossless (clock : Nat → Int) (server : Server) : ServerEvent → Prop
  | .client index event writes => ∀ connection core, server.connections[index]? = some connection →
    connection.closed = false →
    flushState (Core.execute clock) event connection.client server.core = some core →
      ¬ core.WriteFails writes
  | .sync synced => ∀ aof, server.core.aof = some aof → aof.needsSync = false ∨ synced = true
  | _ => True

/-- The log is open, and what is not synced is remembered. -/
def Core.Remembers (covered : Nat) (core : Core) : Prop :=
  ∃ aof, core.aof = some aof ∧ (⟨aof, covered⟩ : SyncState).Sound ∧
    (⟨aof, covered⟩ : SyncState).Remembers

section Core

variable {clock : Nat → Int} {covered : Nat} {core : Core} {writes : List WriteOutcome}

lemma Core.Remembers.execute (h : core.Remembers covered) (arguments : List Bytes) :
    (Core.execute clock arguments core).2.Remembers covered := by
  obtain ⟨aof, attached, sound, remembers⟩ := h
  refine ⟨(core.records clock arguments).foldl (fun aof record => aof.append record) aof, ?_, ?_⟩
  · show core.aof.map _ = _
    rw [attached]
    rfl
  · clear attached
    induction core.records clock arguments generalizing aof with
    | nil => exact ⟨sound, remembers⟩
    | cons record records ih =>
      have safe : (⟨aof, covered⟩ : SyncState).Safe (.append record) := trivial
      exact ih (aof.append record) (sound.step (.append record))
        (sound.safe_remembers safe remembers)

lemma Core.Remembers.flush (h : core.Remembers covered) (succeed : ¬ core.WriteFails writes) :
    (core.flush writes).Remembers covered := by
  obtain ⟨aof, attached, sound, remembers⟩ := h
  refine ⟨(aof.flush writes).2, ?_, sound.step (.flush writes), ?_⟩
  · rw [Core.flush, attached]
    rfl
  · have safe : (⟨aof, covered⟩ : SyncState).Safe (.flush writes) :=
      .inr fun written fails => absurd ⟨aof, written, attached, fails⟩ succeed
    exact sound.safe_remembers safe remembers

lemma Core.Remembers.processLoop (h : core.Remembers covered) (pending : Bytes) (client : Client) :
    (processLoop (Core.execute clock) pending client core).2.2.Remembers covered := by
  induction pending, client, core using processLoop_induction (Core.execute clock) with
  | stop pending client core stops =>
    rw [processLoop_stop stops]
    exact h
  | error pending client core live error =>
    rw [processLoop_error live error]
    exact h
  | blank pending client core live complete blank ih =>
    rw [processLoop_blank live complete blank]
    exact ih h
  | command pending client core live complete given ih =>
    rw [processLoop_command live complete given]
    exact ih (h.execute _)

lemma Core.Remembers.handleClientEvents (h : core.Remembers covered)
    (event : ClientEvent) (client : Client)
    (succeed : ∀ flushed, flushState (Core.execute clock) event client core = some flushed →
      ¬ flushed.WriteFails writes) :
    (handleClientEvents (Core.execute clock) (Core.flush writes) event client
      core).state.Remembers covered := by
  obtain ⟨middle, answered, sent⟩ :=
    handleClientEvents_cases (Core.execute clock) (Core.flush writes) event client core
  have reads : middle.Remembers covered := by
    rcases answered with ⟨_, rfl⟩ | ⟨received, _, rfl⟩
    · exact h
    · exact h.processLoop received.input received
  rcases sent with ⟨_, same⟩ | ⟨here, _, _, flushed⟩
  · rw [same]
    exact reads
  · rw [flushed]
    exact reads.flush (succeed middle here)

end Core

section Server

variable {clock : Nat → Int} {server : Server} {state : SyncedServer}

/-- Handling a client changes the log as `handleClientEvents` does, if the client is connected. -/
lemma Server.handleClient_aof (clock : Nat → Int) (index : Nat) (event : ClientEvent)
    (writes : List WriteOutcome) (server : Server) :
    (server.handleClient clock index event writes).core.aof = server.core.aof ∨
    ∃ connection, server.connections[index]? = some connection ∧ connection.closed = false ∧
      (server.handleClient clock index event writes).core.aof =
        (handleClientEvents (Core.execute clock) (Core.flush writes) event connection.client
          server.core).state.aof := by
  by_cases gone : ∀ connection, server.connections[index]? = some connection →
      connection.closed = true
  · left
    rw [Server.handleClient_gone clock gone]
  · right
    obtain ⟨connection, there⟩ := not_forall.mp gone
    obtain ⟨found, live⟩ := Classical.not_imp.mp there
    replace live : connection.closed = false := Bool.not_eq_true _ ▸ live
    have handled := Server.handleClient_spec clock found live event writes
    exact ⟨connection, found, live, handled.2⟩

lemma Server.sync_aof (clock : Nat → Int) {aof : AppendOnlyFile} (attached : server.core.aof = some aof) (synced : Bool) :
    (server.step clock (.sync synced)).core.aof = some (aof.sync synced).2 := by
  show server.core.aof.map _ = _
  rw [attached]
  rfl

/-- What is in the file stays there. -/
lemma Server.Propagates.written (h : server.Propagates clock) (event : ServerEvent) :
    server.core.written <+: (server.step clock event).core.written := by
  cases event with
  | accept => exact List.prefix_rfl
  | cycle choices samplesPerLoop now => exact List.prefix_rfl
  | sync synced =>
    obtain ⟨aof, attached, _⟩ := h.opened
    have kept : (aof.sync synced).2.file = aof.file := by
      unfold AppendOnlyFile.sync
      split <;> rfl
    rw [Core.written, Core.written, Server.sync_aof clock attached, attached]
    show aof.file.getD [] <+: (aof.sync synced).2.file.getD []
    rw [kept]
  | client index event writes =>
    rw [Core.written, Core.written]
    show _ <+: ((server.handleClient clock index event writes).core.aof.bind (·.file)).getD []
    obtain same | ⟨connection, _, _, after⟩ := server.handleClient_aof clock index event writes
    · rw [same]
    · rw [after]
      exact (h.opened.handleClientEvents clock writes event connection.client).2.2.1

namespace SyncedServer

lemma covered_sync (clock : Nat → Int) {aof : AppendOnlyFile}
    (attached : state.server.core.aof = some aof) (synced : Bool) :
    (state.step clock (.sync synced)).covered =
      ((⟨aof, state.covered⟩ : SyncState).apply (.sync synced)).covered := by
  show ((state.log.map _).getD state.covered) = _
  rw [log, attached]
  rfl

/-- A step keeps the log remembered, and what is covered stays covered. -/
lemma step_remembers (h : state.server.core.Remembers state.covered) {event : ServerEvent}
    (lossless : event.Lossless clock state.server) :
    (state.step clock event).server.core.Remembers (state.step clock event).covered ∧
      state.covered ≤ (state.step clock event).covered := by
  cases event with
  | accept => exact ⟨h, le_rfl⟩
  | cycle choices samplesPerLoop now => exact ⟨h, le_rfl⟩
  | client index event writes =>
    refine ⟨?_, le_rfl⟩
    show (state.server.handleClient clock index event writes).core.Remembers state.covered
    unfold Core.Remembers
    obtain same | ⟨connection, found, live, after⟩ :=
      state.server.handleClient_aof clock index event writes
    · rw [same]
      exact h
    · rw [after]
      exact h.handleClientEvents event connection.client fun core here =>
        lossless connection core found live here
  | sync synced =>
    obtain ⟨aof, attached, sound, remembers⟩ := h
    rw [covered_sync clock attached]
    refine ⟨⟨_, Server.sync_aof clock attached synced, sound.step (.sync synced), ?_⟩, ?_⟩
    · have safe : (⟨aof, state.covered⟩ : SyncState).Safe (.sync synced) := lossless aof attached
      exact sound.safe_remembers safe remembers
    · rw [SyncState.apply_sync]
      split
      · exact sound.within
      · exact le_rfl

/-- After a sync everything in the file is covered. -/
lemma sync_covers (h : state.server.core.Remembers state.covered) :
    (state.step clock (.sync true)).covered = state.server.core.written.length := by
  obtain ⟨aof, attached, sound, remembers⟩ := h
  have size : (⟨aof, state.covered⟩ : SyncState).size = state.server.core.written.length := by
    rw [Core.written, attached]
    rfl
  rw [covered_sync clock attached, ← size]
  cases dirty : aof.needsSync with
  | true =>
    rw [SyncState.sync_issued sound.opened dirty]
    rfl
  | false =>
    rw [SyncState.sync_idle dirty]
    have unsynced : ¬ (⟨aof, state.covered⟩ : SyncState).Unsynced := by
      intro unsynced
      cases dirty.symm.trans (remembers unsynced).1
    exact le_antisymm sound.within (not_lt.mp unsynced)

/-- What holds in every state when nothing fails. -/
structure Keeps (clock : Nat → Int) (state : SyncedServer) : Prop where
  propagates : state.server.Propagates clock
  durable : state.server.Durable clock
  remembers : state.server.core.Remembers state.covered

lemma start_keeps (clock : Nat → Int) (processor : Processor) (file : Option Bytes) :
    (start processor file).Keeps clock := by
  refine ⟨⟨⟨_, rfl, rfl⟩, nofun, nofun⟩, nofun, ⟨_, rfl, ?_, ?_⟩⟩
  · exact SyncState.start_sound file
  · exact SyncState.start_remembers file

lemma Keeps.step (h : state.Keeps clock) {event : ServerEvent}
    (lossless : event.Lossless clock state.server) : (state.step clock event).Keeps clock := by
  have reliable : event.Reliable clock state.server := by
    cases event with
    | client index event writes =>
      exact fun connection core found live here => .inl (lossless connection core found live here)
    | accept | cycle | sync => trivial
  obtain ⟨propagates, durable⟩ := h.propagates.step event
  exact ⟨propagates, durable reliable h.durable, (step_remembers h.remembers lossless).1⟩

/-- In a run nothing leaves the file, and what is covered stays so. -/
lemma Keeps.run (h : state.Keeps clock) {events : List ServerEvent}
    (lossless : state.server.Along (ServerEvent.Lossless clock) clock events) :
    (state.run clock events).Keeps clock ∧ state.covered ≤ (state.run clock events).covered ∧
      state.server.core.written <+: (state.run clock events).server.core.written := by
  induction events generalizing state with
  | nil => exact ⟨h, le_rfl, List.prefix_rfl⟩
  | cons event events ih =>
    obtain ⟨first, others⟩ := lossless
    obtain ⟨keeps, covered, written⟩ := ih (h.step first) others
    refine ⟨keeps, (step_remembers h.remembers first).2.trans covered, ?_⟩
    exact (h.propagates.written event).trans written

lemma run_server (clock : Nat → Int) (state : SyncedServer) (events : List ServerEvent) :
    (state.run clock events).server = state.server.run clock events := by
  induction events generalizing state with
  | nil => rfl
  | cons event events ih => exact ih (state.step clock event)

/-- What a power failure leaves, `before` being the server when the last `sync` was called. -/
structure Survives (clock : Nat → Int) (records : List (List Bytes)) (before : Server)
    (state : SyncedServer) : Prop where
  stream : state.server.core.stream = encodeAll records
  /-- If the bytes covered are left, the next load takes the complete records; the records of every
  command whose reply had begun to leave before the `sync` are among them. -/
  loads : ∀ bytes, state.covered ≤ bytes →
    let complete := completeRecords (min bytes state.server.core.written.length) records
    LoadsTo (state.server.core.written.take bytes) complete ∧
    ∀ connection ∈ before.connections, ∀ answer, connection.Acknowledged answer →
      ∀ arguments, answer.arguments = some arguments → ∃ earlier,
        answer.before.stream = encodeAll earlier ∧
        earlier ++ answer.before.records clock arguments <+: complete

/-- What is covered and logged survives. -/
lemma Keeps.survives (h : state.Keeps clock) {records earlier : List (List Bytes)}
    (logs : state.server.Logs clock records) {before : Server} (logs' : before.Logs clock earlier)
    (durable : before.Durable clock) (kept : before.core.written <+: state.server.core.written)
    (covered : before.core.written.length ≤ state.covered) :
    state.Survives clock records before := by
  refine ⟨logs.stream, fun bytes left => ⟨?_, ?_⟩⟩
  · exact logs.loads h.propagates.opened bytes
  · intro connection mem answer acknowledged
    obtain ⟨_, _, split, _⟩ := id acknowledged
    have part : before.core.written <+: encodeAll records := by
      rw [← logs.stream]
      exact kept.trans h.propagates.opened.written_prefix
    exact logs'.recorded mem (by rw [split]; simp) (durable connection mem answer acknowledged) part
      (fun record mem => (logs.commands record mem).2)
      (le_min (covered.trans left) kept.length_le)

end SyncedServer

/-- If no call of `write` or `fsync` that is made fails, what was acknowledged before a `sync` survives every later power
failure, whatever the clients send. -/
theorem power_loss_survives (clock : Nat → Int) (processor : Processor) (logged : List (List Bytes))
    (keys : processor.database.KeysFit)
    (commands : ∀ record ∈ logged, record ≠ [] ∧ WithinLimits record)
    (before after : List ServerEvent)
    (fits : ∀ event ∈ before ++ .sync true :: after, event.Fits)
    (lossless : (Server.start processor (some (encodeAll logged))).Along
      (ServerEvent.Lossless clock) clock (before ++ .sync true :: after)) :
    ∃ records, logged <+: records ∧
      ((SyncedServer.start processor (some (encodeAll logged))).run clock
        (before ++ .sync true :: after)).Survives clock records
        ((Server.start processor (some (encodeAll logged))).run clock before) := by
  let start := SyncedServer.start processor (some (encodeAll logged))
  obtain ⟨earlier, _, logs'⟩ := run_logs clock keys commands before fun event mem =>
    fits event (List.mem_append_left _ mem)
  obtain ⟨records, kept, logs⟩ := run_logs clock keys commands _ fits
  have server : (start.run clock before).server =
      (Server.start processor (some (encodeAll logged))).run clock before :=
    start.run_server clock before
  obtain ⟨first, synced, later⟩ := Server.along_append.mp lossless
  obtain ⟨keeps, _⟩ := (SyncedServer.start_keeps clock processor (some (encodeAll logged))).run first
  rw [← server] at synced later
  -- the sync covers what is in the file, and this stays in the file and covered
  obtain ⟨keeps', covered, written⟩ := (keeps.step synced).run later
  rw [SyncedServer.sync_covers keeps.remembers] at covered
  have grows := (keeps.propagates.written (.sync true)).trans written
  have split : start.run clock (before ++ .sync true :: after) =
      ((start.run clock before).step clock (.sync true)).run clock after := List.foldl_append
  have server' := start.run_server clock (before ++ .sync true :: after)
  have durable := keeps.durable
  rw [← split] at keeps' covered grows
  rw [server] at covered grows durable
  refine ⟨records, kept, keeps'.survives ?_ logs' durable grows covered⟩
  rw [server']
  exact logs

/-- A key is set and the log is synced; then a second key is set, and the power fails. -/
theorem power_loss_survives_set :
    ∃ records, [] <+: records ∧
      ((SyncedServer.start {} (some (encodeAll []))).run (fun _ => 0)
        ([.accept, .client 0
          { readable := true
            recvs := [.received (respArray [ascii "SET", ascii "a", ascii "1"])]
            sends := [.sent 5] } [.wrote 3, .interrupted, .wrote 40]] ++ .sync true ::
        [.client 0
          { readable := true
            recvs := [.received (respArray [ascii "SET", ascii "b", ascii "2"])]
            sends := [.sent 5] } [.wrote 40]])).Survives (fun _ => 0) records
        ((Server.start {} (some (encodeAll []))).run (fun _ => 0) [.accept, .client 0
          { readable := true
            recvs := [.received (respArray [ascii "SET", ascii "a", ascii "1"])]
            sends := [.sent 5] } [.wrote 3, .interrupted, .wrote 40]]) := by
  refine power_loss_survives (fun _ => 0) {} [] nofun nofun _ _ ?_
    ⟨trivial, ?_, fun _ _ => .inr rfl, ?_, trivial⟩
  · simp only [List.cons_append, List.nil_append, List.forall_mem_cons]
    refine ⟨trivial, ?_, trivial, ?_, nofun⟩
    · intro bytes received
      cases List.mem_singleton.mp received
      decide
    · intro bytes received
      cases List.mem_singleton.mp received
      decide
  · rintro _ _ _ _ _ ⟨_, _, _, fails⟩
    exact not_failsAfter (by decide) fails
  · rintro _ _ _ _ _ ⟨_, _, _, fails⟩
    exact not_failsAfter (by decide) fails

end Server

end FlashKV
