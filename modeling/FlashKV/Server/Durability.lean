import FlashKV.Server.EventLoop

/-!
# Replies leave after their writes

Replies are to leave only once the records of their commands are in the file. The flush before a
send moves everything propagated so far, by any client, into the file; but `handleClientEvents` does
not look at its result, so that a reply also leaves when a write has failed.
-/

namespace FlashKV

open Database

/-- The records of the command are in `bytes`, at the place where they were propagated. -/
def Answer.Logged (clock : Nat → Int) (bytes : Bytes) (answer : Answer Core) : Prop :=
  ∀ arguments, answer.arguments = some arguments →
    answer.before.stream ++ encodeAll (answer.before.records clock arguments) <+: bytes

/-- At least one byte of the answer has been sent. -/
def Connection.Acknowledged (connection : Connection Core) (answer : Answer Core) : Prop :=
  ∃ earlier later, connection.answers = earlier ++ answer :: later ∧
    (payloads earlier).length < connection.sent.length

/-- The records of every command whose reply has begun to leave are in the file. -/
def Server.Durable (clock : Nat → Int) (server : Server) : Prop :=
  ∀ connection ∈ server.connections, ∀ answer, connection.Acknowledged answer →
    answer.Logged clock server.core.written

/-- A call of `write` that a flush makes in this state fails. -/
def Core.WriteFails (core : Core) (writes : List WriteOutcome) : Prop :=
  ∃ aof written, core.aof = some aof ∧ FailsAfter writes aof.buffer.length written

/-- No call of `write` that the flush makes fails, or no call of `send` accepts a byte. -/
def ServerEvent.Reliable (clock : Nat → Int) (server : Server) : ServerEvent → Prop
  | .client index event writes => ∀ connection core, server.connections[index]? = some connection →
    connection.closed = false →
    flushState (Core.execute clock) event connection.client server.core = some core →
      ¬ core.WriteFails writes ∨ acceptsByte event.sends = false
  | _ => True

/-- In a run from this state, each step is so in the state in which it is taken. -/
def Server.Along (P : Server → ServerEvent → Prop) (clock : Nat → Int) (server : Server) :
    List ServerEvent → Prop
  | [] => True
  | event :: events => P server event ∧ (server.step clock event).Along P clock events

lemma Server.along_append {P : Server → ServerEvent → Prop} {clock : Nat → Int} {server : Server}
    {events more : List ServerEvent} :
    server.Along P clock (events ++ more) ↔
      server.Along P clock events ∧ (server.run clock events).Along P clock more := by
  induction events generalizing server with
  | nil => exact (iff_of_eq (true_and _)).symm
  | cons event events ih =>
    show _ ∧ (server.step clock event).Along P clock (events ++ more) ↔ _
    rw [ih, ← and_assoc]
    rfl

lemma Answer.Logged.mono {clock : Nat → Int} {answer : Answer Core} {bytes more : Bytes}
    (h : answer.Logged clock bytes) (grows : bytes <+: more) : answer.Logged clock more :=
  fun arguments given => (h arguments given).trans grows

/-- The log is attached and open. -/
def Core.Opened (core : Core) : Prop :=
  ∃ aof, core.aof = some aof ∧ aof.opened = true

section Core

variable {core : Core} (clock : Nat → Int)

lemma foldl_append_stream (records : List (List Bytes)) (aof : AppendOnlyFile) :
    let aof' := records.foldl (fun aof record => aof.append record) aof
    aof'.stream = aof.stream ++ encodeAll records ∧ aof'.opened = aof.opened ∧
      aof'.file = aof.file := by
  induction records generalizing aof with
  | nil => exact ⟨(List.append_nil _).symm, rfl, rfl⟩
  | cons record records ih =>
    obtain ⟨stream, opened, file⟩ := ih (aof.append record)
    refine ⟨?_, opened, file⟩
    rw [List.foldl_cons, stream, AppendOnlyFile.stream_append, List.append_assoc]
    rfl

/-- A command appends its records to the stream and leaves the file alone. -/
lemma Core.Opened.execute (h : core.Opened) (arguments : List Bytes) :
    let core' := (Core.execute clock arguments core).2
    core'.Opened ∧ core'.stream = core.stream ++ encodeAll (core.records clock arguments) ∧
      core'.written = core.written := by
  obtain ⟨aof, attached, opened⟩ := h
  obtain ⟨stream, opened', file⟩ := foldl_append_stream (core.records clock arguments) aof
  have after : (Core.execute clock arguments core).2.aof =
      some ((core.records clock arguments).foldl (fun aof record => aof.append record) aof) := by
    show core.aof.map _ = _
    rw [attached]
    rfl
  refine ⟨⟨_, after, opened'.trans opened⟩, ?_, ?_⟩
  · rw [Core.stream, Core.stream, after, attached]
    exact stream
  · rw [Core.written, Core.written, after, attached]
    exact congrArg (Option.getD · []) file

/-- A flush keeps the stream and adds to the file. -/
lemma Core.Opened.flush (h : core.Opened) (writes : List WriteOutcome) :
    (core.flush writes).Opened ∧ (core.flush writes).stream = core.stream ∧
      core.written <+: (core.flush writes).written ∧
      (¬ core.WriteFails writes → (core.flush writes).written = core.stream) := by
  obtain ⟨aof, attached, opened⟩ := h
  have after : (core.flush writes).aof = some (aof.flush writes).2 := by
    rw [Core.flush, attached]
    rfl
  have stream : (core.flush writes).stream = core.stream := by
    rw [Core.stream, Core.stream, after, attached]
    exact aof.stream_flush writes
  refine ⟨⟨_, after, (aof.flush_opened writes).trans opened⟩, stream, ?_, fun succeed => ?_⟩
  · rw [Core.written, Core.written, after, attached]
    exact aof.flush_file writes
  · have empty := AppendOnlyFile.flush_empties writes opened fun written fails =>
      succeed ⟨aof, written, attached, fails⟩
    rw [← stream, Core.written, Core.stream, after]
    exact ((congrArg _ empty).trans (List.append_nil _)).symm

/-- What the loop of `processInput` propagates. -/
lemma Core.Opened.processLoop (h : core.Opened) (pending : Bytes) (client : Client) :
    let result := processLoop (Core.execute clock) pending client core
    result.2.2.Opened ∧ core.stream <+: result.2.2.stream ∧ result.2.2.written = core.written ∧
      ∀ answer ∈ result.1, answer.Logged clock result.2.2.stream := by
  induction pending, client, core using processLoop_induction (Core.execute clock) with
  | stop pending client core stops =>
    rw [processLoop_stop stops]
    exact ⟨h, List.prefix_rfl, rfl, fun _ mem => absurd mem List.not_mem_nil⟩
  | error pending client core live error =>
    rw [processLoop_error live error]
    refine ⟨h, List.prefix_rfl, rfl, fun answer mem arguments given => ?_⟩
    rw [List.mem_singleton.mp mem] at given
    cases given
  | blank pending client core live complete blank ih =>
    rw [processLoop_blank live complete blank]
    exact ih h
  | command pending client core live complete given ih =>
    rw [processLoop_command live complete given]
    obtain ⟨opened, stream, written⟩ := h.execute clock (parseRespCommand pending).arguments
    obtain ⟨opened', grows, written', logged⟩ := ih opened
    rw [stream] at grows
    refine ⟨opened', (List.prefix_append _ _).trans grows, written'.trans written, ?_⟩
    intro answer mem
    rcases List.mem_cons.mp mem with rfl | mem
    · intro arguments same
      cases same
      exact grows
    · exact logged answer mem

/-- What `handleClientEvents` propagates. If it sends something and no call of `write` has failed, all
that has been propagated is in the file. -/
lemma Core.Opened.handleClientEvents (h : core.Opened) (writes : List WriteOutcome)
    (event : ClientEvent) (client : Client) :
    let result := handleClientEvents (Core.execute clock) (Core.flush writes) event client core
    result.state.Opened ∧ core.stream <+: result.state.stream ∧
      core.written <+: result.state.written ∧
      (∀ answer ∈ result.answers, answer.Logged clock result.state.stream) ∧
      ((∀ flushed, flushState (Core.execute clock) event client core = some flushed →
          ¬ flushed.WriteFails writes ∨ acceptsByte event.sends = false) →
        result.sent = [] ∨ result.state.written = result.state.stream) := by
  intro result
  obtain ⟨middle, answered, sent⟩ :=
    handleClientEvents_cases (Core.execute clock) (Core.flush writes) event client core
  -- the part that reads only propagates
  have reads : middle.Opened ∧ core.stream <+: middle.stream ∧ middle.written = core.written ∧
      ∀ answer ∈ result.answers, answer.Logged clock middle.stream := by
    rcases answered with ⟨silent, rfl⟩ | ⟨received, answers, rfl⟩
    · refine ⟨h, List.prefix_rfl, rfl, ?_⟩
      rw [silent]
      exact fun _ mem => absurd mem List.not_mem_nil
    · rw [answers]
      exact h.processLoop clock received.input received
  obtain ⟨opened, grows, written, logged⟩ := reads
  rcases sent with ⟨silent, same⟩ | ⟨here, client', sent, flushed⟩
  · rw [same]
    exact ⟨opened, grows, written ▸ List.prefix_rfl, logged, fun _ => .inl silent⟩
  · obtain ⟨opened', stream, more, all⟩ := opened.flush writes
    rw [flushed, stream, sent]
    refine ⟨opened', grows, written ▸ more, logged, fun reliable => ?_⟩
    rcases reliable middle here with succeed | refused
    · exact .inr (all succeed)
    · exact .inl (writeToClient_silent refused client')

end Core

/-- What holds in every state: the log is open, the output of each connection is in order, and the
records of all commands so far have been propagated. -/
structure Server.Propagates (clock : Nat → Int) (server : Server) : Prop where
  opened : server.core.Opened
  ordered : ∀ connection ∈ server.connections, connection.InOrder (Core.execute clock)
  logged : ∀ connection ∈ server.connections, ∀ answer ∈ connection.answers,
    answer.Logged clock server.core.stream

section Server

variable {server : Server} {clock : Nat → Int}

/-- Answers of which nothing has been sent are not acknowledged. -/
lemma Connection.InOrder.acknowledged {connection : Connection Core} {answers : List (Answer Core)}
    {answer : Answer Core} (h : connection.InOrder (Core.execute clock)) {client : Client}
    {closed : Bool}
    (ack : Connection.Acknowledged ⟨client, connection.answers ++ answers, connection.sent, closed⟩
      answer) :
    connection.Acknowledged answer := by
  obtain ⟨earlier, later, split, short⟩ := ack
  rcases List.append_eq_append_iff.mp split with ⟨middle, longer, _⟩ | ⟨middle, old, rest⟩
  · -- all earlier answers would have been sent
    have total : connection.sent.length ≤ (payloads connection.answers).length := by
      rw [← h.stream, List.length_append]
      exact Nat.le_add_right _ _
    rw [longer, payloads_append, List.length_append] at short
    dsimp only at short
    omega
  · cases middle with
    | nil =>
      have total : connection.sent.length ≤ (payloads connection.answers).length := by
        rw [← h.stream, List.length_append]
        exact Nat.le_add_right _ _
      rw [old, List.append_nil] at total
      exact absurd short (by dsimp only; omega)
    | cons head middle =>
      cases (List.cons.inj rest).1
      exact ⟨earlier, middle, old, short⟩

/-- The shared state may grow. -/
lemma Server.Propagates.grow (h : server.Propagates clock) {core : Core} (opened : core.Opened)
    (grows : server.core.stream <+: core.stream) :
    Server.Propagates clock { server with core := core } :=
  ⟨opened, h.ordered,
    fun connection mem answer given => (h.logged connection mem answer given).mono grows⟩

lemma Server.Durable.grow (h : server.Durable clock) {core : Core}
    (grows : server.core.written <+: core.written) :
    Server.Durable clock { server with core := core } :=
  fun connection mem answer ack => (h connection mem answer ack).mono grows

/-- What handling the events of a connected client changes. -/
lemma Server.handleClient_spec (clock : Nat → Int) {index : Nat} {connection : Connection Core}
    (found : server.connections[index]? = some connection) (live : connection.closed = false)
    (event : ClientEvent) (writes : List WriteOutcome) :
    let result := handleClientEvents (Core.execute clock) (Core.flush writes) event connection.client
      server.core
    (server.handleClient clock index event writes).connections = server.connections.set index
      ⟨result.client, connection.answers ++ result.answers, connection.sent ++ result.sent,
        !result.keep⟩ ∧
    (server.handleClient clock index event writes).core.aof = result.state.aof := by
  unfold Server.handleClient
  rw [found]
  simp [live, Connection.step]

/-- Handling the events of one client. -/
lemma Server.Propagates.handleClient (h : server.Propagates clock) (index : Nat) (event : ClientEvent)
    (writes : List WriteOutcome) :
    let next := server.handleClient clock index event writes
    next.Propagates clock ∧ ((ServerEvent.client index event writes).Reliable clock server →
      server.Durable clock → next.Durable clock) := by
  unfold Server.handleClient
  split
  · exact ⟨h, fun _ durable => durable⟩
  · rename_i connection found
    split
    · exact ⟨h, fun _ durable => durable⟩
    · rename_i live
      have known := List.mem_of_getElem? found
      have ordered := h.ordered connection known
      obtain ⟨opened, grows, more, logged, reliable⟩ :=
        h.opened.handleClientEvents clock writes event connection.client
      have stepped : connection.step (Core.execute clock) (Core.flush writes)
          (.handle event server.core) =
          let result := handleClientEvents (Core.execute clock) (Core.flush writes) event
            connection.client server.core
          ⟨result.client, connection.answers ++ result.answers, connection.sent ++ result.sent,
            !result.keep⟩ := by
        rw [Connection.step, if_neg live]
      have all : ∀ answer ∈ (connection.step (Core.execute clock) (Core.flush writes)
          (.handle event server.core)).answers, answer.Logged clock
          (handleClientEvents (Core.execute clock) (Core.flush writes) event connection.client
            server.core).state.stream := by
        rw [stepped]
        refine List.forall_mem_append.mpr ⟨fun answer mem => ?_, logged⟩
        exact (h.logged connection known answer mem).mono grows
      refine ⟨⟨opened, ?_, ?_⟩, ?_⟩
      · intro other mem
        rcases List.mem_or_eq_of_mem_set mem with mem | rfl
        · exact h.ordered other mem
        · exact (ordered.step (Core.flush writes) _).1
      · intro other mem answer given
        rcases List.mem_or_eq_of_mem_set mem with mem | rfl
        · exact (h.logged other mem answer given).mono grows
        · exact all answer given
      · intro fine durable other mem answer ack
        rcases List.mem_or_eq_of_mem_set mem with mem | rfl
        · exact (durable other mem answer ack).mono more
        · have notClosed : connection.closed = false := Bool.not_eq_true _ ▸ live
          rcases reliable fun flushed here => fine connection flushed found notClosed here with
            silent | flushed
          · -- nothing was sent, so the answer had been acknowledged before
            rw [stepped] at ack
            dsimp only at ack
            rw [silent, List.append_nil] at ack
            exact (durable connection known answer (ordered.acknowledged ack)).mono more
          · obtain ⟨earlier, later, split, _⟩ := ack
            have logged := all answer (by rw [split]; simp)
            rw [← flushed] at logged
            exact logged

/-- One step of the event loop. -/
lemma Server.Propagates.step (h : server.Propagates clock) (event : ServerEvent) :
    (server.step clock event).Propagates clock ∧
      (event.Reliable clock server → server.Durable clock →
        (server.step clock event).Durable clock) := by
  cases event with
  | accept =>
    have fresh : ∀ connection ∈ server.connections.concat {},
        connection ∈ server.connections ∨ connection = {} := by
      intro connection mem
      rw [List.concat_eq_append] at mem
      exact (List.mem_append.mp mem).imp_right List.mem_singleton.mp
    refine ⟨⟨h.opened, ?_, ?_⟩, ?_⟩
    · intro connection mem
      rcases fresh connection mem with mem | rfl
      · exact h.ordered connection mem
      · exact ⟨le_rfl, rfl, fun _ mem => absurd mem List.not_mem_nil⟩
    · intro connection mem answer given
      rcases fresh connection mem with mem | rfl
      · exact h.logged connection mem answer given
      · exact absurd given List.not_mem_nil
    · intro _ durable connection mem answer ack
      rcases fresh connection mem with mem | rfl
      · exact durable connection mem answer ack
      · obtain ⟨_, _, _, short⟩ := ack
        exact absurd short (Nat.not_lt_zero _)
  | client index event writes => exact h.handleClient index event writes
  | cycle choices samplesPerLoop now =>
    exact ⟨h.grow h.opened List.prefix_rfl, fun _ durable => durable.grow List.prefix_rfl⟩
  | sync synced =>
    obtain ⟨aof, attached, opened⟩ := h.opened
    have kept : (aof.sync synced).2.opened = aof.opened ∧ (aof.sync synced).2.file = aof.file := by
      unfold AppendOnlyFile.sync
      split <;> exact ⟨rfl, rfl⟩
    have after : (server.step clock (.sync synced)).core.aof = some (aof.sync synced).2 := by
      show server.core.aof.map _ = _
      rw [attached]
      rfl
    refine ⟨h.grow ⟨_, after, kept.1.trans opened⟩ ?_, fun _ durable => durable.grow ?_⟩
    · rw [Core.stream, Core.stream, attached]
      show aof.stream <+: (aof.sync synced).2.stream
      rw [aof.stream_sync synced]
    · rw [Core.written, Core.written, attached]
      show aof.file.getD [] <+: (aof.sync synced).2.file.getD []
      rw [kept.2]

/-- In every state of a run the log is open, and if the steps are reliable, what has been acknowledged
is in the file. -/
lemma Server.Propagates.run (h : server.Propagates clock) (events : List ServerEvent) :
    (server.run clock events).Propagates clock ∧
      (server.Along (ServerEvent.Reliable clock) clock events → server.Durable clock →
        (server.run clock events).Durable clock) := by
  induction events generalizing server with
  | nil => exact ⟨h, fun _ durable => durable⟩
  | cons event events ih =>
    obtain ⟨propagates, durable⟩ := h.step event
    obtain ⟨propagates', durable'⟩ := ih propagates
    exact ⟨propagates', fun ⟨reliable, others⟩ before => durable' others (durable reliable before)⟩

lemma start_propagates (clock : Nat → Int) (processor : Processor) (file : Option Bytes) :
    (Server.start processor file).Propagates clock ∧ (Server.start processor file).Durable clock :=
  ⟨⟨⟨_, rfl, rfl⟩, nofun, nofun⟩, nofun⟩

/-- In every run of the event loop in which no call of `write` that a flush makes fails before something
is sent, the records of every command whose reply has begun to leave are in the file. -/
theorem run_durable (clock : Nat → Int) (processor : Processor) (file : Option Bytes)
    (events : List ServerEvent)
    (reliable : (Server.start processor file).Along (ServerEvent.Reliable clock) clock events) :
    ((Server.start processor file).run clock events).Durable clock := by
  obtain ⟨propagates, durable⟩ := start_propagates clock processor file
  exact (propagates.run events).2 reliable durable

end Server

/-- The run in which one client sets a key, with the given outcomes of the writes. -/
def setRun (writes : List WriteOutcome) : Server :=
  (Server.start {} none).run (fun _ => 0) [.accept, .client 0
    { readable := true
      recvs := [.received (respArray [ascii "SET", ascii "a", ascii "1"])]
      sends := [.sent 5] } writes]

/-- Outcomes without a failure make a step reliable. -/
lemma reliable_of_succeed {clock : Nat → Int} {server : Server} {index : Nat} {event : ClientEvent}
    {writes : List WriteOutcome}
    (succeed : ∀ outcome ∈ writes, outcome ≠ .failed ∧ outcome ≠ .wrote 0) :
    (ServerEvent.client index event writes).Reliable clock server :=
  fun _ _ _ _ _ => .inl fun ⟨_, _, _, fails⟩ => not_failsAfter succeed fails

theorem run_durable_retried :
    (setRun [.wrote 3, .interrupted, .wrote 40]).Durable fun _ => 0 :=
  run_durable _ _ _ _ ⟨trivial, reliable_of_succeed (by decide), trivial⟩

/-- One request, sent as a whole. -/
lemma processInput_respArray {σ : Type} (execute : Execute σ) (arguments : List Bytes) (state : σ)
    (given : arguments ≠ []) (within : WithinLimits arguments) :
    processInput execute { input := respArray arguments } state =
      let answered := execute arguments state
      ([⟨some arguments, answered.1.payload, state, answered.2⟩],
        { output := answered.1.payload, closeAfterWrite := answered.1.closeConnection },
        answered.2) := by
  have parsed := parseRespCommand_respArray within []
  rw [List.append_nil] at parsed
  have live : ¬ (({ input := respArray arguments } : Client).closeAfterWrite = true ∨
      respArray arguments = []) := by
    rw [respArray_eq]
    simp
  rw [processInput, processLoop_command live (by rw [parsed]; rfl) (by rw [parsed]; exact given),
    parsed]
  dsimp only [completeResult]
  rw [List.drop_length, processLoop_stop (.inr (.inl rfl))]
  rfl

/-- The write fails and the reply is sent all the same. -/
theorem failed_write_acknowledged : ¬ (setRun [.failed]).Durable fun _ => 0 := by
  let core := (Server.start {} none).acceptClient.core
  let arguments := [ascii "SET", ascii "a", ascii "1"]
  let answered := Core.execute (fun _ => 0) arguments core
  have input := processInput_respArray (Core.execute fun _ => 0) arguments core (by decide)
    (by decide)
  have replied : answered.1 = ⟨[43, 79, 75, 13, 10], false⟩ := by decide +kernel
  have buffered : answered.2.aof =
      some { file := some [], buffer := respArray arguments, opened := true } := by
    decide +kernel
  have received : recvLoop maxReadsPerEvent [.received (respArray arguments)] {} =
      (.done, { input := respArray arguments }) := by
    decide +kernel
  have read : readFromClient (Core.execute fun _ => 0) [.received (respArray arguments)] {} core =
      (true, [⟨some arguments, answered.1.payload, core, answered.2⟩],
        { output := answered.1.payload, closeAfterWrite := answered.1.closeConnection },
        answered.2) := by
    rw [readFromClient, received]
    dsimp only
    rw [if_neg (by decide +kernel), input]
  have handled : handleClientEvents (Core.execute fun _ => 0) (Core.flush [.failed])
      { readable := true, recvs := [.received (respArray arguments)], sends := [.sent 5] } {} core =
      ⟨true, [⟨some arguments, answered.1.payload, core, answered.2⟩], [43, 79, 75, 13, 10], {},
        answered.2.flush [.failed]⟩ := by
    have sent : writeToClient [.sent 5] { output := [43, 79, 75, 13, 10] } =
        (true, [43, 79, 75, 13, 10], {}) := by
      decide
    have pending : ({ output := [43, 79, 75, 13, 10] } : Client).pendingOutput = 5 := by decide
    simp [handleClientEvents, read, replied, pending, sent]
  have unfolded : setRun [.failed] = (Server.start {} none).acceptClient.handleClient (fun _ => 0) 0
      { readable := true, recvs := [.received (respArray arguments)], sends := [.sent 5] }
      [.failed] := rfl
  have found : (Server.start {} none).acceptClient.connections[0]? =
      some ({} : Connection Core) := rfl
  obtain ⟨connections, aof⟩ := Server.handleClient_spec (fun _ => 0) found rfl
    { readable := true, recvs := [.received (respArray arguments)], sends := [.sent 5] } [.failed]
  rw [← unfolded, handled] at connections aof
  have written : (setRun [.failed]).core.written = [] := by
    rw [Core.written, aof, Core.flush]
    dsimp only
    rw [buffered]
    decide +kernel
  intro durable
  have logged := durable ⟨{}, [⟨some arguments, answered.1.payload, core, answered.2⟩],
    [43, 79, 75, 13, 10], false⟩ (by rw [connections]; exact List.mem_cons_self) _
    ⟨[], [], rfl, by decide⟩ arguments rfl
  rw [written] at logged
  exact absurd logged (by decide +kernel)

end FlashKV
