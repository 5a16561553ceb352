import FlashKV.Server.EventLoop
import FlashKV.Server.Progress

/-!
# The counters of the server

`INFO` reports how many clients are connected, how many connections there have been and how many
commands have been processed. In every state of the event loop these are the numbers of connections
that are open, that have been accepted, and of the answers to commands that all clients have been
given.
-/

namespace FlashKV

open Database

/-- A command that has a name is counted, and the other counters stay. -/
lemma Processor.execute_stats (aof : AofStatus) (now : Int) {arguments : List Bytes}
    (given : arguments ≠ []) (processor : Processor) :
    (processor.execute aof now arguments).2.2.stats =
      { processor.stats with totalCommands := processor.stats.totalCommands + 1 } := by
  unfold execute
  rw [if_neg given]
  cases resolve arguments <;> rfl

/-- The answers to commands that all clients have been given. -/
def Server.commandCount (server : Server) : Nat :=
  (server.connections.map fun connection => (commandAnswers connection.answers).length).sum

/-- The counters say what has happened since they were `initial`. -/
structure Server.Counts (initial : ServerStats) (server : Server) : Prop where
  total : server.core.processor.stats.totalConnections =
    initial.totalConnections + server.connections.length
  connected : server.core.processor.stats.connectedClients =
    if server.connections = [] then initial.connectedClients else server.clientCount
  commands : server.core.processor.stats.totalCommands = initial.totalCommands + server.commandCount
  constant : server.core.processor.stats.startTimeMs = initial.startTimeMs ∧
    server.core.processor.stats.port = initial.port

/-- The counters after some commands. -/
def ServerStats.after (commands : Nat) (stats : ServerStats) : ServerStats :=
  { stats with totalCommands := stats.totalCommands + commands }

section Step

variable {clock : Nat → Int} {core : Core}

lemma commandAnswers_append {σ : Type} (first second : List (Answer σ)) :
    commandAnswers (first ++ second) = commandAnswers first ++ commandAnswers second :=
  List.filter_append _ _

/-- The loop of `processInput` counts the commands that it answers. -/
lemma processLoop_stats (pending : Bytes) (client : Client) (core : Core) :
    let result := processLoop (Core.execute clock) pending client core
    result.2.2.processor.stats =
      core.processor.stats.after (commandAnswers result.1).length := by
  induction pending, client, core using processLoop_induction (Core.execute clock) with
  | stop pending client core stops =>
    rw [processLoop_stop stops]
    rfl
  | error pending client core live error =>
    rw [processLoop_error live error]
    rfl
  | blank pending client core live complete blank ih =>
    rw [processLoop_blank live complete blank]
    exact ih
  | command pending client core live complete given ih =>
    rw [processLoop_command live complete given]
    have counted : (Core.execute clock (parseRespCommand pending).arguments core).2.processor.stats =
        core.processor.stats.after 1 :=
      core.processor.execute_stats core.status (clock core.readings) given
    refine ih.trans ?_
    rw [counted]
    simp only [ServerStats.after, commandAnswers, List.filter_cons_of_pos, Option.isSome_some,
      List.length_cons, ServerStats.mk.injEq, true_and]
    omega

lemma handleClientEvents_stats (clock : Nat → Int) (writes : List WriteOutcome)
    (event : ClientEvent) (client : Client) (core : Core) :
    let result := handleClientEvents (Core.execute clock) (Core.flush writes) event client core
    result.state.processor.stats =
      core.processor.stats.after (commandAnswers result.answers).length := by
  intro result
  obtain ⟨middle, answered, sent⟩ :=
    handleClientEvents_cases (Core.execute clock) (Core.flush writes) event client core
  have same : result.state.processor = middle.processor := by
    rcases sent with ⟨_, same⟩ | ⟨_, _, _, flushed⟩
    · exact congrArg (·.processor) same
    · exact congrArg (·.processor) flushed
  rw [same]
  rcases answered with ⟨silent, rfl⟩ | ⟨received, answers, rfl⟩
  · rw [silent]
    rfl
  · rw [answers]
    exact processLoop_stats received.input received core

end Step

section Server

variable {clock : Nat → Int} {server : Server} {initial : ServerStats}

/-- The connections before and after one of them. -/
lemma Server.connections_set {index : Nat} {connection : Connection Core}
    (found : server.connections[index]? = some connection) :
    ∃ before after, server.connections = before ++ connection :: after ∧
      ∀ next, server.connections.set index next = before ++ next :: after := by
  obtain ⟨inside, rfl⟩ := List.getElem?_eq_some_iff.mp found
  refine ⟨server.connections.take index, server.connections.drop (index + 1), ?_, fun next => ?_⟩
  · rw [List.getElem_cons_drop, List.take_append_drop]
  · rw [List.set_eq_take_append_cons_drop, if_pos inside]

/-- One connection has been given more answers. -/
lemma Server.commandCount_set {index : Nat} {connection next : Connection Core}
    {answers : List (Answer Core)} (core : Core)
    (found : server.connections[index]? = some connection)
    (more : next.answers = connection.answers ++ answers) :
    Server.commandCount ⟨core, server.connections.set index next⟩ =
      server.commandCount + (commandAnswers answers).length := by
  obtain ⟨before, after, split, set⟩ := Server.connections_set found
  unfold commandCount
  dsimp only
  rw [set, split]
  simp only [List.map_append, List.map_cons, List.sum_append, List.sum_cons, more,
    commandAnswers_append, List.length_append]
  omega

/-- A connection that stays open. -/
lemma Server.clientCount_set {index : Nat} {connection next : Connection Core} (core : Core)
    (found : server.connections[index]? = some connection)
    (same : next.closed = connection.closed) :
    Server.clientCount ⟨core, server.connections.set index next⟩ = server.clientCount := by
  obtain ⟨before, after, split, set⟩ := Server.connections_set found
  unfold clientCount
  dsimp only
  rw [set, split]
  simp only [List.countP_append, List.countP_cons, same]

/-- One step of the event loop. -/
lemma Server.Counts.step (h : server.Counts initial) (event : ServerEvent) :
    (server.step clock event).Counts initial := by
  cases event with
  | accept =>
    obtain ⟨total, _, commands, constant⟩ := h
    refine ⟨?_, ?_, ?_, constant⟩
    · show server.core.processor.stats.totalConnections + 1 =
        initial.totalConnections + (server.connections.concat {}).length
      rw [total, List.concat_eq_append, List.length_append, List.length_singleton, Nat.add_assoc]
    · have some_ : server.connections.concat {} ≠ [] := by simp
      exact (if_neg some_).symm
    · refine commands.trans (congrArg (initial.totalCommands + ·) ?_)
      show _ = ((server.connections.concat {}).map _).sum
      rw [List.concat_eq_append, List.map_append, List.sum_append]
      rfl
  | cycle choices samplesPerLoop now => exact ⟨h.total, h.connected, h.commands, h.constant⟩
  | sync synced => exact ⟨h.total, h.connected, h.commands, h.constant⟩
  | client index event writes =>
    show (server.handleClient clock index event writes).Counts initial
    unfold Server.handleClient
    split
    · exact h
    · rename_i connection found
      split
      · exact h
      · rename_i live
        obtain ⟨total, connected, commands, constant⟩ := h
        have stats := handleClientEvents_stats clock writes event connection.client
          server.core
        have answers : (connection.step (Core.execute clock) (Core.flush writes)
            (.handle event server.core)).answers = connection.answers ++
            (handleClientEvents (Core.execute clock) (Core.flush writes) event connection.client
              server.core).answers := by
          rw [Connection.step, if_neg live]
        have inhabited : server.connections.set index (connection.step (Core.execute clock)
            (Core.flush writes) (.handle event server.core)) ≠ [] := by
          have inside := (List.getElem?_eq_some_iff.mp found).choose
          exact List.ne_nil_of_length_pos (by rw [List.length_set]; omega)
        have already : server.connections ≠ [] := by
          rintro none
          rw [none] at found
          cases found
        dsimp only at stats ⊢
        cases gone : (connection.step (Core.execute clock) (Core.flush writes)
            (.handle event server.core)).closed with
        | true =>
          rw [if_pos rfl, stats]
          refine ⟨?_, (if_neg inhabited).symm, ?_, constant⟩
          · dsimp only [ServerStats.after]
            rw [List.length_set]
            exact total
          · rw [Server.commandCount_set _ found answers, ← Nat.add_assoc, ← commands]
            rfl
        | false =>
          rw [if_neg (by decide), stats]
          refine ⟨?_, ?_, ?_, constant⟩
          · dsimp only [ServerStats.after]
            rw [List.length_set]
            exact total
          · have open_ : connection.closed = false := Bool.eq_false_of_not_eq_true live
            rw [if_neg inhabited, Server.clientCount_set _ found (gone.trans open_.symm)]
            rw [if_neg already] at connected
            exact connected
          · rw [Server.commandCount_set _ found answers, ← Nat.add_assoc, ← commands]
            rfl

/-- In every state of the event loop the counters are exact. -/
theorem run_counts (clock : Nat → Int) (core : Core) (events : List ServerEvent) :
    (Server.run clock { core := core } events).Counts core.processor.stats := by
  refine List.foldlRecOn (motive := fun server : Server => server.Counts core.processor.stats)
    events _ ?_ ?_
  · exact ⟨rfl, rfl, rfl, rfl, rfl⟩
  · exact fun server counts event _ => counts.step event

end Server

end FlashKV
