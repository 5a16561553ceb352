import FlashKV.Benchmark.Client
import FlashKV.Command.ReplyShape
import FlashKV.Server.Durability

/-!
# The load generator and the server

In every run of the threads and the server, in any order, each thread counts exactly the replies to
its own commands: it never comes upon bytes it does not understand, and when it has counted the
replies to a batch nothing is left in its input. When all threads have ended, they have sent as many
commands as were asked for and counted as many replies.
-/

namespace FlashKV

/-! ### Connections of the server -/

section Connections

/-- What a step of the event loop does to a connection. -/
lemma Server.step_connection (clock : Nat → Int) (server : Server) (event : ServerEvent)
    (client : Nat) :
    let before := server.connections[client]?.getD {}
    let after := (server.step clock event).connections[client]?.getD {}
    after = before ∨ ∃ flush op, after = before.step (Core.execute clock) flush op := by
  cases event with
  | accept =>
    left
    show (server.connections.concat {})[client]?.getD {} = _
    rw [List.concat_eq_append]
    rcases lt_trichotomy client server.connections.length with before | rfl | after
    · rw [List.getElem?_append_left before]
    · rw [List.getElem?_concat_length, List.getElem?_eq_none le_rfl]
      rfl
    · rw [List.getElem?_eq_none (by simpa using after), List.getElem?_eq_none after.le]
  | cycle | sync => exact .inl rfl
  | client index event writes =>
    show let after := (server.handleClient clock index event writes).connections[client]?.getD {}
      after = _ ∨ ∃ flush op, after = _
    unfold Server.handleClient
    split
    · exact .inl rfl
    · rename_i connection found
      split
      · exact .inl rfl
      · have inside : index < server.connections.length :=
          (List.getElem?_eq_some_iff.mp found).choose
        by_cases here : index = client
        · subst here
          refine .inr ⟨Core.flush writes, .handle event server.core, ?_⟩
          dsimp only
          rw [List.getElem?_set_self inside, found]
          rfl
        · left
          dsimp only
          rw [List.getElem?_set_ne here]

variable {execute : Execute Core} {flush : Core → Core} {connection : Connection Core}

/-- What has been answered and sent stays. -/
lemma Connection.step_grows (op : ClientOp Core) :
    connection.answers <+: (connection.step execute flush op).answers ∧
    connection.sent <+: (connection.step execute flush op).sent := by
  unfold Connection.step
  split
  · exact ⟨List.prefix_rfl, List.prefix_rfl⟩
  · cases op with
    | receive bytes => exact ⟨List.prefix_rfl, List.prefix_rfl⟩
    | process state => exact ⟨List.prefix_append _ _, List.prefix_rfl⟩
    | write outcomes => exact ⟨List.prefix_rfl, List.prefix_append _ _⟩
    | handle event state => exact ⟨List.prefix_append _ _, List.prefix_append _ _⟩

/-- The output of each connection is in order, in every run. -/
lemma Server.run_inOrder (clock : Nat → Int) (core : Core) (events : List ServerEvent)
    (client : Nat) :
    ((Server.run clock { core := core } events).connections[client]?.getD {}).InOrder
      (Core.execute clock) := by
  induction events using List.reverseRecOn with
  | nil => exact ⟨le_rfl, rfl, fun _ mem => absurd mem List.not_mem_nil⟩
  | append_singleton events event ih =>
    unfold Server.run
    rw [List.foldl_append]
    rcases Server.step_connection clock (Server.run clock { core := core } events) event client with
      same | ⟨flush, op, stepped⟩
    · exact same ▸ ih
    · exact stepped ▸ (ih.step flush op).1

end Connections

namespace Benchmark

/-! ### Commands -/

/-- A request that the server reads and answers with one value. -/
structure Sendable (arguments : List Bytes) : Prop where
  given : arguments ≠ []
  within : WithinLimits arguments
  echoes : EchoesNoBreak arguments

def IsCommand (text : Bytes) : Prop :=
  ∃ arguments, text = respArray arguments ∧ Sendable arguments

section Commands

/-- Nothing of a known command is echoed, but of `CONFIG`. -/
lemma echoesNoBreak_known {name : Bytes} (rest : List Bytes)
    (known : commandTable.lookup (uppercase name) ≠ none) (other : uppercase name ≠ ascii "CONFIG") :
    EchoesNoBreak (name :: rest) := by
  refine ⟨fun _ unknown => absurd unknown known, ?_⟩
  intro _ _ _ _ shape config
  cases shape
  exact absurd config other

/-- A short text is within the limits of an argument. -/
lemma length_key {key : Int} (range : key.natAbs < 10 ^ 19) (name : String)
    (short : (ascii name).length ≤ 20) :
    (ascii name ++ Decimal.ofInt key).length ≤ maxBulkSize := by
  have digits := Decimal.length_ofInt_le (by decide) range
  have limit : 40 ≤ maxBulkSize := by decide
  rw [List.length_append]
  omega

lemma sendable {name : Bytes} {rest : List Bytes}
    (known : commandTable.lookup (uppercase name) ≠ none) (other : uppercase name ≠ ascii "CONFIG")
    (few : rest.length ≤ 3) (short : name.length ≤ 20)
    (each : ∀ argument ∈ rest, argument.length ≤ maxBulkSize) : Sendable (name :: rest) := by
  have limit : 20 ≤ maxBulkSize ∧ 4 ≤ maxArguments := by decide
  refine ⟨List.cons_ne_nil _ _, ⟨?_, ?_⟩, echoesNoBreak_known rest known other⟩
  · rw [List.length_cons]
    omega
  · exact List.forall_mem_cons.mpr ⟨by omega, each⟩

/-- What is built for a known test is a command. -/
lemma isCommand_buildCommand {test value : Bytes} {key : Int}
    (known : buildCommand test 0 [] ≠ []) (small : value.length ≤ maxBulkSize) (nonneg : 0 ≤ key)
    (range : key ≤ int64Max) : IsCommand (buildCommand test key value) := by
  have max : int64Max = 9223372036854775807 := rfl
  have size : key.natAbs < 10 ^ 19 := by
    norm_num
    omega
  have size' : (key.tmod 100).natAbs < 10 ^ 19 := by
    rw [Int.tmod_eq_emod_of_nonneg nonneg]
    norm_num
    omega
  have name := length_key size "key:" (by decide)
  have pair : ∀ {first : Bytes}, first.length ≤ maxBulkSize →
      ∀ argument ∈ [first, value], argument.length ≤ maxBulkSize :=
    fun fits => List.forall_mem_cons.mpr ⟨fits, List.forall_mem_singleton.mpr small⟩
  unfold buildCommand at known ⊢
  dsimp only at known ⊢
  split_ifs at known ⊢
  · exact ⟨_, rfl, sendable (by decide) (by decide) (by decide) (by decide) nofun⟩
  · exact ⟨_, rfl, sendable (by decide) (by decide) (Nat.le_add_left _ _) (by decide) (pair name)⟩
  · exact ⟨_, rfl, sendable (by decide) (by decide) (Nat.le_add_left _ _) (by decide)
      (List.forall_mem_singleton.mpr name)⟩
  · exact ⟨_, rfl, sendable (by decide) (by decide) (Nat.le_add_left _ _) (by decide)
      (List.forall_mem_singleton.mpr (length_key size "counter:" (by decide)))⟩
  · exact ⟨_, rfl, sendable (by decide) (by decide) (Nat.le_add_left _ _) (by decide)
      (pair (length_key size' "list:" (by decide)))⟩
  · exact ⟨_, rfl, sendable (by decide) (by decide) le_rfl (by decide)
      (List.forall_mem_cons.mpr ⟨length_key size' "hash:" (by decide),
        pair (length_key size "field:" (by decide))⟩)⟩
  · exact absurd rfl known

/-- The batch of a turn. -/
lemma isCommand_batch {options : Options} {test : Bytes} (known : buildCommand test 0 [] ≠ [])
    (small : options.dataSize ≤ maxBulkSize)
    (keys : Nat → { key : Int // 0 ≤ key ∧ key < options.keyspace }) (batch : Nat) :
    ∀ command ∈ batchCommands options test keys batch, IsCommand command := by
  intro command mem
  obtain ⟨i, _, rfl⟩ := List.mem_map.mp mem
  obtain ⟨nonneg, below⟩ := (keys i).2
  refine isCommand_buildCommand known ?_ nonneg (below.le.trans options.keyspace_range.2)
  rwa [List.length_replicate]

/-- The request at the front of what has been sent is the first command. -/
lemma front_command {commands : List Bytes} (all : ∀ command ∈ commands, IsCommand command)
    {arguments : List Bytes} {text rest : Bytes} (request : IsRequest arguments text)
    (sent : text ++ rest <+: commands.flatten) :
    ∃ commands', commands = respArray arguments :: commands' ∧ Sendable arguments ∧
      rest <+: commands'.flatten := by
  cases commands with
  | nil =>
    have empty := (List.append_eq_nil_iff.mp (List.prefix_nil.mp sent)).1
    have complete := request []
    rw [empty] at complete
    cases complete
  | cons command commands =>
    obtain ⟨arguments', rfl, sendable⟩ := all command List.mem_cons_self
    obtain ⟨more, whole⟩ := sent
    rw [List.flatten_cons, List.append_assoc] at whole
    have read := request (rest ++ more)
    rw [whole, parseRespCommand_respArray sendable.within] at read
    have same : arguments' = arguments := congrArg RespParseResult.arguments read
    subst same
    have length : (respArray arguments').length = text.length :=
      congrArg RespParseResult.consumedBytes read
    obtain ⟨rfl, tail⟩ := List.append_inj whole length.symm
    exact ⟨commands, rfl, sendable, more, tail⟩

/-- What the server answers to a part of the commands: the first ones of them. -/
lemma served_commands {text left : Bytes} {answered : List (Option (List Bytes))}
    (h : Served text answered left) {commands : List Bytes}
    (all : ∀ command ∈ commands, IsCommand command) (sent : text <+: commands.flatten) :
    ∃ requests : List (List Bytes), answered = requests.map some ∧ requests.map respArray <+: commands ∧
      ∀ request ∈ requests, Sendable request := by
  induction h generalizing commands with
  | waits => exact ⟨[], rfl, List.nil_prefix, nofun⟩
  | blank request _ _ =>
    obtain ⟨_, _, sendable, _⟩ := front_command all request sent
    exact absurd rfl sendable.given
  | command request _ _ ih =>
    obtain ⟨commands, rfl, sendable, later⟩ := front_command all request sent
    obtain ⟨requests, rfl, first, each⟩ := ih (List.forall_mem_cons.mp all).2 later
    exact ⟨_ :: requests, rfl, List.cons_prefix_cons.mpr ⟨rfl, first⟩,
      List.forall_mem_cons.mpr ⟨sendable, each⟩⟩
  | @refused text rest error =>
    -- the text is the beginning of commands, of which the parser refuses none
    obtain ⟨more, whole⟩ := sent
    cases commands with
    | nil =>
      have empty := (List.append_eq_nil_iff.mp (List.append_eq_nil_iff.mp whole).1).1
      rw [empty] at error
      cases error
    | cons command commands =>
      obtain ⟨arguments, rfl, sendable⟩ := all command List.mem_cons_self
      have array : (text ++ (rest ++ more)).head? = some 42 := by
        rw [← List.append_assoc, whole, respArray_eq]
        rfl
      have same := parseRespCommand_extend (rest ++ more)
        (fun incomplete => by rw [error] at incomplete; cases incomplete)
        (fun inline => absurd array inline)
      rw [← List.append_assoc, whole, List.flatten_cons,
        parseRespCommand_respArray sendable.within] at same
      rw [← same] at error
      cases error

end Commands

/-! ### Threads -/

namespace Phase

/-- Where the next reply starts in the input. -/
def position : Phase → Nat
  | .receiving _ _ position => position
  | _ => 0

/-- What is still to be sent of the request. -/
def unsent : Phase → Bytes
  | .sending _ request sent => request.drop sent
  | _ => []

/-- The replies that are still to be counted. -/
def awaited : Phase → Nat
  | .sending batch _ _ => batch
  | .receiving batch replies _ => batch - replies
  | _ => 0

/-- The thread has been given up. -/
def Failed (phase : Phase) : Prop :=
  phase = .finished false ∨ phase = .threw

end Phase

/-- What holds of a thread that has not been given up. -/
structure Thread.Live (thread : Thread) : Prop where
  inside : thread.phase.position ≤ thread.input.length
  received : thread.received = thread.replies.flatten ++ thread.input.drop thread.phase.position
  sent : thread.sent ++ thread.phase.unsent = thread.commands.flatten
  counted : thread.replies.length + thread.phase.awaited = thread.commands.length

/-- What holds of a thread and its connection: the thread has counted replies of the server to its
own commands. -/
structure Thread.InStep (thread : Thread) (heard : Bytes) (connection : Connection Core) : Prop where
  commands : ∀ command ∈ thread.commands, IsCommand command
  live : ¬ thread.phase.Failed → thread.Live
  sent : thread.sent <+: thread.commands.flatten
  alive : thread.phase ≠ .threw
  heard : heard <+: thread.sent
  received : thread.received <+: connection.sent
  replies : thread.replies <+: connection.answers.map (·.payload)

section Turns

variable {thread : Thread} {heard : Bytes} {connection : Connection Core} {options : Options}
  {test : Bytes}

/-- A thread is given up. -/
lemma Thread.InStep.fail (h : thread.InStep heard connection) :
    ({ thread with phase := .finished false } : Thread).InStep heard connection where
  commands := h.commands
  live := fun alive => absurd (.inl rfl) alive
  sent := h.sent
  alive := nofun
  heard := h.heard
  received := h.received
  replies := h.replies

/-- A thread goes on to another phase, with the same input. -/
lemma Thread.InStep.goto (h : thread.InStep heard connection) {before after : Phase}
    (here : thread.phase = before) (live : ¬ before.Failed) (alive : after ≠ .threw)
    (position : after.position = before.position) (unsent : after.unsent = before.unsent)
    (awaited : after.awaited = before.awaited) :
    ({ thread with phase := after } : Thread).InStep heard connection := by
  subst here
  obtain ⟨inside, received, sent, counted⟩ := h.live live
  refine ⟨h.commands, fun _ => ⟨?_, ?_, ?_, ?_⟩, h.sent, alive, h.heard, h.received, h.replies⟩
  · rwa [position]
  · rwa [position]
  · rwa [unsent]
  · rwa [awaited]

/-- A thread takes a batch. -/
lemma Thread.InStep.take (h : thread.InStep heard connection) (ready : thread.phase = .ready)
    {batch : List Bytes} (all : ∀ command ∈ batch, IsCommand command) :
    ({ thread with
      phase := .sending batch.length batch.flatten 0
      commands := thread.commands ++ batch } : Thread).InStep heard connection := by
  obtain ⟨inside, received, sent, counted⟩ := h.live (by rw [ready]; exact nofun)
  rw [ready] at inside received sent counted
  refine ⟨List.forall_mem_append.mpr ⟨h.commands, all⟩, fun _ => ⟨inside, received, ?_, ?_⟩,
    ?_, nofun, h.heard, h.received, h.replies⟩
  · rw [List.flatten_append, ← sent]
    simp [Phase.unsent]
  · rw [List.length_append, ← counted]
    rfl
  · rw [List.flatten_append]
    exact h.sent.trans (List.prefix_append _ _)

/-- A thread sends a part of its request. -/
lemma Thread.InStep.send (h : thread.InStep heard connection) {batch sent : Nat} {request : Bytes}
    (sending : thread.phase = .sending batch request sent) (count : Nat) :
    let bytes := (request.drop sent).take count
    ({ thread with
      phase := .sending batch request (sent + bytes.length)
      sent := thread.sent ++ bytes } : Thread).InStep heard connection := by
  intro bytes
  obtain ⟨inside, received, whole, counted⟩ := h.live (by rw [sending]; exact nofun)
  rw [sending] at inside received whole counted
  have rest : bytes ++ request.drop (sent + bytes.length) = request.drop sent := by
    rw [← List.drop_drop]
    exact (List.prefix_iff_eq_append.mp (List.take_prefix _ _))
  have whole' : thread.sent ++ bytes ++ request.drop (sent + bytes.length) =
      thread.commands.flatten := by
    rw [List.append_assoc, rest]
    exact whole
  refine ⟨h.commands, fun _ => ⟨inside, received, whole', counted⟩, ⟨_, whole'⟩, nofun,
    h.heard.trans (List.prefix_append _ _), h.received, h.replies⟩

/-- What a thread has received and not counted yet is the beginning of the replies that follow. -/
lemma Thread.InStep.pending (h : thread.InStep heard connection) (live : ¬ thread.phase.Failed)
    (stream : connection.sent <+: payloads connection.answers) :
    ∃ later, connection.answers.map (·.payload) = thread.replies ++ later ∧
      thread.input.drop thread.phase.position <+: later.flatten := by
  obtain ⟨later, split⟩ := h.replies
  have arrived := h.received.trans stream
  rw [(h.live live).received, payloads, ← split, List.flatten_append,
    List.prefix_append_right_inj] at arrived
  exact ⟨later, split.symm, arrived⟩

/-- A thread that waits for a reply finds the next one, or it has not arrived yet. -/
lemma Thread.InStep.receive (h : thread.InStep heard connection)
    (stream : connection.sent <+: payloads connection.answers)
    (frames : ∀ answer ∈ connection.answers, IsFrame answer.payload)
    {batch count position : Nat} (receiving : thread.phase = .receiving batch count position)
    (more : count < batch) :
    (∃ length, completeReplyLength thread.input position = some length ∧ 0 < length ∧
      ({ thread with
        phase := .receiving batch (count + 1) (position + length)
        replies := thread.replies ++ [(thread.input.drop position).take length] } :
        Thread).InStep heard connection) ∨
    completeReplyLength thread.input position = some 0 := by
  have live : ¬ thread.phase.Failed := by
    rw [receiving]
    exact nofun
  obtain ⟨later, split, arrived⟩ := h.pending live stream
  obtain ⟨inside, received, sent, counted⟩ := h.live live
  rw [receiving] at arrived inside received sent counted
  dsimp only [Phase.position] at arrived inside received
  have input : thread.input.take position ++ thread.input.drop position = thread.input :=
    List.take_append_drop _ _
  have front : (thread.input.take position).length = position := by
    rw [List.length_take]
    omega
  have all : ∀ frame ∈ later, IsFrame frame := by
    intro frame mem
    have known : frame ∈ connection.answers.map (·.payload) := by
      rw [split]
      exact List.mem_append_right _ mem
    obtain ⟨answer, given, rfl⟩ := List.mem_map.mp known
    exact frames answer given
  have next := measures_completeReplyLength.next all (thread.input.take position) arrived
  rw [input, front] at next
  rcases next with ⟨frame, later, pending, rfl, split', nonempty, found⟩ | none
  · refine .inl ⟨frame.length, found, List.length_pos_of_ne_nil nonempty, ?_⟩
    have taken : (thread.input.drop position).take frame.length = frame := by
      rw [split', List.take_left]
    have rest : thread.input.drop (position + frame.length) = pending := by
      rw [← List.drop_drop, split', List.drop_left]
    have fits : position + frame.length ≤ thread.input.length := by
      have := congrArg List.length split'
      rw [List.length_drop, List.length_append] at this
      omega
    rw [taken]
    refine ⟨h.commands, fun _ => ⟨fits, ?_, sent, ?_⟩, h.sent, nofun, h.heard, h.received, ?_⟩
    · show thread.received = _ ++ thread.input.drop (position + frame.length)
      rw [received, rest, split']
      simp
    · show (thread.replies ++ [frame]).length + (batch - (count + 1)) = _
      rw [← counted, List.length_append, List.length_singleton]
      show _ = _ + (batch - count)
      omega
    · rw [split]
      exact ⟨later, by rw [List.append_assoc]; rfl⟩
  · exact .inr none

/-- A thread receives. -/
lemma Thread.InStep.arrive (h : thread.InStep heard connection) {bytes : Bytes}
    (arrives : thread.received ++ bytes <+: connection.sent) (live : ¬ thread.phase.Failed) :
    ({ thread with input := thread.input ++ bytes, received := thread.received ++ bytes } :
      Thread).InStep heard connection := by
  obtain ⟨inside, received, sent, counted⟩ := h.live live
  refine ⟨h.commands, fun _ => ⟨?_, ?_, sent, counted⟩, h.sent, h.alive, h.heard, arrives, h.replies⟩
  · rw [List.length_append]
    exact inside.trans (Nat.le_add_right _ _)
  · dsimp only
    rw [received, List.drop_append_of_le_length inside, List.append_assoc]

/-- A thread has counted the replies to a batch. -/
lemma Thread.InStep.batchDone (h : thread.InStep heard connection) {batch count position : Nat}
    (receiving : thread.phase = .receiving batch count position) (done : ¬ count < batch) :
    ({ thread with phase := .ready, input := thread.input.drop position } : Thread).InStep heard
      connection := by
  obtain ⟨inside, received, sent, counted⟩ := h.live (by rw [receiving]; exact nofun)
  rw [receiving] at inside received sent counted
  refine ⟨h.commands, fun _ => ⟨Nat.zero_le _, received, sent, ?_⟩, h.sent, nofun, h.heard,
    h.received, h.replies⟩
  dsimp only [Phase.awaited] at counted ⊢
  omega

/-- One turn of a thread that receives what the server has sent. -/
lemma Thread.InStep.turn (known : buildCommand test 0 [] ≠ [])
    (small : options.dataSize ≤ maxBulkSize) (h : thread.InStep heard connection)
    (stream : connection.sent <+: payloads connection.answers)
    (frames : ∀ answer ∈ connection.answers, IsFrame answer.payload) {turn : Turn options}
    (arrives : thread.received ++ turn.received <+: connection.sent) (remaining : Int) :
    (thread.turn options test turn remaining).1.InStep heard connection := by
  unfold Thread.turn
  split
  · rename_i phase
    split
    · exact h.goto phase nofun nofun rfl rfl rfl
    · exact h.fail
  · rename_i phase
    dsimp only
    split
    · exact h.goto phase nofun nofun rfl rfl rfl
    · have next := h.take phase (isCommand_batch known small turn.keys
        (min options.pipeline remaining).toNat)
      rw [batchCommands, List.length_map, List.length_range] at next
      exact next
  · rename_i batch request sent phase
    split
    · split
      · exact h.fail
      · exact h.send phase turn.written.toNat
    · rename_i all
      refine h.goto phase nofun nofun rfl ?_ rfl
      exact (List.drop_eq_nil_of_le (Nat.le_of_not_lt all)).symm
  · rename_i batch count position phase
    split
    · rename_i more
      rcases h.receive stream frames phase more with ⟨length, found, positive, next⟩ | none
      · rw [found, Option.elim_some, if_pos positive]
        exact next
      · rw [none, Option.elim_some, if_neg (by decide)]
        split
        · exact h.fail
        · exact h.arrive arrives (by rw [phase]; exact nofun)
    · rename_i done
      exact h.batchDone phase done
  · exact h
  · exact h

/-- The server has answered the first commands of the thread. -/
lemma Thread.InStep.answered (h : thread.InStep heard connection) {left : Bytes}
    (served : Served heard (connection.answers.map (·.arguments)) left) :
    ∃ requests : List (List Bytes), connection.answers.map (·.arguments) = requests.map some ∧
      requests.map respArray <+: thread.commands ∧ ∀ request ∈ requests, Sendable request :=
  served_commands served h.commands (h.heard.trans h.sent)

/-- Each answer is one reply. -/
lemma isFrame_answers {clock : Nat → Int} {requests : List (List Bytes)}
    (ordered : connection.InOrder (Core.execute clock))
    (asked : connection.answers.map (·.arguments) = requests.map some)
    (sendable : ∀ request ∈ requests, Sendable request)
    (fits : ∀ answer ∈ connection.answers, (answer.payload.length : Int) ≤ int64Max) :
    ∀ answer ∈ connection.answers, IsFrame answer.payload := by
  intro answer mem
  refine ⟨?_, fits answer mem⟩
  have known : answer.arguments ∈ requests.map some := by
    rw [← asked]
    exact List.mem_map_of_mem mem
  obtain ⟨request, among, given⟩ := List.mem_map.mp known
  have produced := ordered.produced answer mem
  rw [Answer.Produced, ← given] at produced
  rw [← produced.1]
  exact (execute_framed_iff _ _ (sendable request among).given _).mpr (sendable request among).echoes

end Turns

/-! ### All threads -/

/-- The commands that the threads have built. -/
def Load.commands (load : Load) : Nat :=
  (load.threads.map (·.commands.length)).sum

/-- The replies that the threads have counted. -/
def Load.replies (load : Load) : Nat :=
  (load.threads.map (·.replies.length)).sum

/-- The threads that have ended well. -/
def Load.finished (load : Load) : Nat :=
  (load.threads.map fun thread => if thread.phase = .finished true then 1 else 0).sum

/-- What holds in every state: each thread is in step with the server, and the requests that remain
are those that no thread has taken. -/
structure Load.InStep (options : Options) (clock : Nat → Int) (core : Core) (line : Nat → Nat)
    (load : Load) : Prop where
  threads : ∀ (index : Nat) (thread : Thread), load.threads[index]? = some thread →
    thread.InStep (load.heard clock core line index) (load.connection clock core line index)
  fits : ∀ index < load.threads.length, ∀ answer ∈ (load.connection clock core line index).answers,
    (answer.payload.length : Int) ≤ int64Max
  clients : load.threads.length = options.clients.toNat
  taken : load.commands + max load.remaining 0 = options.requests
  exhausted : ∀ thread ∈ load.threads, thread.phase = .finished true → load.remaining ≤ 0
  bound : -(options.pipeline * (load.finished + 1)) < load.remaining

section Load

variable {options : Options} {test : Bytes} {clock : Nat → Int} {core : Core} {line : Nat → Nat}
  {load : Load}

lemma load_inStep_start : (Load.start options).InStep options clock core line where
  threads := by
    intro index thread found
    have fresh : thread = {} := (List.mem_replicate.mp (List.mem_of_getElem? found)).2
    subst fresh
    exact ⟨nofun, fun _ => ⟨le_rfl, rfl, rfl, rfl⟩, List.prefix_rfl, nofun, List.prefix_rfl,
      List.nil_prefix, List.nil_prefix⟩
  fits := fun _ _ _ mem => absurd mem List.not_mem_nil
  clients := List.length_replicate
  taken := by
    have pos := options.requests_pos
    have none : (Load.start options).commands = 0 := by simp [Load.commands, Load.start]
    rw [none]
    show _ + max options.requests 0 = _
    omega
  exhausted := by
    intro thread mem finished
    rw [(List.mem_replicate.mp mem).2] at finished
    cases finished
  bound := by
    have pos := options.requests_pos
    have pipeline := options.pipeline_pos
    have none : (Load.start options).finished = 0 := by simp [Load.finished, Load.start]
    rw [none]
    show _ < options.requests
    omega

/-- What the server answers to a thread are replies. -/
lemma Load.InStep.frames (h : load.InStep options clock core line) {index : Nat} {thread : Thread}
    (found : load.threads[index]? = some thread) :
    let connection := load.connection clock core line index
    connection.sent <+: payloads connection.answers ∧
    (∀ answer ∈ connection.answers, IsFrame answer.payload) ∧
    connection.answers.length ≤ thread.commands.length := by
  intro connection
  have ordered : connection.InOrder (Core.execute clock) :=
    Server.run_inOrder clock core load.events (line index)
  obtain ⟨requests, asked, first, sendable⟩ := (h.threads index thread found).answered
    ((Server.run_servesAll clock core load.events).served (line index))
  have inside : index < load.threads.length := (List.getElem?_eq_some_iff.mp found).choose
  refine ⟨⟨_, ordered.stream⟩, isFrame_answers ordered asked sendable (h.fits index inside), ?_⟩
  have count : connection.answers.length = requests.length := by
    simpa using congrArg List.length asked
  rw [count, ← List.length_map respArray]
  exact first.length_le

/-- A sum over the threads of which one changes. -/
lemma sum_set {α : Type} (f : α → Nat) {l : List α} {index : Nat} {a : α}
    (found : l[index]? = some a) (b : α) :
    ((l.set index b).map f).sum + f a = (l.map f).sum + f b := by
  induction l generalizing index with
  | nil => cases found
  | cons c l ih =>
    cases index with
    | zero =>
      cases found
      simp only [List.set_cons_zero, List.map_cons, List.sum_cons]
      omega
    | succ index =>
      have found : l[index]? = some a := found
      have later := ih found
      simp only [List.set_cons_succ, List.map_cons, List.sum_cons]
      omega

/-- What a turn does with the requests that remain: the thread takes a batch, it ends because there
are none, or it does something else. -/
lemma Thread.turn_cases (test : Bytes) (thread : Thread) (turn : Turn options) (remaining : Int) :
    let next := thread.turn options test turn remaining
    (0 < remaining ∧ next.2 = remaining - options.pipeline ∧
      (next.1.commands.length : Int) = thread.commands.length + min options.pipeline remaining ∧
      next.1.phase ≠ .finished true ∧ thread.phase ≠ .finished true) ∨
    (remaining ≤ 0 ∧ next.2 = remaining - options.pipeline ∧ next.1.commands = thread.commands ∧
      next.1.phase = .finished true ∧ thread.phase ≠ .finished true) ∨
    (next.2 = remaining ∧ next.1.commands = thread.commands ∧
      (next.1.phase = .finished true ↔ thread.phase = .finished true)) := by
  have pos := options.pipeline_pos
  unfold Thread.turn
  split
  · rename_i phase
    refine .inr (.inr ⟨rfl, rfl, ?_⟩)
    rw [phase]
    split <;> simp
  · rename_i phase
    dsimp only
    split
    · rename_i none
      exact .inr (.inl ⟨by omega, rfl, rfl, rfl, by rw [phase]; nofun⟩)
    · rename_i some_
      refine .inl ⟨by omega, rfl, ?_, nofun, by rw [phase]; nofun⟩
      rw [batchCommands, List.length_append, List.length_map, List.length_range]
      omega
  · rename_i phase
    refine .inr (.inr ?_)
    rw [phase]
    split
    · split
      · exact ⟨rfl, rfl, by simp⟩
      · exact ⟨rfl, rfl, by simp⟩
    · exact ⟨rfl, rfl, by simp⟩
  · rename_i phase
    refine .inr (.inr ?_)
    rw [phase]
    split
    · cases completeReplyLength thread.input _ with
      | none => exact ⟨rfl, rfl, by simp⟩
      | some length =>
        rw [Option.elim_some]
        split
        · exact ⟨rfl, rfl, by simp⟩
        · split
          · exact ⟨rfl, rfl, by simp⟩
          · exact ⟨rfl, rfl, by simp⟩
    · exact ⟨rfl, rfl, by simp⟩
  · exact .inr (.inr ⟨rfl, rfl, Iff.rfl⟩)
  · exact .inr (.inr ⟨rfl, rfl, Iff.rfl⟩)

lemma Load.step_turn (test : Bytes) {index : Nat} {thread : Thread}
    (found : load.threads[index]? = some thread) (turn : Turn options) :
    load.step options test (.turn index turn) = { load with
      remaining := (thread.turn options test turn load.remaining).2
      threads := load.threads.set index (thread.turn options test turn load.remaining).1 } := by
  simp only [Load.step, found, Option.elim_some]

/-- A turn of a thread keeps the account of the requests. -/
lemma Load.InStep.turn_account (h : load.InStep options clock core line) (test : Bytes) {index : Nat}
    {thread : Thread} (found : load.threads[index]? = some thread) (turn : Turn options) :
    let next := load.step options test (.turn index turn)
    next.commands + max next.remaining 0 = options.requests ∧
    (∀ thread ∈ next.threads, thread.phase = .finished true → next.remaining ≤ 0) ∧
    -(options.pipeline * (next.finished + 1)) < next.remaining := by
  intro next
  obtain ⟨_, _, _, taken, exhausted, bound⟩ := h
  have pos := options.pipeline_pos
  have isNext : next = _ := Load.step_turn test found turn
  have effect := thread.turn_cases test turn load.remaining
  generalize thread.turn options test turn load.remaining = after at isNext effect
  have commands : next.commands + thread.commands.length = load.commands + after.1.commands.length := by
    rw [isNext]
    exact sum_set (fun thread : Thread => thread.commands.length) found after.1
  have finished : next.finished + (if thread.phase = .finished true then 1 else 0) =
      load.finished + (if after.1.phase = .finished true then 1 else 0) := by
    rw [isNext]
    exact sum_set (fun thread : Thread => if thread.phase = .finished true then 1 else 0) found after.1
  have remaining : next.remaining = after.2 := by rw [isNext]
  have members : ∀ other ∈ next.threads, other ∈ load.threads ∨ other = after.1 := by
    intro other mem
    rw [isNext] at mem
    exact List.mem_or_eq_of_mem_set mem
  have known : thread ∈ load.threads := List.mem_of_getElem? found
  rw [remaining]
  rcases effect with ⟨more, rest, batch, going, was⟩ | ⟨none, rest, same, ended, was⟩ |
    ⟨rest, same, kept⟩
  · rw [if_neg was, if_neg going] at finished
    refine ⟨by omega, fun other mem done => ?_, ?_⟩
    · rcases members other mem with mem | rfl
      · have := exhausted other mem done
        omega
      · exact absurd done going
    · have := mul_nonneg (by omega : 0 ≤ options.pipeline) (Int.natCast_nonneg next.finished)
      rw [mul_add]
      omega
  · rw [if_neg was, if_pos ended] at finished
    rw [same] at commands
    refine ⟨by omega, fun _ _ _ => by omega, ?_⟩
    have one : (next.finished : Int) = load.finished + 1 := by omega
    rw [one, mul_add _ _ 1, mul_one]
    omega
  · rw [same] at commands
    simp only [kept, Nat.add_right_cancel_iff] at finished
    rw [rest, finished]
    refine ⟨by omega, fun other mem done => ?_, bound⟩
    rcases members other mem with mem | rfl
    · exact exhausted other mem done
    · exact exhausted thread known (kept.mp done)

/-- What the server has answered and sent to a thread stays. -/
lemma Load.connection_grows (load : Load) (clock : Nat → Int) (core : Core) (line : Nat → Nat)
    (event : ServerEvent) (index : Nat) :
    let before := load.connection clock core line index
    let after := Load.connection clock core line { load with events := load.events ++ [event] } index
    before.answers <+: after.answers ∧ before.sent <+: after.sent := by
  intro before after
  have step := Server.step_connection clock (Server.run clock { core := core } load.events) event
    (line index)
  have isAfter : after = ((Server.run clock { core := core } load.events).step clock
      event).connections[line index]?.getD {} := by
    simp only [after, Load.connection, Server.run, List.foldl_append]
    rfl
  dsimp only at step
  rw [← isAfter] at step
  rcases step with same | ⟨flush, op, stepped⟩
  · rw [same]
    exact ⟨List.prefix_rfl, List.prefix_rfl⟩
  · rw [stepped]
    exact Connection.step_grows op

/-- One step of the threads and the server. -/
lemma Load.InStep.step (known : buildCommand test 0 [] ≠ [])
    (small : options.dataSize ≤ maxBulkSize) (h : load.InStep options clock core line)
    {event : LoadEvent options} (delivers : load.Delivers options test clock core line event) :
    (load.step options test event).InStep options clock core line := by
  cases event with
  | turn index turn =>
    cases found : load.threads[index]? with
    | none =>
      have same : load.step options test (.turn index turn) = load := by
        simp only [Load.step, found, Option.elim_none]
      rw [same]
      exact h
    | some thread =>
      have isNext := Load.step_turn test found turn
      obtain ⟨taken, exhausted, bound⟩ := h.turn_account test found turn
      obtain ⟨stream, frames, _⟩ := h.frames found
      have arrives : thread.received ++ turn.received <+:
          (load.connection clock core line index).sent := by
        have delivered : (load.threads[index]?.getD {}).received ++ turn.received <+: _ := delivers
        rwa [found] at delivered
      have after := (h.threads index thread found).turn known small stream frames arrives
        load.remaining
      refine ⟨?_, ?_, ?_, taken, exhausted, bound⟩
      · intro other thread' found'
        rw [isNext] at found' ⊢
        by_cases here : index = other
        · subst here
          rw [List.getElem?_set_self (List.getElem?_eq_some_iff.mp found).choose] at found'
          cases found'
          exact after
        · rw [List.getElem?_set_ne here] at found'
          exact h.threads other thread' found'
      · intro other inside
        rw [isNext] at inside ⊢
        exact h.fits other (by rwa [List.length_set] at inside)
      · rw [isNext, List.length_set]
        exact h.clients
  | server event =>
    refine ⟨?_, fun index inside => (delivers index inside).2, h.clients, h.taken, h.exhausted,
      h.bound⟩
    intro index thread found
    have same : load.threads[index]? = some thread := found
    obtain ⟨commands, live, sent, alive, _, received, replies⟩ := h.threads index thread same
    have heard := (delivers index (List.getElem?_eq_some_iff.mp same).choose).1
    rw [same] at heard
    obtain ⟨answers, output⟩ := load.connection_grows clock core line event index
    exact ⟨commands, live, sent, alive, heard, received.trans output,
      replies.trans (answers.map _)⟩

/-- In every run. -/
lemma Load.InStep.run (known : buildCommand test 0 [] ≠ [])
    (small : options.dataSize ≤ maxBulkSize) (h : load.InStep options clock core line)
    (events : List (LoadEvent options))
    (delivered : load.Delivered options test clock core line events) :
    (load.run options test events).InStep options clock core line := by
  induction events generalizing load with
  | nil => exact h
  | cons event events ih => exact ih (h.step known small delivered.1) delivered.2

/-- A thread that is about to take a batch, or that has ended well, has counted a reply to each of
its commands, and there is nothing left in its input. -/
lemma Load.InStep.idle (h : load.InStep options clock core line) {index : Nat} {thread : Thread}
    (found : load.threads[index]? = some thread)
    (idle : thread.phase = .ready ∨ thread.phase = .finished true) :
    thread.input = [] ∧ thread.replies.length = thread.commands.length ∧
      thread.replies = (load.connection clock core line index).answers.map (·.payload) := by
  have inStep := h.threads index thread found
  have live : ¬ thread.phase.Failed := by
    rcases idle with phase | phase <;> rw [phase] <;> exact nofun
  have shape : thread.phase.position = 0 ∧ thread.phase.awaited = 0 := by
    rcases idle with phase | phase <;> rw [phase] <;> exact ⟨rfl, rfl⟩
  obtain ⟨stream, _, few⟩ := h.frames found
  obtain ⟨later, split, arrived⟩ := inStep.pending live stream
  have counted := (inStep.live live).counted
  rw [shape.2, Nat.add_zero] at counted
  have none : later = [] := by
    have size := congrArg List.length split
    rw [List.length_map, List.length_append] at size
    exact List.length_eq_zero_iff.mp (by omega)
  rw [none, List.append_nil] at split
  rw [none, shape.1] at arrived
  exact ⟨List.prefix_nil.mp arrived, counted, split.symm⟩

end Load

/-- In every run of the load generator with the server, whatever the order of the turns and of the
steps of the event loop, and however the network cuts the bytes: no thread comes upon bytes that are
not a reply, each thread has counted the replies of the server to its first commands, each one once
and in their order, and when it is done with a batch it has counted all of them and nothing is left
in its input. -/
theorem load_in_step (options : Options) (test : Bytes) (known : buildCommand test 0 [] ≠ [])
    (small : options.dataSize ≤ maxBulkSize) (clock : Nat → Int) (core : Core) (line : Nat → Nat)
    (events : List (LoadEvent options))
    (delivered : (Load.start options).Delivered options test clock core line events) :
    let load := (Load.start options).run options test events
    ∀ (index : Nat) (thread : Thread), load.threads[index]? = some thread →
      let connection := load.connection clock core line index
      thread.phase ≠ .threw ∧
      thread.replies <+: connection.answers.map (·.payload) ∧
      (∃ requests : List (List Bytes), connection.answers.map (·.arguments) = requests.map some ∧
        requests.map respArray <+: thread.commands) ∧
      (thread.phase = .ready ∨ thread.phase = .finished true →
        thread.input = [] ∧ thread.replies.length = thread.commands.length ∧
        thread.replies = connection.answers.map (·.payload)) := by
  intro load index thread found connection
  have inStep : load.InStep options clock core line :=
    load_inStep_start.run known small events delivered
  obtain ⟨requests, asked, first, _⟩ := (inStep.threads index thread found).answered
    ((Server.run_servesAll clock core load.events).served (line index))
  exact ⟨(inStep.threads index thread found).alive, (inStep.threads index thread found).replies,
    ⟨requests, asked, first⟩, inStep.idle found⟩

/-- One client that sends one `PING`. -/
def pingOptions : Options where
  clients := 1
  requests := 1

/-- The client connects, takes its batch and sends it; the server answers, and the client counts the
reply and finds that no request remains. -/
def pingEvents : List (LoadEvent pingOptions) :=
  let keys : Nat → { key : Int // 0 ≤ key ∧ key < pingOptions.keyspace } := fun _ => ⟨0, by decide⟩
  [.server .accept, .turn 0 { keys := keys }, .turn 0 { keys := keys },
    .turn 0 { keys := keys, written := 14 }, .turn 0 { keys := keys },
    .server (.client 0
      { readable := true, recvs := [.received (respArray [ascii "PING"])], sends := [.sent 7] } []),
    .turn 0 { keys := keys, received := ascii "+PONG\r\n" }, .turn 0 { keys := keys },
    .turn 0 { keys := keys }, .turn 0 { keys := keys }]

/-- The client counts one reply. -/
theorem load_in_step_ping :
    let load := (Load.start pingOptions).run pingOptions (ascii "PING") pingEvents
    load.threads.map (·.phase) = [.finished true] ∧
    ∀ (index : Nat) (thread : Thread), load.threads[index]? = some thread →
      let connection := load.connection (fun _ => 0) {} id index
      thread.phase ≠ .threw ∧
      thread.replies <+: connection.answers.map (·.payload) ∧
      (∃ requests : List (List Bytes), connection.answers.map (·.arguments) = requests.map some ∧
        requests.map respArray <+: thread.commands) ∧
      (thread.phase = .ready ∨ thread.phase = .finished true →
        thread.input = [] ∧ thread.replies.length = thread.commands.length ∧
        thread.replies = connection.answers.map (·.payload)) :=
  ⟨by decide +kernel, load_in_step pingOptions (ascii "PING") (by decide) (by decide) (fun _ => 0) {} id
    pingEvents (by decide +kernel)⟩

/-- In every run, whatever the order in which the threads take batches off the requests that remain:
the commands that have been built and the requests that remain are those that were asked for, the
counter never falls far below zero, and when all threads have ended well exactly as many commands
have been answered and counted as were asked for. -/
theorem load_counts (options : Options) (test : Bytes) (known : buildCommand test 0 [] ≠ [])
    (small : options.dataSize ≤ maxBulkSize) (clock : Nat → Int) (core : Core) (line : Nat → Nat)
    (events : List (LoadEvent options))
    (delivered : (Load.start options).Delivered options test clock core line events) :
    let load := (Load.start options).run options test events
    load.commands + max load.remaining 0 = options.requests ∧
    -(options.pipeline * (options.clients + 1)) < load.remaining ∧
    ((∀ thread ∈ load.threads, thread.phase = .finished true) →
      load.commands = options.requests ∧ load.replies = options.requests) := by
  intro load
  have inStep : load.InStep options clock core line :=
    load_inStep_start.run known small events delivered
  have clients := options.clients_pos
  have size : (load.threads.length : Int) = options.clients := by
    rw [inStep.clients]
    omega
  refine ⟨inStep.taken, ?_, fun ended => ?_⟩
  · have few : load.finished ≤ load.threads.length := by
      have each := List.sum_le_card_nsmul (load.threads.map fun thread =>
        if thread.phase = .finished true then 1 else 0) 1 (by simp; intros; split <;> decide)
      rwa [List.length_map, smul_eq_mul, mul_one] at each
    have more : options.pipeline * (load.finished + 1) ≤ options.pipeline * (options.clients + 1) :=
      mul_le_mul_of_nonneg_left (by omega) (by have := options.pipeline_pos; omega)
    have bound := inStep.bound
    omega
  · obtain ⟨thread, mem⟩ : ∃ thread, thread ∈ load.threads :=
      List.exists_mem_of_length_pos (by omega)
    have exhausted := inStep.exhausted thread mem (ended thread mem)
    have taken := inStep.taken
    have same : load.replies = load.commands := by
      refine congrArg List.sum (List.map_congr_left fun thread mem => ?_)
      obtain ⟨index, found⟩ := List.mem_iff_getElem?.mp mem
      exact (inStep.idle found (.inr (ended thread mem))).2.1
    rw [same]
    omega

/-- The request that was asked for has been sent, and its reply has been counted. -/
theorem load_counts_ping :
    let load := (Load.start pingOptions).run pingOptions (ascii "PING") pingEvents
    load.commands + max load.remaining 0 = pingOptions.requests ∧
    -(pingOptions.pipeline * (pingOptions.clients + 1)) < load.remaining ∧
    ((∀ thread ∈ load.threads, thread.phase = .finished true) →
      load.commands = pingOptions.requests ∧ load.replies = pingOptions.requests) :=
  load_counts pingOptions (ascii "PING") (by decide) (by decide) (fun _ => 0) {} id pingEvents
    (by decide +kernel)

end Benchmark

end FlashKV
