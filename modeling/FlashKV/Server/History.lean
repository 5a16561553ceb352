import FlashKV.Server.Durability
import FlashKV.Server.Sequential

/-!
# The history of the shared state

The clients of the server share one processor, and each of them has buffers of its own. Every run of
the event loop, however the events of the clients interleave, is explained by a sequence of actions:
the processor, the log and what each client has been answered are those of the sequence.
-/

namespace FlashKV

open Database

/-- The answer to a request of a client. -/
def Answer.answered (clock : Nat → Int) (client : Nat) (answer : Answer Core) : Option Answered :=
  answer.arguments.map fun arguments =>
    ⟨client, clock answer.before.readings, arguments, answer.before.processor, answer.payload⟩

/-- What the server has answered to a client's requests, in order. -/
def Server.answeredTo (clock : Nat → Int) (server : Server) (client : Nat) : List Answered :=
  server.connections[client]?.elim [] fun connection =>
    connection.answers.filterMap (Answer.answered clock client)

/-- The shared state is that of the sequence; the requests have seen one clock reading each. -/
structure Sequential.Mirrors (clock : Nat → Int) (initial : Core) (s : Sequential) (core : Core) :
    Prop where
  processor : core.processor = s.processor
  readings : core.readings = initial.readings + s.answered.length
  times : s.answered.map (·.now) =
    (List.range s.answered.length).map fun i => clock (initial.readings + i)
  log : core.aof.map (·.stream) = initial.aof.map fun aof => aof.stream ++ encodeAll s.records

/-- The actions explain the server: each client has been answered what the sequence answers to the
requests of that client, in that order, and each answer has been given at a point of the sequence. -/
structure Explains (clock : Nat → Int) (initial : Core) (actions : List Action) (server : Server) :
    Prop extends (Sequential.of initial.processor actions).Mirrors clock initial server.core where
  answers : ∀ client, (Sequential.of initial.processor actions).answered.filter (·.client = client) =
    server.answeredTo clock client
  points : ∀ connection ∈ server.connections, ∀ answer ∈ connection.answers, ∃ before,
    before <+: actions ∧
    (Sequential.of initial.processor before).Mirrors clock initial answer.before

section Core

variable {clock : Nat → Int} {initial core : Core} {s : Sequential} {ticks : Int → Prop}

lemma encodeAll_append (first second : List (List Bytes)) :
    encodeAll (first ++ second) = encodeAll first ++ encodeAll second := by
  simp [encodeAll]

/-- One request. -/
lemma Sequential.Mirrors.request (h : s.Mirrors clock initial core) (client : Nat)
    (arguments : List Bytes) :
    (s.step (.request client core.status (clock core.readings) arguments)).Mirrors clock initial
      (Core.execute clock arguments core).2 := by
  obtain ⟨processor, readings, times, log⟩ := h
  constructor
  · show (core.processor.execute core.status (clock core.readings) arguments).2.2 = _
    rw [processor]
    rfl
  · show core.readings + 1 = _
    simp only [step, List.length_append, List.length_singleton]
    omega
  · simp only [step, List.map_append, List.map_cons, List.map_nil, List.length_append,
      List.length_singleton, List.range_succ, times, readings]
  · show (core.aof.map _).map _ = _
    rw [Option.map_map]
    have stream : ∀ records : List (List Bytes),
        (fun aof : AppendOnlyFile => aof.stream) ∘
          (fun aof => records.foldl (fun aof record => aof.append record) aof) =
        fun aof => aof.stream ++ encodeAll records :=
      fun records => funext fun aof => (foldl_append_stream records aof).1
    rw [stream]
    have appended : ∀ records : List (List Bytes),
        (core.aof.map fun aof => aof.stream ++ encodeAll records) =
          (core.aof.map (·.stream)).map (· ++ encodeAll records) := by
      intro records
      rw [Option.map_map]
      rfl
    rw [appended, log, Option.map_map, processor]
    refine congrArg (initial.aof.map ·) (funext fun aof => ?_)
    rw [Function.comp_apply, List.append_assoc, ← encodeAll_append]
    rfl

lemma Sequential.Mirrors.answered_request (h : s.Mirrors clock initial core) (client : Nat)
    (arguments : List Bytes) :
    (s.step (.request client core.status (clock core.readings) arguments)).answered = s.answered ++
      [⟨client, clock core.readings, arguments, core.processor,
        (Core.execute clock arguments core).1.payload⟩] := by
  show s.answered ++ [⟨client, clock core.readings, arguments, s.processor,
    (s.processor.execute core.status (clock core.readings) arguments).1.payload⟩] = _
  rw [← h.processor]
  rfl

/-- The requests do not change what the processor sees of the log. -/
lemma Core.status_execute (arguments : List Bytes) :
    (Core.execute clock arguments core).2.status = core.status := by
  have kept : ∀ (records : List (List Bytes)) (aof : AppendOnlyFile),
      (records.foldl (fun aof record => aof.append record) aof).healthy = aof.healthy := by
    intro records
    induction records with
    | nil => exact fun _ => rfl
    | cons record records ih => exact fun aof => ih (aof.append record)
  unfold Core.status Core.execute
  cases attached : core.aof with
  | none => rfl
  | some aof =>
    dsimp only [Option.map_some]
    rw [kept]

/-- The loop of `processInput` takes the requests of one client. -/
lemma Sequential.Mirrors.processLoop (h : s.Mirrors clock initial core) (index : Nat)
    (pending : Bytes) (client : Client) :
    let result := processLoop (Core.execute clock) pending client core
    ∃ actions : List Action, (∀ action ∈ actions, action.Sees (· = core.status) ticks) ∧
      (s.run actions).Mirrors clock initial result.2.2 ∧
      (s.run actions).answered =
        s.answered ++ result.1.filterMap (Answer.answered clock index) ∧
      ∀ answer ∈ result.1, ∃ before, before <+: actions ∧
        (s.run before).Mirrors clock initial answer.before := by
  induction pending, client, core using processLoop_induction (Core.execute clock) generalizing s with
  | stop pending client core stops =>
    rw [processLoop_stop stops]
    exact ⟨[], nofun, h, (List.append_nil _).symm, fun _ mem => absurd mem List.not_mem_nil⟩
  | error pending client core live error =>
    rw [processLoop_error live error]
    refine ⟨[], nofun, h, (List.append_nil _).symm, fun answer mem => ⟨[], List.prefix_rfl, ?_⟩⟩
    rw [List.mem_singleton.mp mem]
    exact h
  | blank pending client core live complete blank ih =>
    rw [processLoop_blank live complete blank]
    exact ih h
  | command pending client core live complete given ih =>
    rw [processLoop_command live complete given]
    obtain ⟨actions, sees, mirrors, answered, points⟩ :=
      ih (h.request index (parseRespCommand pending).arguments)
    rw [Core.status_execute] at sees
    let request := Action.request index core.status (clock core.readings)
      (parseRespCommand pending).arguments
    refine ⟨request :: actions, List.forall_mem_cons.mpr ⟨rfl, sees⟩, mirrors, ?_, ?_⟩
    · rw [h.answered_request, List.append_assoc] at answered
      exact answered
    · intro answer mem
      rcases List.mem_cons.mp mem with rfl | mem
      · exact ⟨[], List.nil_prefix, h⟩
      · obtain ⟨before, part, point⟩ := points answer mem
        exact ⟨request :: before, List.cons_prefix_cons.mpr ⟨rfl, part⟩, point⟩

/-- A flush keeps the stream. -/
lemma Sequential.Mirrors.flush (h : s.Mirrors clock initial core) (writes : List WriteOutcome) :
    s.Mirrors clock initial (core.flush writes) := by
  refine ⟨h.processor, h.readings, h.times, ?_⟩
  rw [← h.log, Core.flush, Option.map_map]
  exact congrArg (core.aof.map ·) (funext fun aof => aof.stream_flush writes)

/-- Handling the events of one client. -/
lemma Sequential.Mirrors.handleClientEvents (h : s.Mirrors clock initial core) (index : Nat)
    (writes : List WriteOutcome) (event : ClientEvent) (client : Client) :
    let result := handleClientEvents (Core.execute clock) (Core.flush writes) event client core
    ∃ actions : List Action, (∀ action ∈ actions, action.Sees (· = core.status) ticks) ∧
      (s.run actions).Mirrors clock initial result.state ∧
      (s.run actions).answered =
        s.answered ++ result.answers.filterMap (Answer.answered clock index) ∧
      ∀ answer ∈ result.answers, ∃ before, before <+: actions ∧
        (s.run before).Mirrors clock initial answer.before := by
  intro result
  obtain ⟨middle, answered, sent⟩ :=
    handleClientEvents_cases (Core.execute clock) (Core.flush writes) event client core
  obtain ⟨actions, sees, mirrors, kept⟩ : ∃ actions : List Action,
      (∀ action ∈ actions, action.Sees (· = core.status) ticks) ∧
      (s.run actions).Mirrors clock initial middle ∧
      (s.run actions).answered =
        s.answered ++ result.answers.filterMap (Answer.answered clock index) ∧
      ∀ answer ∈ result.answers, ∃ before, before <+: actions ∧
        (s.run before).Mirrors clock initial answer.before := by
    rcases answered with ⟨silent, rfl⟩ | ⟨received, answers, rfl⟩
    · rw [silent]
      exact ⟨[], nofun, h, (List.append_nil _).symm, fun _ mem => absurd mem List.not_mem_nil⟩
    · rw [answers]
      exact h.processLoop index received.input received
  refine ⟨actions, sees, ?_, kept⟩
  rcases sent with ⟨_, same⟩ | ⟨_, _, _, flushed⟩
  · rw [same]
    exact mirrors
  · rw [flushed]
    exact mirrors.flush writes

end Core

section Server

variable {clock : Nat → Int} {initial : Core} {s : Sequential} {server : Server}

/-- An action that only touches the counters or the database leaves the answers alone. -/
lemma Sequential.Mirrors.counters {core : Core} (h : s.Mirrors clock initial core)
    (action : Action) {processor : Processor} (same : processor = (s.step action).processor)
    (kept : (s.step action).answered = s.answered ∧ (s.step action).records = s.records) :
    (s.run [action]).Mirrors clock initial { core with processor := processor } := by
  obtain ⟨answered, records⟩ := kept
  have one : s.run [action] = s.step action := rfl
  rw [one]
  refine ⟨same, ?_, ?_, ?_⟩
  · rw [answered]
    exact h.readings
  · rw [answered]
    exact h.times
  · rw [records]
    exact h.log

/-- What a client has been answered, when one connection has been answered more. -/
lemma Server.answeredTo_set {index : Nat} {connection next : Connection Core}
    {answers : List (Answer Core)} {core : Core} (found : server.connections[index]? = some connection)
    (more : next.answers = connection.answers ++ answers) (client : Nat) :
    Server.answeredTo clock ⟨core, server.connections.set index next⟩ client =
      server.answeredTo clock client ++
        (answers.filterMap (Answer.answered clock index)).filter (·.client = client) := by
  have mine : ∀ answered ∈ answers.filterMap (Answer.answered clock index),
      answered.client = index := by
    intro answered mem
    obtain ⟨answer, _, e⟩ := List.mem_filterMap.mp mem
    obtain ⟨_, _, rfl⟩ := Option.map_eq_some_iff.mp e
    rfl
  unfold answeredTo
  by_cases other : client = index
  · subst other
    obtain ⟨inside, _⟩ := List.getElem?_eq_some_iff.mp found
    rw [List.getElem?_set_self inside, found, Option.elim_some, Option.elim_some, more,
      List.filterMap_append, List.filter_eq_self.mpr]
    exact fun answered mem => decide_eq_true (mine answered mem)
  · rw [List.getElem?_set_ne (Ne.symm other), List.filter_eq_nil_iff.mpr, List.append_nil]
    exact fun answered mem same => other ((of_decide_eq_true same).symm.trans (mine answered mem))

/-- A client that has just been accepted has not been answered. -/
lemma Server.answeredTo_concat (core : Core) (client : Nat) :
    Server.answeredTo clock ⟨core, server.connections.concat {}⟩ client =
      server.answeredTo clock client := by
  unfold answeredTo
  rw [List.concat_eq_append]
  rcases lt_trichotomy client server.connections.length with before | rfl | after
  · rw [List.getElem?_append_left before]
  · rw [List.getElem?_concat_length, List.getElem?_eq_none le_rfl]
    rfl
  · rw [List.getElem?_eq_none after.le, List.getElem?_eq_none]
    rw [List.length_append, List.length_singleton]
    exact after

/-- The connections and the answers are the same, and the shared state has changed. -/
lemma Explains.core {actions : List Action} (h : Explains clock initial actions server) {core : Core}
    (mirrors : (Sequential.of initial.processor actions).Mirrors clock initial core) :
    Explains clock initial actions { server with core := core } :=
  ⟨mirrors, h.answers, h.points⟩

/-- An action that answers nothing. -/
lemma Explains.silent {actions : List Action} (h : Explains clock initial actions server)
    (action : Action) {core : Core}
    (mirrors : ((Sequential.of initial.processor actions).run [action]).Mirrors clock initial core)
    (kept : ((Sequential.of initial.processor actions).step action).answered =
      (Sequential.of initial.processor actions).answered) :
    Explains clock initial (actions ++ [action]) { server with core := core } := by
  have next : Sequential.of initial.processor (actions ++ [action]) =
      (Sequential.of initial.processor actions).run [action] := Sequential.run_append _ _ _
  refine ⟨next ▸ mirrors, fun client => ?_, fun connection mem answer given => ?_⟩
  · rw [next]
    exact (congrArg _ kept).trans (h.answers client)
  · obtain ⟨before, part, point⟩ := h.points connection mem answer given
    exact ⟨before, part.trans (List.prefix_append _ _), point⟩

/-- One step of the event loop is a sequence of actions. -/
lemma Explains.step {actions : List Action} (h : Explains clock initial actions server)
    (ticks : Int → Prop) (event : ServerEvent)
    (timely : ∀ choices samplesPerLoop now, event = .cycle choices samplesPerLoop now → ticks now) :
    ∃ more : List Action, (∀ action ∈ more, action.Sees (· = server.core.status) ticks) ∧
      Explains clock initial (actions ++ more) (server.step clock event) := by
  cases event with
  | accept =>
    refine ⟨[.accepted (server.acceptClient.core.processor.stats.connectedClients)],
      List.forall_mem_singleton.mpr trivial, ?_⟩
    have joined : Explains clock initial actions
        ⟨server.core, server.connections.concat {}⟩ := by
      refine ⟨h.toMirrors, fun client => ?_, fun connection mem answer given => ?_⟩
      · exact (h.answers client).trans (Server.answeredTo_concat _ client).symm
      · rw [List.concat_eq_append] at mem
        rcases List.mem_append.mp mem with mem | mem
        · exact h.points connection mem answer given
        · rw [List.mem_singleton.mp mem] at given
          cases given
    refine joined.silent _ (h.toMirrors.counters (.accepted _) ?_ ⟨rfl, rfl⟩) rfl
    rw [Sequential.step, ← h.processor]
    rfl
  | cycle choices samplesPerLoop now =>
    refine ⟨[.cycle choices samplesPerLoop now],
      List.forall_mem_singleton.mpr (timely choices samplesPerLoop now rfl),
      h.silent _ (h.toMirrors.counters (.cycle choices samplesPerLoop now) ?_ ⟨rfl, rfl⟩) rfl⟩
    rw [Sequential.step, ← h.processor]
  | sync synced =>
    refine ⟨[], nofun, ?_⟩
    rw [List.append_nil]
    refine h.core ⟨h.processor, h.readings, h.times, ?_⟩
    refine Eq.trans ?_ h.log
    show (server.core.aof.map _).map _ = _
    rw [Option.map_map]
    exact congrArg (server.core.aof.map ·) (funext fun aof => aof.stream_sync synced)
  | client index event writes =>
    show ∃ more : List Action, _ ∧
      Explains clock initial (actions ++ more) (server.handleClient clock index event writes)
    have nothing : ∃ more : List Action,
        (∀ action ∈ more, action.Sees (· = server.core.status) ticks) ∧
        Explains clock initial (actions ++ more) server :=
      ⟨[], nofun, by rwa [List.append_nil]⟩
    unfold Server.handleClient
    split
    · exact nothing
    · rename_i connection found
      split
      · exact nothing
      · rename_i live
        obtain ⟨more, sees, mirrors, answered, points⟩ :=
          h.toMirrors.handleClientEvents index writes event connection.client
        have stepped : connection.step (Core.execute clock) (Core.flush writes)
            (.handle event server.core) =
            let result := FlashKV.handleClientEvents (Core.execute clock) (Core.flush writes) event
              connection.client server.core
            ⟨result.client, connection.answers ++ result.answers, connection.sent ++ result.sent,
              !result.keep⟩ := by
          rw [Connection.step, if_neg live]
        have next : Sequential.of initial.processor (actions ++ more) =
            (Sequential.of initial.processor actions).run more := Sequential.run_append _ _ _
        have explained : Explains clock initial (actions ++ more)
            ⟨(FlashKV.handleClientEvents (Core.execute clock) (Core.flush writes) event
                connection.client server.core).state,
              server.connections.set index (connection.step (Core.execute clock)
                (Core.flush writes) (.handle event server.core))⟩ := by
          refine ⟨next ▸ mirrors, fun client => ?_, fun other mem answer given => ?_⟩
          · rw [Server.answeredTo_set found (by rw [stepped]), ← h.answers client, next, answered,
              List.filter_append]
          · have old : ∀ other ∈ server.connections, answer ∈ other.answers → ∃ before,
                before <+: actions ++ more ∧
                (Sequential.of initial.processor before).Mirrors clock initial answer.before := by
              intro other mem given
              obtain ⟨before, part, point⟩ := h.points other mem answer given
              exact ⟨before, part.trans (List.prefix_append _ _), point⟩
            rcases List.mem_or_eq_of_mem_set mem with mem | rfl
            · exact old other mem given
            · rw [stepped] at given
              rcases List.mem_append.mp given with given | given
              · exact old connection (List.mem_of_getElem? found) given
              · obtain ⟨before, part, point⟩ := points answer given
                refine ⟨actions ++ before, (List.prefix_append_right_inj actions).mpr part, ?_⟩
                have there : Sequential.of initial.processor (actions ++ before) =
                    (Sequential.of initial.processor actions).run before :=
                  Sequential.run_append _ _ _
                rw [there]
                exact point
        dsimp only
        cases gone : (connection.step (Core.execute clock) (Core.flush writes)
            (.handle event server.core)).closed with
        | false => exact ⟨more, sees, explained⟩
        | true =>
          refine ⟨more ++ [.closed (Server.clientCount ⟨server.core, server.connections.set index
            (connection.step (Core.execute clock) (Core.flush writes)
              (.handle event server.core))⟩)], ?_, ?_⟩
          · exact List.forall_mem_append.mpr ⟨sees, List.forall_mem_singleton.mpr trivial⟩
          · rw [← List.append_assoc]
            simp only [if_true]
            refine explained.silent _ (explained.toMirrors.counters (.closed _) ?_ ⟨rfl, rfl⟩) rfl
            rw [Sequential.step, ← explained.processor]

/-- The server before any client has been accepted. -/
lemma explains_start (clock : Nat → Int) (core : Core) :
    Explains clock core [] { core := core } := by
  refine ⟨⟨rfl, rfl, rfl, ?_⟩, fun _ => rfl, nofun⟩
  refine congrArg (core.aof.map ·) (funext fun aof => ?_)
  exact (List.append_nil _).symm

/-- A run is a sequence of actions; what the requests see of the log is what it is on the way. -/
lemma run_explains (allowed : AofStatus → Prop) (ticks : Int → Prop) (clock : Nat → Int)
    (core : Core) (events : List ServerEvent)
    (along : ∀ before after, events = before ++ after →
      allowed (Server.run clock { core := core } before).core.status)
    (timely : ∀ choices samplesPerLoop now,
      .cycle choices samplesPerLoop now ∈ events → ticks now) :
    ∃ actions : List Action, (∀ action ∈ actions, action.Sees allowed ticks) ∧
      Explains clock core actions (Server.run clock { core := core } events) := by
  induction events using List.reverseRecOn with
  | nil => exact ⟨[], nofun, explains_start clock core⟩
  | append_singleton events event ih =>
    obtain ⟨actions, sees, explains⟩ := ih
      (fun before after split => along before (after ++ [event]) (by rw [split, List.append_assoc]))
      (fun choices samplesPerLoop now mem =>
        timely choices samplesPerLoop now (List.mem_append_left _ mem))
    obtain ⟨more, sees', explains'⟩ := explains.step ticks event
      fun choices samplesPerLoop now same =>
        timely choices samplesPerLoop now (by rw [same]; simp)
    refine ⟨actions ++ more, List.forall_mem_append.mpr ⟨sees, fun action mem => ?_⟩, ?_⟩
    · refine (sees' action mem).imp (fun aof same => ?_) fun _ => id
      rw [same]
      exact along events [event] rfl
    · unfold Server.run at explains' ⊢
      rw [List.foldl_append]
      exact explains'

lemma Core.status_attached (core : Core) : core.status.attached = core.aof.isSome := by
  unfold Core.status
  cases core.aof with
  | none => rfl
  | some aof =>
    dsimp only
    split <;> rfl

/-- A log is attached or detached for good. -/
lemma Sequential.Mirrors.attached {core : Core} (h : s.Mirrors clock initial core) :
    core.status.attached = initial.aof.isSome := by
  have log := congrArg Option.isSome h.log
  rw [Option.isSome_map, Option.isSome_map] at log
  exact core.status_attached.trans log

/-- In every state of a run. -/
lemma run_attached (clock : Nat → Int) (core : Core) (events : List ServerEvent) :
    (Server.run clock { core := core } events).core.status.attached = core.aof.isSome := by
  obtain ⟨_, _, explains⟩ := run_explains (fun _ => True) (fun _ => True) clock core events
    (fun _ _ _ => trivial) fun _ _ _ _ => trivial
  exact explains.attached

/-- A request of the sequence is a request that a client has been answered. -/
lemma Explains.answered_mem {initial : Core} {actions : List Action} {server : Server}
    (h : Explains clock initial actions server) :
    ∀ answered ∈ (Sequential.of initial.processor actions).answered,
      ∃ connection ∈ server.connections, ∃ answer ∈ connection.answers,
        answer.answered clock answered.client = some answered := by
  intro answered mem
  have mine : answered ∈ server.answeredTo clock answered.client := by
    rw [← h.answers]
    exact List.mem_filter.mpr ⟨mem, decide_eq_true rfl⟩
  unfold Server.answeredTo at mine
  cases found : server.connections[answered.client]? with
  | none =>
    rw [found] at mine
    cases mine
  | some connection =>
    rw [found] at mine
    obtain ⟨answer, given, e⟩ := List.mem_filterMap.mp mine
    exact ⟨connection, List.mem_of_getElem? found, answer, given, e⟩

/-- Every run of the event loop does what one sequence of actions does, one after the other: the
processor is the same, the log has gained the records of the sequence in its order, every client has
been answered what the sequence answers to its requests, in their order and each in the state that
the sequence is in, and the requests have read the clock one after the other. A request is assumed to
read the clock once, where the source may read it several times in one command. -/
theorem run_sequential (clock : Nat → Int) (core : Core) (events : List ServerEvent) :
    ∃ actions : List Action,
      (∀ action ∈ actions, action.Sees (fun aof => aof.attached = core.aof.isSome)
        fun now => ∃ choices samplesPerLoop, .cycle choices samplesPerLoop now ∈ events) ∧
      Explains clock core actions (Server.run clock { core := core } events) := by
  exact run_explains _ _ clock core events (fun before _ _ => run_attached clock core before)
    fun choices samplesPerLoop now mem => ⟨choices, samplesPerLoop, mem⟩

end Server

/-! ### Requests of one client -/

/-- The text is a request on its own, whatever follows it. -/
def IsRequest (arguments : List Bytes) (text : Bytes) : Prop :=
  ∀ more, parseRespCommand (text ++ more) = completeResult arguments text.length

/-- What has been answered to the bytes of a client, up to what is left of them: the commands in
their order, blank lines being ignored, and at last perhaps a refusal. -/
inductive Served : Bytes → List (Option (List Bytes)) → Bytes → Prop where
  | waits {text} : Served text [] text
  | blank {text rest answered left} :
    IsRequest [] text →
    Served rest answered left →
    Served (text ++ rest) answered left
  | command {text arguments rest answered left} :
    IsRequest arguments text →
    arguments ≠ [] →
    Served rest answered left →
    Served (text ++ rest) (some arguments :: answered) left
  | refused {text rest} :
    (parseRespCommand text).status = .error →
    Served (text ++ rest) [none] (text ++ rest)

/-- The bytes that the event receives. -/
def ClientEvent.received (event : ClientEvent) : Bytes :=
  if event.error then []
  else if event.readable then (recvLoop maxReadsPerEvent event.recvs {}).2.input
  else []

/-- The bytes that the server receives from a client in a step. -/
def Server.hears (client : Nat) (server : Server) : ServerEvent → Bytes
  | .client index event _ =>
    if index = client ∧ (server.connections[index]?.any fun connection => !connection.closed) then
      event.received
    else []
  | _ => []

/-- The bytes that the server receives from a client in a run. -/
def Server.heard (clock : Nat → Int) (client : Nat) : Server → List ServerEvent → Bytes
  | _, [] => []
  | server, event :: events =>
    server.hears client event ++ (server.step clock event).heard clock client events

section Served

variable {text more left : Bytes} {answered : List (Option (List Bytes))}

/-- More bytes arrive. -/
lemma Served.extend (h : Served text answered left) (more : Bytes) :
    Served (text ++ more) answered (left ++ more) := by
  induction h with
  | waits => exact .waits
  | blank request _ ih =>
    rw [List.append_assoc]
    exact .blank request ih
  | command request given _ ih =>
    rw [List.append_assoc]
    exact .command request given ih
  | refused error =>
    rw [List.append_assoc]
    exact .refused error

/-- What is left is answered. Nothing is answered after a refusal. -/
lemma Served.trans (h : Served text answered left) {others : List (Option (List Bytes))}
    {rest : Bytes} (h' : Served left others rest) (last : none ∈ answered → others = [] ∧ rest = left) :
    Served text (answered ++ others) rest := by
  induction h with
  | waits => exact h'
  | blank request _ ih => exact .blank request (ih h' last)
  | command request given _ ih =>
    exact .command request given (ih h' fun mem => last (List.mem_cons_of_mem _ mem))
  | refused error =>
    obtain ⟨rfl, rfl⟩ := last List.mem_cons_self
    exact .refused error

end Served

section Requests

variable {σ : Type} {execute : Execute σ}

/-- A complete request at the front of a text. -/
lemma isRequest_of_complete {text : Bytes} (complete : (parseRespCommand text).status = .complete) :
    ∃ request rest, text = request ++ rest ∧
      text.drop (parseRespCommand text).consumedBytes = rest ∧
      IsRequest (parseRespCommand text).arguments request := by
  obtain ⟨request, rest, split, _, same⟩ := parseRespCommand_local complete
  have whole := same rest
  rw [← split] at whole
  refine ⟨request, rest, split, ?_, same⟩
  have consumed : (parseRespCommand text).consumedBytes = request.length := by
    rw [whole]
    rfl
  rw [consumed, split, List.drop_left]

/-- What the loop of `processInput` answers. -/
lemma processLoop_served (execute : Execute σ) (pending : Bytes) (client : Client) (state : σ) :
    let result := processLoop execute pending client state
    Served pending (result.1.map (·.arguments)) result.2.1.input ∧
    (none ∈ result.1.map (·.arguments) → result.2.1.closeAfterWrite = true) ∧
    (client.closeAfterWrite = true →
      result.1 = [] ∧ result.2.1.input = pending ∧ result.2.1.closeAfterWrite = true) := by
  induction pending, client, state using processLoop_induction execute with
  | stop pending client state h =>
    rw [processLoop_stop h]
    exact ⟨.waits, nofun, fun closed => ⟨rfl, rfl, closed⟩⟩
  | error pending client state live error =>
    rw [processLoop_error live error]
    refine ⟨?_, fun _ => rfl, fun closed => absurd (.inl closed) live⟩
    have refused : Served (pending ++ []) [none] (pending ++ []) := .refused error
    rwa [List.append_nil] at refused
  | blank pending client state live complete blank ih =>
    rw [processLoop_blank live complete blank]
    obtain ⟨served, closes, _⟩ := ih
    obtain ⟨request, rest, split, left, isRequest⟩ := isRequest_of_complete complete
    refine ⟨?_, closes, fun closed => absurd (.inl closed) live⟩
    rw [blank] at isRequest
    rw [left] at served ⊢
    have all := Served.blank isRequest served
    rw [← split] at all
    exact all
  | command pending client state live complete given ih =>
    rw [processLoop_command live complete given]
    obtain ⟨served, closes, _⟩ := ih
    obtain ⟨request, rest, split, left, isRequest⟩ := isRequest_of_complete complete
    refine ⟨?_, fun mem => ?_, fun closed => absurd (.inl closed) live⟩
    · rw [left] at served ⊢
      have all := Served.command isRequest given served
      rw [← split] at all
      exact all
    · rcases List.mem_cons.mp mem with no | mem
      · cases no
      · exact closes mem

/-- Receiving appends to the input. -/
lemma recvLoop_received (reads : Nat) (outcomes : List RecvOutcome) (client : Client) :
    recvLoop reads outcomes client = ((recvLoop reads outcomes {}).1,
      { client with input := client.input ++ (recvLoop reads outcomes {}).2.input }) := by
  induction reads generalizing outcomes client with
  | zero => simp [recvLoop]
  | succ reads ih =>
    cases outcomes with
    | nil => simp [recvLoop]
    | cons outcome outcomes =>
      unfold recvLoop
      cases outcome with
      | received bytes =>
        cases bytes with
        | nil => simp
        | cons b bytes =>
          dsimp only
          split
          · simp
          · rw [ih outcomes { client with input := client.input ++ b :: bytes },
              ih outcomes { ({} : Client) with input := [] ++ b :: bytes }]
            simp
      | interrupted => exact ih outcomes client
      | again => simp
      | failed => simp

/-- Sending leaves the input and the flag alone. -/
lemma sendLoop_input (outcomes : List SendOutcome) (client : Client) :
    (sendLoop outcomes client).2.2.input = client.input ∧
      (sendLoop outcomes client).2.2.closeAfterWrite = client.closeAfterWrite := by
  induction outcomes generalizing client with
  | nil =>
    unfold sendLoop
    split <;> exact ⟨rfl, rfl⟩
  | cons outcome outcomes ih =>
    unfold sendLoop
    split
    · exact ⟨rfl, rfl⟩
    · dsimp only
      split
      · exact ⟨rfl, rfl⟩
      · exact ih client
      · exact ⟨rfl, rfl⟩
      · exact ⟨rfl, rfl⟩
      · exact ih _

lemma writeToClient_input (outcomes : List SendOutcome) (client : Client) :
    (writeToClient outcomes client).2.2.input = client.input ∧
      (writeToClient outcomes client).2.2.closeAfterWrite = client.closeAfterWrite := by
  have compact : ∀ client : Client, client.compact.input = client.input ∧
      client.compact.closeAfterWrite = client.closeAfterWrite := by
    intro client
    unfold Client.compact
    split
    · exact ⟨rfl, rfl⟩
    · split <;> exact ⟨rfl, rfl⟩
  have sent := sendLoop_input outcomes client
  unfold writeToClient
  generalize sendLoop outcomes client = result at sent
  obtain ⟨ending, bytes, client'⟩ := result
  cases ending with
  | failed => exact sent
  | sentAll | blocked => exact ⟨(compact client').1.trans sent.1, (compact client').2.trans sent.2⟩

/-- What is answered when a client that has `pending` left receives more. -/
structure Serves (client : Client) (received : Bytes) (answers : List (Answer σ)) (next : Client) :
    Prop where
  served : Served (client.input ++ received) (answers.map (·.arguments)) next.input
  refuses : none ∈ answers.map (·.arguments) → next.closeAfterWrite = true
  closing : client.closeAfterWrite = true → answers = [] ∧ next.input = client.input ++ received ∧
    next.closeAfterWrite = true

lemma processInput_serves (execute : Execute σ) (client : Client) (received : Bytes) (state : σ) :
    let result := processInput execute { client with input := client.input ++ received } state
    Serves client received result.1 result.2.1 := by
  obtain ⟨served, refuses, closing⟩ := processLoop_served execute
    (client.input ++ received) { client with input := client.input ++ received } state
  exact ⟨served, refuses, closing⟩

lemma readFromClient_serves (outcomes : List RecvOutcome) (client : Client) (state : σ) :
    let result := readFromClient execute outcomes client state
    Serves client (recvLoop maxReadsPerEvent outcomes {}).2.input result.2.1 result.2.2.1 := by
  unfold readFromClient
  rw [recvLoop_received maxReadsPerEvent outcomes client]
  have unread : ∀ received, Serves client received ([] : List (Answer σ))
      { client with input := client.input ++ received } :=
    fun received => ⟨.waits, nofun, fun closed => ⟨rfl, rfl, closed⟩⟩
  cases (recvLoop maxReadsPerEvent outcomes {}).1 with
  | done =>
    dsimp only
    split
    · exact unread _
    · exact processInput_serves execute client _ state
  | peerClosed =>
    obtain ⟨served, _, closing⟩ := processInput_serves execute client
      (recvLoop maxReadsPerEvent outcomes {}).2.input state
    exact ⟨served, fun _ => rfl, fun closed => ⟨(closing closed).1, (closing closed).2.1, rfl⟩⟩
  | failed => exact unread _

lemma handleClientEvents_serves (execute : Execute σ) (flush : σ → σ) (event : ClientEvent)
    (client : Client) (state : σ) :
    let result := handleClientEvents execute flush event client state
    Serves client event.received result.answers result.client := by
  intro result
  obtain ⟨read, isRead⟩ : ∃ read : Bool × List (Answer σ) × Client × σ, read =
      if event.error then (false, [], client, state)
      else if event.readable then readFromClient execute event.recvs client state
      else (true, [], client, state) := ⟨_, rfl⟩
  have unread : Serves client [] ([] : List (Answer σ)) client := by
    refine ⟨?_, nofun, fun closed => ⟨rfl, (List.append_nil _).symm, closed⟩⟩
    rw [List.append_nil]
    exact .waits
  have serves : Serves client event.received read.2.1 read.2.2.1 := by
    rw [isRead, ClientEvent.received]
    split
    · exact unread
    · split
      · exact readFromClient_serves event.recvs client state
      · exact unread
  have answers : result.answers = read.2.1 := by
    simp only [result, handleClientEvents, ← isRead]
  have kept : result.client.input = read.2.2.1.input ∧
      result.client.closeAfterWrite = read.2.2.1.closeAfterWrite := by
    simp only [result, handleClientEvents, ← isRead]
    split
    · exact writeToClient_input event.sends read.2.2.1
    · exact ⟨rfl, rfl⟩
  obtain ⟨input, close⟩ := kept
  rw [answers]
  refine ⟨?_, fun mem => close.trans (serves.refuses mem), fun closed => ?_⟩
  · rw [input]
    exact serves.served
  · obtain ⟨silent, same, closing⟩ := serves.closing closed
    exact ⟨silent, input.trans same, close.trans closing⟩

/-- The answers of a connection are those to the bytes that have been received. -/
structure Connection.Serves (heard : Bytes) (connection : Connection σ) : Prop where
  served : Served heard (connection.answers.map (·.arguments)) connection.client.input
  refuses : none ∈ connection.answers.map (·.arguments) → connection.client.closeAfterWrite = true

lemma Connection.Serves.handle (execute : Execute σ) {connection : Connection σ} {heard : Bytes}
    (h : connection.Serves heard) (live : connection.closed = false) (flush : σ → σ)
    (event : ClientEvent) (state : σ) :
    (connection.step execute flush (.handle event state)).Serves (heard ++ event.received) := by
  obtain ⟨served, refuses⟩ := h
  obtain ⟨more, refuses', closing⟩ :=
    handleClientEvents_serves execute flush event connection.client state
  rw [Connection.step, if_neg (by rw [live]; decide)]
  constructor
  · dsimp only
    rw [List.map_append]
    refine (served.extend event.received).trans more fun mem => ?_
    obtain ⟨silent, same, _⟩ := closing (refuses mem)
    exact ⟨by rw [silent]; rfl, same⟩
  · dsimp only
    rw [List.map_append, List.mem_append]
    rintro (mem | mem)
    · exact (closing (refuses mem)).2.2
    · exact refuses' mem

end Requests

section Heard

variable {clock : Nat → Int} {server : Server} {heard : Nat → Bytes}

lemma Server.heard_concat (client : Nat) (server : Server) (events : List ServerEvent)
    (event : ServerEvent) :
    Server.heard clock client server (events ++ [event]) =
      Server.heard clock client server events ++ (server.run clock events).hears client event := by
  induction events generalizing server with
  | nil => exact List.append_nil _
  | cons first events ih =>
    show server.hears client first ++
      Server.heard clock client (server.step clock first) (events ++ [event]) = _
    rw [ih, ← List.append_assoc]
    rfl

/-- Events of a client that is not connected are ignored. -/
lemma Server.handleClient_gone (clock : Nat → Int) {index : Nat} {event : ClientEvent}
    {writes : List WriteOutcome}
    (gone : ∀ connection, server.connections[index]? = some connection → connection.closed = true) :
    server.handleClient clock index event writes = server := by
  unfold Server.handleClient
  split
  · rfl
  · rename_i connection found
    rw [if_pos (gone connection found)]

/-- Every connection has been answered what it was heard to ask; nothing has been heard from others. -/
structure Server.Serves (heard : Nat → Bytes) (server : Server) : Prop where
  serves : ∀ (client : Nat) (connection : Connection Core),
    server.connections[client]? = some connection → connection.Serves (heard client)
  silent : ∀ client, server.connections[client]? = none → heard client = []

/-- One step of the event loop. -/
lemma Server.Serves.step (h : server.Serves heard) (event : ServerEvent) :
    (server.step clock event).Serves fun client => heard client ++ server.hears client event := by
  have quiet : ∀ {event : ServerEvent} {core : Core}, (∀ client, server.hears client event = []) →
      Server.Serves (fun client => heard client ++ server.hears client event)
        { server with core := core } := by
    intro event core nothing
    constructor
    · intro client connection found
      rw [nothing, List.append_nil]
      exact h.serves client connection found
    · intro client missing
      rw [nothing, List.append_nil]
      exact h.silent client missing
  cases event with
  | accept =>
    have same : ∀ client, server.hears client .accept = [] := fun _ => rfl
    constructor
    · intro client connection found
      rw [same, List.append_nil]
      have found' : (server.connections.concat {})[client]? = some connection := found
      rw [List.concat_eq_append] at found'
      rcases lt_trichotomy client server.connections.length with before | rfl | after
      · rw [List.getElem?_append_left before] at found'
        exact h.serves client connection found'
      · rw [List.getElem?_concat_length] at found'
        cases found'
        rw [h.silent _ (List.getElem?_eq_none le_rfl)]
        exact ⟨.waits, nofun⟩
      · rw [List.getElem?_eq_none (by rw [List.length_append, List.length_singleton]; exact after)]
          at found'
        cases found'
    · intro client missing
      have missing' : (server.connections.concat {})[client]? = none := missing
      rw [List.concat_eq_append, List.getElem?_eq_none_iff, List.length_append] at missing'
      rw [same, List.append_nil]
      exact h.silent client (List.getElem?_eq_none (by omega))
  | cycle choices samplesPerLoop now => exact quiet fun _ => rfl
  | sync synced => exact quiet fun _ => rfl
  | client index event writes =>
    have ignored : (∀ connection, server.connections[index]? = some connection →
        connection.closed = true) →
        (server.step clock (.client index event writes)).Serves fun client =>
          heard client ++ server.hears client (.client index event writes) := by
      intro gone
      have same : server.step clock (.client index event writes) = server :=
        Server.handleClient_gone clock gone
      rw [same]
      refine quiet fun client => if_neg fun both => ?_
      obtain ⟨rfl, live⟩ := both
      obtain ⟨connection, found, isOpen⟩ := (Option.any_eq_true _ _).mp live
      rw [gone connection found] at isOpen
      cases isOpen
    cases found : server.connections[index]? with
    | none => exact ignored fun connection other => by cases found.symm.trans other
    | some connection =>
      cases live : connection.closed with
      | true =>
        refine ignored fun other same => ?_
        cases found.symm.trans same
        exact live
      | false =>
        have inside : index < server.connections.length :=
          (List.getElem?_eq_some_iff.mp found).choose
        obtain ⟨connections, _⟩ := Server.handleClient_spec clock found live event writes
        have next := (h.serves index connection found).handle (Core.execute clock) live
          (Core.flush writes) event server.core
        rw [Connection.step, if_neg (by rw [live]; decide)] at next
        constructor
        · intro client other there
          have there' : (server.handleClient clock index event writes).connections[client]? =
              some other := there
          rw [connections] at there'
          by_cases here : index = client
          · subst here
            rw [List.getElem?_set_self inside] at there'
            cases there'
            rw [Server.hears, if_pos ⟨rfl, by rw [found]; simp [live]⟩]
            exact next
          · rw [List.getElem?_set_ne here] at there'
            rw [Server.hears, if_neg fun both => here both.1, List.append_nil]
            exact h.serves client other there'
        · intro client missing
          have missing' : (server.handleClient clock index event writes).connections[client]? =
              none := missing
          rw [connections, List.getElem?_eq_none_iff, List.length_set] at missing'
          rw [Server.hears, if_neg fun both => by omega, List.append_nil]
          exact h.silent client (List.getElem?_eq_none missing')

end Heard

/-- In every run. -/
lemma Server.run_servesAll (clock : Nat → Int) (core : Core) (events : List ServerEvent) :
    (Server.run clock { core := core } events).Serves fun client =>
      Server.heard clock client { core := core } events := by
  induction events using List.reverseRecOn with
  | nil => exact ⟨nofun, fun _ _ => rfl⟩
  | append_singleton events event ih =>
    simp only [Server.heard_concat]
    unfold Server.run
    rw [List.foldl_append]
    exact ih.step event

lemma Server.Serves.served {heard : Nat → Bytes} {server : Server} (h : server.Serves heard)
    (client : Nat) :
    let connection := server.connections[client]?.getD {}
    Served (heard client) (connection.answers.map (·.arguments)) connection.client.input := by
  cases found : server.connections[client]? with
  | none =>
    rw [h.silent client found]
    exact .waits
  | some connection => exact (h.serves client connection found).served

/-- Whatever the order in which clients send, and however their bytes are cut, the server answers to
each client exactly the commands at the front of the bytes it has received from it, each one once and
in their order; it keeps what is left of the bytes, and after a refusal it answers nothing more. -/
theorem run_serves (clock : Nat → Int) (core : Core) (events : List ServerEvent) (client : Nat) :
    let connection := (Server.run clock { core := core } events).connections[client]?.getD {}
    Served (Server.heard clock client { core := core } events) (connection.answers.map (·.arguments))
      connection.client.input :=
  (Server.run_servesAll clock core events).served client

end FlashKV
