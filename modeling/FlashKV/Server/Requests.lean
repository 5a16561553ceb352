import FlashKV.Resp.InlineLimit
import FlashKV.Server.History

/-!
# The requests of the clients

A client that stays connected has no complete request left in its input, and what is left of an
inline request is short. So a line that the parser comes to is never longer than that and what one
event receives, and every request that is executed is within the limits of an array, inline or not.
-/

namespace FlashKV

/-- The input ends inside a request. -/
def Waiting (input : Bytes) : Prop :=
  (parseRespCommand input).status = .incomplete

/-- `recv` fills no more than the buffer it is given. -/
def ClientEvent.Fits (event : ClientEvent) : Prop :=
  ∀ bytes, .received bytes ∈ event.recvs → bytes.length ≤ readChunkSize

def ServerEvent.Fits : ServerEvent → Prop
  | .client _ event _ => event.Fits
  | _ => True

/-- What one event receives at most. -/
def maxReceived : Nat := maxReadsPerEvent * readChunkSize

section Sizes

variable {line word value : Bytes} {values : List Bytes}

lemma DoubleQuoted.size (h : DoubleQuoted word value) : value.length ≤ word.length := by
  induction h with
  | nil => exact le_rfl
  | hex _ _ _ ih | escape _ _ _ ih | literal _ _ _ ih =>
    simp only [List.length_cons]
    omega

lemma SingleQuoted.size (h : SingleQuoted word value) : value.length ≤ word.length := by
  induction h with
  | nil => exact le_rfl
  | escape _ ih | literal _ _ _ ih =>
    simp only [List.length_cons]
    omega

/-- A word is not empty and not shorter than what it denotes. -/
lemma Word.size (h : Word word value) : 0 < word.length ∧ value.length ≤ word.length := by
  cases h with
  | bare => exact ⟨Nat.succ_pos _, le_rfl⟩
  | double quoted =>
    have := quoted.size
    simp only [List.length_cons, List.length_append, List.length_nil]
    omega
  | single quoted =>
    have := quoted.size
    simp only [List.length_cons, List.length_append, List.length_nil]
    omega

/-- A line has no more arguments than bytes, and none that is longer than it. -/
lemma CommandLine.size (h : CommandLine line values) :
    values.length ≤ line.length ∧ ∀ value ∈ values, value.length ≤ line.length := by
  induction h with
  | nil => exact ⟨Nat.zero_le _, nofun⟩
  | cons _ word _ _ ih =>
    obtain ⟨pos, size⟩ := word.size
    obtain ⟨count, each⟩ := ih
    simp only [List.length_append, List.length_cons, List.mem_cons]
    refine ⟨by omega, ?_⟩
    rintro value (rfl | mem)
    · omega
    · have := each value mem
      omega

/-- The arguments of an array are within the limits. -/
lemma CommandText.within {arguments : List Bytes} {text : Bytes} (h : CommandText arguments text) :
    WithinLimits arguments := by
  obtain ⟨numeral, count, bulks⟩ := h
  refine ⟨count, ?_⟩
  clear numeral count
  induction bulks with
  | nil => exact nofun
  | cons bulk _ ih =>
    refine List.forall_mem_cons.mpr ⟨?_, ih⟩
    cases bulk
    assumption

end Sizes

section Limits

variable {pending : Bytes}

/-- No line of these texts is too long. -/
def LinesFit (pending : Bytes) : Prop :=
  pending.head? ≠ some 42 → pending.length ≤ maxInlineSize + maxReceived

/-- A complete request is within the limits. -/
lemma parseRespCommand_limits (complete : (parseRespCommand pending).status = .complete)
    (fits : LinesFit pending) : WithinLimits (parseRespCommand pending).arguments := by
  by_cases array : pending.head? = some 42
  · obtain ⟨tail, rfl⟩ := List.head?_eq_some_iff.mp array
    obtain ⟨text, rest, _, command, _⟩ := parseRespCommand_front rfl complete
    exact command.within
  · have short := fits array
    rw [parseRespCommand_inline array] at complete ⊢
    have closed : 10 ∈ pending := by
      by_contra isOpen
      rw [parseInlineCommand_open isOpen] at complete
      split at complete <;> cases complete
    obtain ⟨line, rest, rfl, isOpen⟩ := List.eq_append_cons_of_mem closed
    rw [parseInlineCommand_closed isOpen] at complete ⊢
    cases tokens : tokenizeCommandLine line with
    | none =>
      rw [tokens] at complete
      cases complete
    | some arguments =>
      obtain ⟨count, each⟩ := (tokenizeCommandLine_sound tokens).size
      have bound : line.length ≤ maxInlineSize + maxReceived := by
        rw [List.length_append] at short
        omega
      have limit : maxInlineSize + maxReceived ≤ maxArguments ∧ maxArguments ≤ maxBulkSize := by
        decide
      exact ⟨count.trans (bound.trans limit.1),
        fun argument mem => (each argument mem).trans (bound.trans (limit.1.trans limit.2))⟩

/-- What is left of an inline request is short. -/
lemma Waiting.inline (h : Waiting pending) (inline : pending.head? ≠ some 42) :
    pending.length ≤ maxInlineSize := by
  unfold Waiting at h
  rw [parseRespCommand_inline inline] at h
  by_cases closed : 10 ∈ pending
  · obtain ⟨line, rest, rfl, isOpen⟩ := List.eq_append_cons_of_mem closed
    rw [parseInlineCommand_closed isOpen] at h
    cases tokens : tokenizeCommandLine line with
    | none =>
      rw [tokens] at h
      cases h
    | some arguments =>
      rw [tokens] at h
      cases h
  · by_contra long
    rw [(refused_open closed).mpr (Nat.lt_of_not_le long)] at h
    cases h

/-- A request that was not complete before takes up more than what was there before. -/
lemma Waiting.consumed {input received request rest : Bytes} {arguments : List Bytes}
    (h : Waiting input) (isRequest : IsRequest arguments request)
    (split : input ++ received = request ++ rest) : rest.length ≤ received.length := by
  rcases List.append_eq_append_iff.mp split with ⟨more, e, rfl⟩ | ⟨more, rfl, rfl⟩
  · rw [List.length_append]
    exact Nat.le_add_left _ _
  · have complete := isRequest more
    unfold Waiting at h
    rw [complete] at h
    cases h

end Limits

section Loop

variable {σ : Type} {execute : Execute σ}

/-- The commands that have been answered are within the limits. -/
def AnswersFit (answers : List (Answer σ)) : Prop :=
  ∀ answer ∈ answers, ∀ arguments, answer.arguments = some arguments → WithinLimits arguments

/-- The loop of `processInput` on a text whose lines fit, and what it stops at. -/
lemma processLoop_limits (pending : Bytes) (client : Client) (state : σ) :
    let result := processLoop execute pending client state
    (pending.length ≤ maxInlineSize + maxReceived → AnswersFit result.1) ∧
    (result.2.1.closeAfterWrite = true ∨ Waiting result.2.1.input) ∧
    result.2.1.input.length ≤ pending.length := by
  induction pending, client, state using processLoop_induction execute with
  | stop pending client state h =>
    rw [processLoop_stop h]
    refine ⟨fun _ => nofun, ?_, le_rfl⟩
    rcases h with closed | rfl | waits
    · exact .inl closed
    · exact .inr rfl
    · exact .inr waits
  | error pending client state live error =>
    rw [processLoop_error live error]
    refine ⟨fun _ answer mem arguments given => ?_, .inl rfl, le_rfl⟩
    rw [List.mem_singleton.mp mem] at given
    cases given
  | blank pending client state live complete blank ih =>
    rw [processLoop_blank live complete blank]
    obtain ⟨fits, stops, shorter⟩ := ih
    rw [List.length_drop] at fits shorter
    exact ⟨fun short => fits (by omega), stops, shorter.trans (Nat.sub_le _ _)⟩
  | command pending client state live complete given ih =>
    rw [processLoop_command live complete given]
    obtain ⟨fits, stops, shorter⟩ := ih
    rw [List.length_drop] at fits shorter
    refine ⟨fun short => ?_, stops, shorter.trans (Nat.sub_le _ _)⟩
    intro answer mem arguments same
    rcases List.mem_cons.mp mem with rfl | mem
    · cases same
      exact parseRespCommand_limits complete fun _ => short
    · exact fits (by omega) answer mem arguments same

/-- The loop on what was left of the input and what has been received now. -/
lemma processInput_limits (execute : Execute σ) {client : Client} {received : Bytes} (state : σ)
    (waits : client.closeAfterWrite = true ∨ Waiting client.input)
    (short : received.length ≤ maxReceived) :
    let result := processInput execute { client with input := client.input ++ received } state
    AnswersFit result.1 ∧ (result.2.1.closeAfterWrite = true ∨ Waiting result.2.1.input) ∧
    result.2.1.input.length ≤ (client.input ++ received).length := by
  intro result
  refine ⟨?_, (processLoop_limits _ _ state).2⟩
  show AnswersFit (processLoop execute (client.input ++ received) _ state).1
  generalize next : ({ client with input := client.input ++ received } : Client) = client'
  have same : client'.closeAfterWrite = client.closeAfterWrite := by rw [← next]
  by_cases stops : client'.closeAfterWrite = true ∨ client.input ++ received = []
  · rw [processLoop_stop (stops.imp_right .inl)]
    exact nofun
  · have waiting : Waiting client.input := waits.resolve_left fun closed => stops (.inl (same.trans closed))
    have fits : LinesFit (client.input ++ received) := by
      intro inline
      rw [List.length_append]
      cases empty : client.input with
      | nil =>
        rw [List.length_nil]
        omega
      | cons first rest =>
        rw [empty] at inline waiting
        have := waiting.inline inline
        omega
    -- what follows the first request has been received now
    have later : ∀ complete : (parseRespCommand (client.input ++ received)).status = .complete,
        ((client.input ++ received).drop
          (parseRespCommand (client.input ++ received)).consumedBytes).length ≤
        maxInlineSize + maxReceived := by
      intro complete
      obtain ⟨request, rest, split, left, isRequest⟩ := isRequest_of_complete complete
      have := waiting.consumed isRequest split
      rw [left]
      omega
    cases status : (parseRespCommand (client.input ++ received)).status with
    | incomplete =>
      rw [processLoop_stop (.inr (.inr status))]
      exact nofun
    | error =>
      rw [processLoop_error stops status]
      intro answer mem arguments given
      rw [List.mem_singleton.mp mem] at given
      cases given
    | complete =>
      by_cases given : (parseRespCommand (client.input ++ received)).arguments = []
      · rw [processLoop_blank stops status given]
        exact (processLoop_limits _ client' state).1 (later status)
      · rw [processLoop_command stops status given]
        intro answer mem arguments asked
        rcases List.mem_cons.mp mem with rfl | mem
        · cases asked
          exact parseRespCommand_limits status fits
        · exact (processLoop_limits _ _ _).1 (later status) answer mem arguments asked

/-- What one event receives. -/
lemma recvLoop_size {outcomes : List RecvOutcome}
    (fits : ∀ bytes, .received bytes ∈ outcomes → bytes.length ≤ readChunkSize) (reads : Nat) :
    (recvLoop reads outcomes {}).2.input.length ≤ reads * readChunkSize := by
  induction reads generalizing outcomes with
  | zero =>
    rw [recvLoop]
    exact Nat.zero_le _
  | succ reads ih =>
    cases outcomes with
    | nil => exact Nat.zero_le _
    | cons outcome outcomes =>
      have ih := ih fun bytes mem => fits bytes (List.mem_cons_of_mem _ mem)
      have more : reads * readChunkSize ≤ (reads + 1) * readChunkSize := by
        rw [Nat.add_mul]
        exact Nat.le_add_right _ _
      unfold recvLoop
      cases outcome with
      | received bytes =>
        cases bytes with
        | nil => exact Nat.zero_le _
        | cons b bytes =>
          have chunk := fits _ List.mem_cons_self
          dsimp only
          split
          · rw [List.nil_append, Nat.add_mul, Nat.one_mul]
            exact chunk.trans (Nat.le_add_left _ _)
          · rw [recvLoop_received]
            dsimp only
            rw [List.nil_append, List.length_append, Nat.add_mul, Nat.one_mul]
            omega
      | interrupted => exact ih.trans more
      | again | failed => exact Nat.zero_le _

/-- A client that stays connected is about to be closed, or it waits for the rest of a request and
does not hold too much of it. -/
def Client.Quiet (client : Client) : Prop :=
  client.closeAfterWrite = true ∨ Waiting client.input ∧ client.input.length ≤ maxQueryBuffer

lemma readFromClient_limits {outcomes : List RecvOutcome}
    (fits : ∀ bytes, .received bytes ∈ outcomes → bytes.length ≤ readChunkSize) {client : Client}
    (quiet : client.Quiet) (state : σ) :
    let result := readFromClient execute outcomes client state
    AnswersFit result.2.1 ∧ (result.1 = true → result.2.2.1.Quiet) := by
  have received := recvLoop_size fits maxReadsPerEvent
  obtain ⟨answers, stops, shorter⟩ := processInput_limits execute state
    (quiet.imp_right And.left) received
  unfold readFromClient
  rw [recvLoop_received maxReadsPerEvent outcomes client]
  cases (recvLoop maxReadsPerEvent outcomes {}).1 with
  | peerClosed => exact ⟨answers, fun _ => .inl rfl⟩
  | failed => exact ⟨nofun, nofun⟩
  | done =>
    dsimp only
    split
    · exact ⟨nofun, nofun⟩
    · rename_i small
      exact ⟨answers, fun _ => stops.imp_right fun waits =>
        ⟨waits, shorter.trans (Nat.le_of_not_lt small)⟩⟩

lemma handleClientEvents_limits (execute : Execute σ) (flush : σ → σ) {event : ClientEvent}
    (fits : event.Fits) {client : Client} (quiet : client.Quiet) (state : σ) :
    let result := handleClientEvents execute flush event client state
    AnswersFit result.answers ∧ (result.keep = true → result.client.Quiet) := by
  intro result
  obtain ⟨read, isRead⟩ : ∃ read : Bool × List (Answer σ) × Client × σ, read =
      if event.error then (false, [], client, state)
      else if event.readable then readFromClient execute event.recvs client state
      else (true, [], client, state) := ⟨_, rfl⟩
  have limits : AnswersFit read.2.1 ∧ (read.1 = true → read.2.2.1.Quiet) := by
    rw [isRead]
    split
    · exact ⟨nofun, nofun⟩
    · split
      · exact readFromClient_limits fits quiet state
      · exact ⟨nofun, fun _ => quiet⟩
  have answers : result.answers = read.2.1 := by
    simp only [result, handleClientEvents, ← isRead]
  have kept : result.client.input = read.2.2.1.input ∧
      result.client.closeAfterWrite = read.2.2.1.closeAfterWrite ∧
      (result.keep = true → read.1 = true) := by
    simp only [result, handleClientEvents, ← isRead]
    split
    · rename_i writes
      obtain ⟨input, close⟩ := writeToClient_input event.sends read.2.2.1
      exact ⟨input, close, fun _ => writes.1⟩
    · exact ⟨rfl, rfl, fun keep => (Bool.and_eq_true_iff.mp keep).1⟩
  obtain ⟨input, close, live⟩ := kept
  rw [answers]
  refine ⟨limits.1, fun keep => ?_⟩
  have quiet := limits.2 (live keep)
  unfold Client.Quiet at quiet ⊢
  rw [input, close]
  exact quiet

end Loop

/-! ### Every client -/

/-- What holds of a connection whatever it receives. -/
structure Connection.Limited {σ : Type} (connection : Connection σ) : Prop where
  answers : AnswersFit connection.answers
  quiet : connection.closed = false → connection.client.Quiet

section Server

variable {clock : Nat → Int} {server : Server}

lemma connection_limited_start {σ : Type} : ({} : Connection σ).Limited :=
  ⟨nofun, fun _ => .inr ⟨rfl, Nat.zero_le _⟩⟩

/-- One step of the event loop. -/
lemma Server.step_limited (limited : ∀ connection ∈ server.connections, connection.Limited)
    {event : ServerEvent} (fits : event.Fits) :
    ∀ connection ∈ (server.step clock event).connections, connection.Limited := by
  cases event with
  | accept =>
    intro connection mem
    have mem' : connection ∈ server.connections.concat {} := mem
    rw [List.concat_eq_append] at mem'
    rcases List.mem_append.mp mem' with mem | mem
    · exact limited connection mem
    · rw [List.mem_singleton.mp mem]
      exact connection_limited_start
  | cycle | sync => exact limited
  | client index event writes =>
    show ∀ connection ∈ (server.handleClient clock index event writes).connections, _
    unfold Server.handleClient
    split
    · exact limited
    · rename_i connection found
      split
      · exact limited
      · rename_i live
        intro other mem
        rcases List.mem_or_eq_of_mem_set mem with mem | rfl
        · exact limited other mem
        · obtain ⟨answers, quiet⟩ := limited connection (List.mem_of_getElem? found)
          obtain ⟨more, stays⟩ := handleClientEvents_limits (Core.execute clock)
            (Core.flush writes) fits (quiet (Bool.eq_false_of_not_eq_true live)) server.core
          rw [Connection.step, if_neg live]
          refine ⟨fun answer mem => ?_, fun open_ => stays (by simpa using open_)⟩
          exact (List.mem_append.mp mem).elim (answers answer) (more answer)

/-- In every run. -/
lemma run_limited (clock : Nat → Int) (core : Core) (events : List ServerEvent)
    (fits : ∀ event ∈ events, event.Fits) :
    ∀ connection ∈ (Server.run clock { core := core } events).connections, connection.Limited := by
  refine List.foldlRecOn
    (motive := fun server : Server => ∀ connection ∈ server.connections, connection.Limited) events _
    nofun ?_
  exact fun server limited event mem => Server.step_limited limited (fits event mem)

/-- In every state of the event loop a client that is connected is about to be closed, or all
complete requests that it has sent are answered: what it still has in its input is the beginning of
a request, no longer than the limit of the query buffer, and than that of a line if it is inline. -/
theorem run_waits (clock : Nat → Int) (core : Core) (events : List ServerEvent)
    (fits : ∀ event ∈ events, event.Fits) (client : Nat) :
    let connection := (Server.run clock { core := core } events).connections[client]?.getD {}
    connection.closed = true ∨ connection.client.closeAfterWrite = true ∨
      (parseRespCommand connection.client.input).status = .incomplete ∧
      connection.client.input.length ≤ maxQueryBuffer ∧
      (connection.client.input.head? ≠ some 42 →
        connection.client.input.length ≤ maxInlineSize) := by
  intro connection
  have limited : connection.Limited := by
    cases found : (Server.run clock { core := core } events).connections[client]? with
    | none =>
      have fresh : connection = {} := by simp only [connection, found, Option.getD_none]
      rw [fresh]
      exact connection_limited_start
    | some other =>
      have same : connection = other := by simp only [connection, found, Option.getD_some]
      rw [same]
      exact run_limited clock core events fits other (List.mem_of_getElem? found)
  cases isOpen : connection.closed with
  | true => exact .inl rfl
  | false =>
    refine .inr ((limited.quiet isOpen).imp_right fun waits => ?_)
    exact ⟨waits.1, waits.2, waits.1.inline⟩

/-- A client that has sent one request and a part of another. -/
theorem run_waits_partial :
    let events : List ServerEvent := [.accept, .client 0
      { readable := true, recvs := [.received (ascii "PING\r\n*1\r\n")] } []]
    let server := Server.run (fun _ => 0) { core := {} } events
    let connection : Connection Core := server.connections[0]?.getD {}
    connection.closed = true ∨ connection.client.closeAfterWrite = true ∨
      (parseRespCommand connection.client.input).status = .incomplete ∧
      connection.client.input.length ≤ maxQueryBuffer ∧
      (connection.client.input.head? ≠ some 42 →
        connection.client.input.length ≤ maxInlineSize) := by
  refine run_waits (fun _ => 0) {} _ (fun event mem => ?_) 0
  rcases List.mem_cons.mp mem with rfl | mem
  · trivial
  · rw [List.mem_singleton.mp mem]
    intro bytes received
    cases List.mem_singleton.mp received
    decide

end Server

end FlashKV
