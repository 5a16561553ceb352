import FlashKV.Server.Chunks

/-!
# A client's output stream

Replies are appended to the output, sent in pieces and compacted. Whatever the sizes of the pieces,
the bytes that have been sent followed by those that have not are the answers in order; and a
connection that is to be closed after its output is closed only when all of it has been sent.
-/

namespace FlashKV

/-- The bytes that have not been sent. -/
def Client.unsent (client : Client) : Bytes :=
  client.output.drop client.outputOffset

/-- The bytes of some answers. -/
def payloads {σ : Type} (answers : List (Answer σ)) : Bytes :=
  (answers.map (·.payload)).flatten

lemma payloads_append {σ : Type} (first second : List (Answer σ)) :
    payloads (first ++ second) = payloads first ++ payloads second := by
  simp [payloads]

/-- The offset is a position in the output. -/
def Client.Positioned (client : Client) : Prop :=
  client.outputOffset ≤ client.output.length

section Client

variable {client : Client}

lemma Client.Positioned.pendingOutput (h : client.Positioned) :
    client.pendingOutput = client.unsent.length := by
  rw [Client.pendingOutput, subSize_of_le h, Client.unsent, List.length_drop]

/-- Compacting changes nothing that counts. -/
lemma Client.Positioned.compact (h : client.Positioned) :
    client.compact.Positioned ∧ client.compact.unsent = client.unsent ∧
      client.compact.closeAfterWrite = client.closeAfterWrite := by
  unfold Client.compact
  split
  · rename_i whole
    refine ⟨le_rfl, ?_, rfl⟩
    rw [Client.unsent, Client.unsent, whole, List.drop_length]
    rfl
  · split
    · exact ⟨Nat.zero_le _, rfl, rfl⟩
    · exact ⟨h, rfl, rfl⟩

end Client

/-- What the loop of `writeToClient` does. -/
lemma sendLoop_spec (outcomes : List SendOutcome) {client : Client} (h : client.Positioned) :
    let result := sendLoop outcomes client
    result.2.2.Positioned ∧ result.2.1 ++ result.2.2.unsent = client.unsent ∧
    result.2.2.closeAfterWrite = client.closeAfterWrite ∧
    (result.1 = .failed → .failed ∈ outcomes ∨ .sent 0 ∈ outcomes) := by
  induction outcomes generalizing client with
  | nil =>
    unfold sendLoop
    split <;> exact ⟨h, rfl, rfl, fun failed => by cases failed⟩
  | cons outcome outcomes ih =>
    unfold sendLoop
    split
    · exact ⟨h, rfl, rfl, fun failed => by cases failed⟩
    · dsimp only
      split
      · exact ⟨h, rfl, rfl, fun failed => by cases failed⟩
      · obtain ⟨positioned, stream, close, fails⟩ := ih h
        refine ⟨positioned, stream, close, fun failed => ?_⟩
        exact (fails failed).imp (List.mem_cons_of_mem _) (List.mem_cons_of_mem _)
      · exact ⟨h, rfl, rfl, fun _ => by simp⟩
      · exact ⟨h, rfl, rfl, fun _ => by simp⟩
      · rename_i count _
        have moved : client.outputOffset + min count client.pendingOutput ≤ client.output.length := by
          rw [h.pendingOutput, Client.unsent, List.length_drop]
          have := h
          unfold Client.Positioned at this
          omega
        obtain ⟨positioned, stream, close, fails⟩ := @ih { client with
          outputOffset := client.outputOffset + min count client.pendingOutput } moved
        refine ⟨positioned, ?_, close, fun failed => ?_⟩
        · rw [List.append_assoc, stream, Client.unsent, Client.unsent, substr, ← List.drop_drop,
            List.take_append_drop]
        · exact (fails failed).imp (List.mem_cons_of_mem _) (List.mem_cons_of_mem _)

lemma writeToClient_sent (outcomes : List SendOutcome) (client : Client) :
    (writeToClient outcomes client).2.1 = (sendLoop outcomes client).2.1 := by
  unfold writeToClient
  generalize sendLoop outcomes client = result
  obtain ⟨ending, bytes, client'⟩ := result
  cases ending <;> rfl

/-- Nothing is sent unless a call of `send` accepts something. -/
lemma writeToClient_silent {outcomes : List SendOutcome} (refused : acceptsByte outcomes = false)
    (client : Client) : (writeToClient outcomes client).2.1 = [] := by
  have none_ : accepted outcomes 1 = 0 := Nat.eq_zero_of_not_pos (of_decide_eq_false refused)
  rw [writeToClient_sent]
  clear refused
  induction outcomes with
  | nil =>
    unfold sendLoop
    split <;> rfl
  | cons outcome outcomes ih =>
    unfold sendLoop
    split
    · rfl
    · cases outcome with
      | again | failed => rfl
      | interrupted => exact ih none_
      | sent count =>
        cases count with
        | zero => rfl
        | succ count =>
          rw [accepted, if_neg (Nat.succ_ne_zero count)] at none_
          omega

/-- What `writeToClient` does. -/
lemma writeToClient_spec (outcomes : List SendOutcome) {client : Client} (h : client.Positioned) :
    let result := writeToClient outcomes client
    result.2.2.Positioned ∧ result.2.1 ++ result.2.2.unsent = client.unsent ∧
    result.2.2.closeAfterWrite = client.closeAfterWrite ∧
    (result.1 = false → .failed ∈ outcomes ∨ .sent 0 ∈ outcomes) := by
  have spec := sendLoop_spec outcomes h
  unfold writeToClient
  generalize sendLoop outcomes client = result at spec
  obtain ⟨ending, bytes, client'⟩ := result
  obtain ⟨positioned, stream, close, fails⟩ := spec
  obtain ⟨positioned', same, close'⟩ := positioned.compact
  split
  · rename_i e
    cases e
    exact ⟨positioned, stream, close, fun _ => fails rfl⟩
  · rename_i e
    cases e
    exact ⟨positioned', same ▸ stream, close'.trans close, fun failed => by cases failed⟩

section Input

variable {σ : Type} (execute : Execute σ)

/-- What the loop of `processInput` does to the output. -/
lemma processLoop_output (pending : Bytes) (client : Client) (state : σ) :
    let result := processLoop execute pending client state
    result.2.1.output = client.output ++ payloads result.1 ∧
    result.2.1.outputOffset = client.outputOffset ∧
    (client.closeAfterWrite = true → result.1 = [] ∧ result.2.1.closeAfterWrite = true) := by
  induction pending, client, state using processLoop_induction execute with
  | stop pending client state h =>
    rw [processLoop_stop h]
    exact ⟨(List.append_nil _).symm, rfl, fun closed => ⟨rfl, closed⟩⟩
  | error pending client state live error =>
    rw [processLoop_error live error]
    refine ⟨?_, rfl, fun closed => absurd (.inl closed) live⟩
    simp [payloads]
  | blank pending client state live complete blank ih =>
    rw [processLoop_blank live complete blank]
    exact ih
  | command pending client state live complete given ih =>
    rw [processLoop_command live complete given]
    obtain ⟨output, offset, _⟩ := ih
    refine ⟨?_, offset, fun closed => absurd (.inl closed) live⟩
    exact output.trans (List.append_assoc _ _ _)

/-- `processInput` appends its answers to the output. -/
lemma processInput_spec {client : Client} (h : client.Positioned) (state : σ) :
    let result := processInput execute client state
    result.2.1.Positioned ∧ result.2.1.unsent = client.unsent ++ payloads result.1 ∧
    (client.closeAfterWrite = true → result.1 = [] ∧ result.2.1.closeAfterWrite = true) := by
  obtain ⟨output, offset, closed⟩ := processLoop_output execute client.input client state
  refine ⟨?_, ?_, closed⟩
  · rw [Client.Positioned, processInput, offset, output, List.length_append]
    exact h.trans (Nat.le_add_right _ _)
  · rw [Client.unsent, processInput, offset, output, List.drop_append_of_le_length h]
    rfl

/-- Receiving only changes the input. -/
lemma recvLoop_spec (reads : Nat) (outcomes : List RecvOutcome) (client : Client) :
    let result := recvLoop reads outcomes client
    result.2 = { client with input := result.2.input } ∧
    (result.1 = .failed → .failed ∈ outcomes) := by
  induction reads generalizing outcomes client with
  | zero => exact ⟨rfl, fun failed => by cases failed⟩
  | succ reads ih =>
    cases outcomes with
    | nil => exact ⟨rfl, fun failed => by cases failed⟩
    | cons outcome outcomes =>
      unfold recvLoop
      dsimp only
      split
      · exact ⟨rfl, fun failed => by cases failed⟩
      · split
        · exact ⟨rfl, fun failed => by cases failed⟩
        · rename_i bytes _ _
          obtain ⟨same, fails⟩ := ih outcomes { client with input := client.input ++ bytes }
          exact ⟨same, fun failed => List.mem_cons_of_mem _ (fails failed)⟩
      · obtain ⟨same, fails⟩ := ih outcomes client
        exact ⟨same, fun failed => List.mem_cons_of_mem _ (fails failed)⟩
      · exact ⟨rfl, fun failed => by cases failed⟩
      · exact ⟨rfl, fun _ => by simp⟩

/-- What `readFromClient` does. -/
lemma readFromClient_spec (outcomes : List RecvOutcome) {client : Client} (h : client.Positioned)
    (state : σ) :
    let result := readFromClient execute outcomes client state
    result.2.2.1.Positioned ∧ result.2.2.1.unsent = client.unsent ++ payloads result.2.1 ∧
    (client.closeAfterWrite = true → result.2.1 = [] ∧ result.2.2.1.closeAfterWrite = true) ∧
    (result.1 = false → .failed ∈ outcomes ∨
      (recvLoop maxReadsPerEvent outcomes client).2.input.length > maxQueryBuffer) := by
  obtain ⟨same, fails⟩ := recvLoop_spec maxReadsPerEvent outcomes client
  have received : (recvLoop maxReadsPerEvent outcomes client).2.Positioned := by
    rw [same]
    exact h
  have unsent : (recvLoop maxReadsPerEvent outcomes client).2.unsent = client.unsent := by
    rw [same]
    rfl
  have close : (recvLoop maxReadsPerEvent outcomes client).2.closeAfterWrite =
      client.closeAfterWrite := by
    rw [same]
  unfold readFromClient
  generalize recvLoop maxReadsPerEvent outcomes client = result at fails received unsent close
  obtain ⟨ending, client'⟩ := result
  obtain ⟨positioned, appended, closed⟩ := processInput_spec execute received state
  rw [unsent] at appended
  rw [close] at closed
  cases ending with
  | done =>
    dsimp only
    split
    · rename_i large
      refine ⟨received, ?_, fun closed => ⟨rfl, close.trans closed⟩, fun _ => .inr large⟩
      exact unsent.trans (List.append_nil _).symm
    · exact ⟨positioned, appended, closed, fun failed => by cases failed⟩
  | peerClosed =>
    exact ⟨positioned, appended, fun was => ⟨(closed was).1, rfl⟩, fun failed => by cases failed⟩
  | failed =>
    refine ⟨received, ?_, fun closed => ⟨rfl, close.trans closed⟩, fun _ => .inl (fails rfl)⟩
    exact unsent.trans (List.append_nil _).symm

/-- Why a connection may be closed before all its output has been sent. -/
def ClientEvent.Fails (client : Client) (event : ClientEvent) : Prop :=
  event.error = true ∨ .failed ∈ event.recvs ∨
  (recvLoop maxReadsPerEvent event.recvs client).2.input.length > maxQueryBuffer ∨
  .failed ∈ event.sends ∨ .sent 0 ∈ event.sends

/-- What `handleClientEvents` does. -/
lemma handleClientEvents_spec (flush : σ → σ) (event : ClientEvent) {client : Client}
    (h : client.Positioned) (state : σ) :
    let result := handleClientEvents execute flush event client state
    result.client.Positioned ∧
    result.sent ++ result.client.unsent = client.unsent ++ payloads result.answers ∧
    (client.closeAfterWrite = true →
      result.answers = [] ∧ result.client.closeAfterWrite = true) ∧
    (result.keep = false → event.Fails client ∨
      result.client.closeAfterWrite = true ∧ result.client.unsent = []) := by
  intro result
  -- the part that reads
  obtain ⟨read, isRead⟩ : ∃ read : Bool × List (Answer σ) × Client × σ, read =
      if event.error then (false, [], client, state)
      else if event.readable then readFromClient execute event.recvs client state
      else (true, [], client, state) := ⟨_, rfl⟩
  have spec : read.2.2.1.Positioned ∧ read.2.2.1.unsent = client.unsent ++ payloads read.2.1 ∧
      (client.closeAfterWrite = true → read.2.1 = [] ∧ read.2.2.1.closeAfterWrite = true) ∧
      (read.1 = false → event.Fails client) := by
    rw [isRead]
    split
    · rename_i error
      exact ⟨h, (List.append_nil _).symm, fun closed => ⟨rfl, closed⟩, fun _ => .inl error⟩
    · split
      · obtain ⟨positioned, appended, closed, fails⟩ :=
          readFromClient_spec execute event.recvs h state
        refine ⟨positioned, appended, closed, fun gone => ?_⟩
        rcases fails gone with failed | large
        · exact .inr (.inl failed)
        · exact .inr (.inr (.inl large))
      · exact ⟨h, (List.append_nil _).symm, fun closed => ⟨rfl, closed⟩, fun gone => by cases gone⟩
  obtain ⟨positioned, appended, closed, fails⟩ := spec
  by_cases writes : read.1 ∧ read.2.2.1.pendingOutput > 0
  · -- the part that writes
    obtain ⟨positioned', stream, close, fails'⟩ := writeToClient_spec event.sends positioned
    have wrote : result = ⟨(writeToClient event.sends read.2.2.1).1 &&
        !((writeToClient event.sends read.2.2.1).2.2.closeAfterWrite &&
          (writeToClient event.sends read.2.2.1).2.2.pendingOutput = 0), read.2.1,
        (writeToClient event.sends read.2.2.1).2.1, (writeToClient event.sends read.2.2.1).2.2,
        flush read.2.2.2⟩ := by
      simp only [result, handleClientEvents, ← isRead, if_pos writes]
    rw [wrote]
    refine ⟨positioned', stream.trans appended, fun was => ?_, fun gone => ?_⟩
    · exact ⟨(closed was).1, close.trans (closed was).2⟩
    · cases failed : (writeToClient event.sends read.2.2.1).1 with
      | false => exact .inl (.inr (.inr (.inr (fails' failed))))
      | true =>
        simp only [failed, Bool.true_and, Bool.not_eq_false', Bool.and_eq_true,
          decide_eq_true_eq] at gone
        refine .inr ⟨gone.1, List.length_eq_zero_iff.mp ?_⟩
        rw [← positioned'.pendingOutput]
        exact gone.2
  · have silent : result = ⟨read.1 && !(read.2.2.1.closeAfterWrite &&
        read.2.2.1.pendingOutput = 0), read.2.1, [], read.2.2.1, read.2.2.2⟩ := by
      simp only [result, handleClientEvents, ← isRead, if_neg writes]
    rw [silent]
    refine ⟨positioned, appended, closed, fun gone => ?_⟩
    cases failed : read.1 with
    | false => exact .inl (fails failed)
    | true =>
      simp only [failed, Bool.true_and, Bool.not_eq_false', Bool.and_eq_true,
        decide_eq_true_eq] at gone
      refine .inr ⟨gone.1, List.length_eq_zero_iff.mp ?_⟩
      rw [← positioned.pendingOutput]
      exact gone.2

end Input

/-! ### Connections -/

section Connection

variable {σ : Type} (execute : Execute σ) (flush : σ → σ)

/-- An answer is the reply of the processor, or the reply to a protocol error. -/
def Answer.Produced (answer : Answer σ) : Prop :=
  match answer.arguments with
  | some arguments =>
    (execute arguments answer.before).1.payload = answer.payload ∧
    (execute arguments answer.before).2 = answer.after
  | none => (∃ text, answer.payload = respError text) ∧ answer.before = answer.after

lemma processLoop_produced (pending : Bytes) (client : Client) (state : σ) :
    ∀ answer ∈ (processLoop execute pending client state).1, answer.Produced execute := by
  induction pending, client, state using processLoop_induction execute with
  | stop pending client state h =>
    rw [processLoop_stop h]
    exact fun _ mem => absurd mem List.not_mem_nil
  | error pending client state live error =>
    rw [processLoop_error live error]
    intro answer mem
    rw [List.mem_singleton.mp mem]
    exact ⟨⟨_, rfl⟩, rfl⟩
  | blank pending client state live complete blank ih =>
    rw [processLoop_blank live complete blank]
    exact ih
  | command pending client state live complete given ih =>
    rw [processLoop_command live complete given]
    intro answer mem
    rcases List.mem_cons.mp mem with rfl | mem
    · exact ⟨rfl, rfl⟩
    · exact ih answer mem

/-- What reading has answered comes from `processInput`, and so does the state. -/
lemma readFromClient_answers (outcomes : List RecvOutcome) (client : Client) (state : σ) :
    let result := readFromClient execute outcomes client state
    (result.2.1 = [] ∧ result.2.2.2 = state) ∨
    ∃ received, result.2.1 = (processInput execute received state).1 ∧
      result.2.2.2 = (processInput execute received state).2.2 := by
  unfold readFromClient
  split
  · exact .inr ⟨_, rfl, rfl⟩
  · exact .inl ⟨rfl, rfl⟩
  · split
    · exact .inl ⟨rfl, rfl⟩
    · exact .inr ⟨_, rfl, rfl⟩

/-- The answers of `handleClientEvents` come from `processInput`; and nothing is sent without a
flush, in the state that `flushState` tells. -/
lemma handleClientEvents_cases (event : ClientEvent) (client : Client) (state : σ) :
    let result := handleClientEvents execute flush event client state
    ∃ middle, (result.answers = [] ∧ middle = state ∨
        ∃ received, result.answers = (processInput execute received state).1 ∧
          middle = (processInput execute received state).2.2) ∧
      (result.sent = [] ∧ result.state = middle ∨
        flushState execute event client state = some middle ∧
          ∃ client', result.sent = (writeToClient event.sends client').2.1 ∧
            result.state = flush middle) := by
  intro result
  obtain ⟨read, isRead⟩ : ∃ read : Bool × List (Answer σ) × Client × σ, read =
      if event.error then (false, [], client, state)
      else if event.readable then readFromClient execute event.recvs client state
      else (true, [], client, state) := ⟨_, rfl⟩
  refine ⟨read.2.2.2, ?_, ?_⟩
  · have answers : result.answers = read.2.1 := by
      simp only [result, handleClientEvents, ← isRead]
    rw [answers, isRead]
    split
    · exact .inl ⟨rfl, rfl⟩
    · split
      · exact readFromClient_answers execute event.recvs client state
      · exact .inl ⟨rfl, rfl⟩
  · have flushed : flushState execute event client state =
        if read.1 ∧ read.2.2.1.pendingOutput > 0 then some read.2.2.2 else none := by
      rw [isRead]
      rfl
    rw [flushed]
    simp only [result, handleClientEvents, ← isRead]
    split
    · exact .inr ⟨rfl, _, rfl, rfl⟩
    · exact .inl ⟨rfl, rfl⟩

lemma handleClientEvents_produced (event : ClientEvent) (client : Client) (state : σ) :
    ∀ answer ∈ (handleClientEvents execute flush event client state).answers,
      answer.Produced execute := by
  obtain ⟨_, ⟨none, _⟩ | ⟨received, e, _⟩, _⟩ :=
    handleClientEvents_cases execute flush event client state
  · rw [none]
    exact fun _ mem => absurd mem List.not_mem_nil
  · rw [e]
    exact processLoop_produced execute received.input received state

/-- A connection: its client, what has been answered and what has been sent so far. -/
structure Connection (σ : Type) where
  client : Client := {}
  answers : List (Answer σ) := []
  sent : Bytes := []
  closed : Bool := false

/-- What can happen to a connection. Other clients may have changed the state in the meantime, so
each operation that executes commands comes with the state it starts from. -/
inductive ClientOp (σ : Type) where
  | receive (bytes : Bytes)
  | process (state : σ)
  | write (outcomes : List SendOutcome)
  | handle (event : ClientEvent) (state : σ)

def Connection.step (connection : Connection σ) (op : ClientOp σ) : Connection σ :=
  if connection.closed then connection
  else
    let client := connection.client
    match op with
    | .receive bytes => { connection with client := { client with input := client.input ++ bytes } }
    | .process state =>
      let (answers, client, _) := processInput execute client state
      { connection with client := client, answers := connection.answers ++ answers }
    | .write outcomes =>
      let (keep, sent, client) := writeToClient outcomes client
      { connection with client := client, sent := connection.sent ++ sent, closed := !keep }
    | .handle event state =>
      let result := handleClientEvents execute flush event client state
      { client := result.client
        answers := connection.answers ++ result.answers
        sent := connection.sent ++ result.sent
        closed := !result.keep }

def Connection.run (connection : Connection σ) (ops : List (ClientOp σ)) : Connection σ :=
  ops.foldl (Connection.step execute flush) connection

/-- The bytes sent and those still to be sent are the answers, in order. -/
structure Connection.InOrder (connection : Connection σ) : Prop where
  positioned : connection.client.Positioned
  stream : connection.sent ++ connection.client.unsent = payloads connection.answers
  produced : ∀ answer ∈ connection.answers, answer.Produced execute

/-- The outcomes after which a connection is given up. -/
def ClientOp.Fails (client : Client) : ClientOp σ → Prop
  | .write outcomes => .failed ∈ outcomes ∨ .sent 0 ∈ outcomes
  | .handle event _ => event.Fails client
  | _ => False

variable {execute} {connection : Connection σ}

/-- One operation on a connection that is not closed. -/
lemma Connection.InOrder.step (h : connection.InOrder execute) (op : ClientOp σ) :
    let next := connection.step execute flush op
    next.InOrder execute ∧
    (connection.client.closeAfterWrite = true →
      next.answers = connection.answers ∧ next.client.closeAfterWrite = true) ∧
    (connection.closed = false → next.closed = true → op.Fails connection.client ∨
      next.client.closeAfterWrite = true ∧ next.client.unsent = []) := by
  obtain ⟨positioned, stream, produced⟩ := h
  unfold Connection.step
  split
  · rename_i gone
    exact ⟨⟨positioned, stream, produced⟩, fun closed => ⟨rfl, closed⟩,
      fun open_ => by rw [gone] at open_; cases open_⟩
  · rename_i live
    cases op with
    | receive bytes =>
      exact ⟨⟨positioned, stream, produced⟩, fun closed => ⟨rfl, closed⟩,
        fun _ gone => absurd gone live⟩
    | process state =>
      obtain ⟨positioned', appended, closed⟩ := processInput_spec execute positioned state
      refine ⟨⟨positioned', ?_, ?_⟩, fun was => ⟨?_, (closed was).2⟩, fun _ gone => absurd gone live⟩
      · dsimp only
        rw [appended, ← List.append_assoc, stream, payloads_append]
      · exact List.forall_mem_append.mpr ⟨produced, processLoop_produced execute _ _ _⟩
      · dsimp only
        rw [(closed was).1, List.append_nil]
    | write outcomes =>
      obtain ⟨positioned', moved, close, fails⟩ := writeToClient_spec outcomes positioned
      refine ⟨⟨positioned', ?_, produced⟩, fun was => ⟨rfl, close.trans was⟩, fun _ gone => .inl ?_⟩
      · dsimp only
        rw [List.append_assoc, moved, stream]
      · exact fails (by simpa using gone)
    | handle event state =>
      obtain ⟨positioned', moved, closed, fails⟩ :=
        handleClientEvents_spec execute flush event positioned state
      refine ⟨⟨positioned', ?_, ?_⟩, fun was => ⟨?_, (closed was).2⟩, fun _ gone => ?_⟩
      · dsimp only
        rw [List.append_assoc, moved, ← List.append_assoc, stream, payloads_append]
      · exact List.forall_mem_append.mpr
          ⟨produced, handleClientEvents_produced execute flush event _ state⟩
      · dsimp only
        rw [(closed was).1, List.append_nil]
      · exact fails (by simpa using gone)

/-- Any run keeps the stream in order. -/
lemma Connection.InOrder.run (h : connection.InOrder execute) (ops : List (ClientOp σ)) :
    (connection.run execute flush ops).InOrder execute := by
  induction ops generalizing connection with
  | nil => exact h
  | cons op ops ih => exact ih (h.step flush op).1

variable (execute)

end Connection

end FlashKV
