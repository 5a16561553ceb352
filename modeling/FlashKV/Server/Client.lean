import FlashKV.Command.Processor
import FlashKV.Resp.Parser

/-!
# Clients of the server

Model of the per-client part of `tcp_server.cpp`: `readFromClient`, `processInput` and
`writeToClient`. What the operating system decides is an argument: the outcomes of the `recv` and
`send` calls, in order. The command processor is an arbitrary function here, so that the buffers can
be studied on their own.

`processInput` also returns what it has answered, which the source does not keep.
-/

namespace FlashKV

def readChunkSize : Nat := 16 * 1024
def maxReadsPerEvent : Nat := 16
def maxQueryBuffer : Nat := 1024 * 1024 * 1024

structure Client where
  input : Bytes := []
  output : Bytes := []
  outputOffset : Nat := 0
  closeAfterWrite : Bool := false
  deriving DecidableEq

def Client.pendingOutput (client : Client) : Nat :=
  subSize client.output.length client.outputOffset

/-- Something that `processInput` has answered: the arguments of a command, or `none` for a protocol
error, the bytes that were appended to the output, and the state before and after. -/
structure Answer (σ : Type) where
  arguments : Option (List Bytes)
  payload : Bytes
  before : σ
  after : σ

/-- `CommandProcessor::execute`, as far as the server sees it. -/
abbrev Execute (σ : Type) := List Bytes → σ → CommandReply × σ

section Input

variable {σ : Type} (execute : Execute σ)

/-- The loop of `processInput`, `pending` being the part of the input that is not consumed yet. -/
def processLoop (pending : Bytes) (client : Client) (state : σ) : List (Answer σ) × Client × σ :=
  if client.closeAfterWrite ∨ pending = [] then ([], { client with input := pending }, state)
  else
    let result := parseRespCommand pending
    match _h : result.status with
    | .incomplete => ([], { client with input := pending }, state)
    | .error =>
      let payload := respError result.error
      ([⟨none, payload, state, state⟩],
        { client with
          input := pending
          output := client.output ++ payload
          closeAfterWrite := true }, state)
    | .complete =>
      -- blank inline lines are ignored, as in Redis
      if result.arguments = [] then processLoop (pending.drop result.consumedBytes) client state
      else
        let (reply, state') := execute result.arguments state
        let (answers, last) := processLoop (pending.drop result.consumedBytes)
          { client with
            output := client.output ++ reply.payload
            closeAfterWrite := client.closeAfterWrite || reply.closeConnection } state'
        (⟨some result.arguments, reply.payload, state, state'⟩ :: answers, last)
  termination_by pending.length
  decreasing_by
    all_goals
      have progress := parseRespCommand_progress _h
      rename_i nonempty _
      have := List.length_pos_of_ne_nil fun e => nonempty (.inr e)
      rw [List.length_drop]
      omega

def processInput (client : Client) (state : σ) : List (Answer σ) × Client × σ :=
  processLoop execute client.input client state

/-- The outcome of a call of `recv`: the bytes received, none at the end of the stream; an
interruption by a signal; nothing to read; or an error. -/
inductive RecvOutcome where
  | received (bytes : Bytes)
  | interrupted
  | again
  | failed

/-- How the loop of `readFromClient` ends. -/
inductive ReadEnd where
  | done
  | peerClosed
  | failed
  deriving DecidableEq

/-- The loop of `readFromClient`: at most `reads` calls. There is nothing to read after the listed
outcomes. -/
def recvLoop : Nat → List RecvOutcome → Client → ReadEnd × Client
  | 0, _, client => (.done, client)
  | _ + 1, [], client => (.done, client)
  | reads + 1, outcome :: outcomes, client =>
    match outcome with
    | .received [] => (.peerClosed, client)
    | .received bytes =>
      let client := { client with input := client.input ++ bytes }
      if bytes.length < readChunkSize then (.done, client) else recvLoop reads outcomes client
    | .interrupted => recvLoop reads outcomes client
    | .again => (.done, client)
    | .failed => (.failed, client)

/-- Source `readFromClient`: whether to keep the connection, and what was answered. -/
def readFromClient (outcomes : List RecvOutcome) (client : Client) (state : σ) :
    Bool × List (Answer σ) × Client × σ :=
  match recvLoop maxReadsPerEvent outcomes client with
  -- peer closed; still answer anything already buffered
  | (.peerClosed, client) =>
    let (answers, client, state) := processInput execute client state
    (true, answers, { client with closeAfterWrite := true }, state)
  | (.failed, client) => (false, [], client, state)
  | (.done, client) =>
    if client.input.length > maxQueryBuffer then (false, [], client, state)
    else
      let (answers, client, state) := processInput execute client state
      (true, answers, client, state)

end Input

/-! ### Output -/

/-- The outcome of a call of `send`: a byte count (`0` counts as an error), an interruption by a
signal, a full socket buffer, or an error. -/
inductive SendOutcome where
  | sent (count : Nat)
  | interrupted
  | again
  | failed
  deriving DecidableEq, Repr

/-- How the loop of `writeToClient` ends. -/
inductive WriteEnd where
  | sentAll
  | blocked
  | failed
  deriving DecidableEq, Repr

/-- The loop of `writeToClient`: how it ends, the bytes that were sent, and the client. The socket
buffer is full after the listed outcomes. -/
def sendLoop : List SendOutcome → Client → WriteEnd × Bytes × Client
  | outcomes, client =>
    if client.pendingOutput = 0 then (.sentAll, [], client)
    else
      match outcomes with
      | [] => (.blocked, [], client)
      | outcome :: outcomes =>
        match outcome with
        | .again => (.blocked, [], client)
        | .interrupted => sendLoop outcomes client
        | .failed | .sent 0 => (.failed, [], client)
        | .sent count =>
          let count := min count client.pendingOutput
          let bytes := substr client.output client.outputOffset count
          let (ending, more, client) :=
            sendLoop outcomes { client with outputOffset := client.outputOffset + count }
          (ending, bytes ++ more, client)

/-- Compact once the buffer is fully sent or mostly consumed. -/
def Client.compact (client : Client) : Client :=
  if client.outputOffset = client.output.length then { client with output := [], outputOffset := 0 }
  else if client.outputOffset > client.output.length / 2 then
    { client with output := client.output.drop client.outputOffset, outputOffset := 0 }
  else client

/-- Source `writeToClient`: whether to keep the connection, and the bytes that were sent. -/
def writeToClient (outcomes : List SendOutcome) (client : Client) : Bool × Bytes × Client :=
  match sendLoop outcomes client with
  | (.failed, bytes, client) => (false, bytes, client)
  | (_, bytes, client) => (true, bytes, client.compact)

/-! ### Events -/

/-- What `poll` reports for a client, and the outcomes of the calls that follow. -/
structure ClientEvent where
  /-- `POLLERR` or `POLLNVAL`. -/
  error : Bool := false
  /-- `POLLIN` or `POLLHUP`. -/
  readable : Bool := false
  recvs : List RecvOutcome := []
  sends : List SendOutcome := []

/-- What `handleClientEvents` has done with a client. -/
structure Handled (σ : Type) where
  keep : Bool
  answers : List (Answer σ)
  sent : Bytes
  client : Client
  state : σ

/-- Source `handleClientEvents` for a client that is connected. `flush` is the flush of the log
before replies leave. -/
def handleClientEvents {σ : Type} (execute : Execute σ) (flush : σ → σ) (event : ClientEvent)
    (client : Client) (state : σ) : Handled σ :=
  let (keep, answers, client, state) :=
    if event.error then (false, [], client, state)
    else if event.readable then readFromClient execute event.recvs client state
    else (true, [], client, state)
  let (keep, sent, client, state) :=
    if keep ∧ client.pendingOutput > 0 then
      let (keep, sent, client) := writeToClient event.sends client
      (keep, sent, client, flush state)
    else (keep, [], client, state)
  { keep := keep && !(client.closeAfterWrite && client.pendingOutput = 0)
    answers := answers
    sent := sent
    client := client
    state := state }

/-- The state in which `handleClientEvents` flushes the log, if it does. -/
def flushState {σ : Type} (execute : Execute σ) (event : ClientEvent) (client : Client) (state : σ) :
    Option σ :=
  let read :=
    if event.error then (false, [], client, state)
    else if event.readable then readFromClient execute event.recvs client state
    else (true, [], client, state)
  if read.1 ∧ read.2.2.1.pendingOutput > 0 then some read.2.2.2 else none

/-- How many of so many bytes the calls of `send` accept, until one of them fails or would block. -/
def accepted : List SendOutcome → Nat → Nat
  | [], _ => 0
  | outcome :: outcomes, pending =>
    match outcome with
    | .interrupted => accepted outcomes pending
    | .sent count =>
      if count = 0 then 0
      else min count pending + accepted outcomes (pending - min count pending)
    | .again | .failed => 0

/-- Does a call of `send` accept a byte? -/
def acceptsByte (outcomes : List SendOutcome) : Bool :=
  accepted outcomes 1 > 0

end FlashKV
