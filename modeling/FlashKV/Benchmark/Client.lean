import FlashKV.Benchmark.ReplyLength
import FlashKV.Server.Config
import FlashKV.Server.History

/-!
# The load generator

Model of `benchmark.cpp`: its options, the commands it builds, and `runClient`, of which one thread
runs for each connection. The threads share the number of requests that remain. A thread takes a
batch off it, sends the commands of the batch and reads as many replies; each turn of a thread is
one round of one of its loops. What the operating system and the random generator decide is an
argument of the turn.

`Load` is the threads together with the server they talk to. Turns of threads and steps of the event
loop come in any order, as long as each side receives what the other one has sent: some of it, from
the front.
-/

namespace FlashKV

namespace Benchmark

/-- The fields that are bounded are bounded by `parseOptions`, or by their type. -/
structure Options where
  host : Bytes := ascii "127.0.0.1"
  port : Int := 6379
  clients : Int := 50
  requests : Int := 100000
  pipeline : Int := 1
  dataSize : Nat := 16
  keyspace : Int := 100000
  tests : List Bytes :=
    [ascii "PING", ascii "SET", ascii "GET", ascii "INCR", ascii "LPUSH", ascii "HSET"]
  csv : Bool := false
  clients_pos : 1 ≤ clients := by decide
  requests_pos : 1 ≤ requests := by decide
  pipeline_pos : 1 ≤ pipeline := by decide
  keyspace_range : 1 ≤ keyspace ∧ keyspace ≤ int64Max := by decide

/-- How `parseOptions` ends: it exits after the usage has been printed, it returns `false`, or a
number cannot be read and it throws. -/
inductive ParsedOptions where
  | options (options : Options)
  | help
  | refused
  | threw

/-- `std::stoul`: a negative number is taken modulo `2 ^ 64`. -/
def stoul (text : Bytes) : Option Nat :=
  (Decimal.leadingInt (-(2 ^ 64 - 1)) (2 ^ 64 - 1) text).map fun z => (z % 2 ^ 64).toNat

/-- The pieces that `std::getline` finds between commas. -/
def splitCommas (text : Bytes) : List Bytes :=
  let pieces := text.splitOn 44
  if pieces.getLast? = some [] then pieces.dropLast else pieces

lemma int64_max_range {z : Int} (range : IsInt64 z) : 1 ≤ max 1 z ∧ max 1 z ≤ int64Max :=
  ⟨le_max_left _ _, max_le (by decide) range.2⟩

/-- A flag with its value. -/
def applyFlag (flag value : Bytes) (options : Options) : ParsedOptions :=
  if flag = ascii "-h" then .options { options with host := value }
  else if flag = ascii "-p" then
    (stoi value).elim .threw fun port => .options { options with port := port }
  else if flag = ascii "-c" then
    (stoi value).elim .threw fun clients =>
      .options { options with clients := max 1 clients, clients_pos := le_max_left _ _ }
  else if flag = ascii "-n" then
    (stoll value).elim .threw fun requests =>
      .options { options with requests := max 1 requests, requests_pos := le_max_left _ _ }
  else if flag = ascii "-P" then
    (stoi value).elim .threw fun pipeline =>
      .options { options with pipeline := max 1 pipeline, pipeline_pos := le_max_left _ _ }
  else if flag = ascii "-d" then
    (stoul value).elim .threw fun dataSize => .options { options with dataSize := dataSize }
  else if flag = ascii "-r" then
    if read : (stoll value).isSome then
      .options { options with
        keyspace := max 1 ((stoll value).get read)
        keyspace_range := int64_max_range (stoll_range (Option.some_get read).symm) }
    else .threw
  else if flag = ascii "-t" then
    .options { options with tests := (splitCommas value).map uppercase }
  else .refused

/-- Source `parseOptions`, the name of the program being dropped. -/
def parseOptions : List Bytes → Options → ParsedOptions
  | [], options => .options options
  | flag :: rest, options =>
    if flag = ascii "--help" then .help
    else if flag = ascii "--csv" then parseOptions rest { options with csv := true }
    else
      match rest with
      | [] => .refused
      | value :: rest =>
        match applyFlag flag value options with
        | .options options => parseOptions rest options
        | other => other

def buildCommand (test : Bytes) (key : Int) (value : Bytes) : Bytes :=
  let name := ascii "key:" ++ Decimal.ofInt key
  if test = ascii "PING" then respArray [ascii "PING"]
  else if test = ascii "SET" then respArray [ascii "SET", name, value]
  else if test = ascii "GET" then respArray [ascii "GET", name]
  else if test = ascii "INCR" then
    respArray [ascii "INCR", ascii "counter:" ++ Decimal.ofInt key]
  else if test = ascii "LPUSH" then
    respArray [ascii "LPUSH", ascii "list:" ++ Decimal.ofInt (key.tmod 100), value]
  else if test = ascii "HSET" then
    respArray [ascii "HSET", ascii "hash:" ++ Decimal.ofInt (key.tmod 100),
      ascii "field:" ++ Decimal.ofInt key, value]
  else []

/-! ### Threads -/

/-- Where a thread is: before it is connected, before it takes a batch, in the loop that sends the
request, of which so much is sent, in the loop that reads the replies, or at its end. `threw` is an
exception that nothing catches. -/
inductive Phase where
  | connecting
  | ready
  | sending (batch : Nat) (request : Bytes) (sent : Nat)
  | receiving (batch replies position : Nat)
  | finished (ok : Bool)
  | threw
  deriving DecidableEq

/-- A thread of `runClient`. It also keeps the commands it has built, the bytes it has sent and
received, and the replies it has counted, which the source does not. -/
structure Thread where
  phase : Phase := .connecting
  input : Bytes := []
  commands : List Bytes := []
  sent : Bytes := []
  received : Bytes := []
  replies : List Bytes := []
  deriving DecidableEq

/-- What the environment decides in a turn: whether `connect` succeeds, the keys drawn for a batch,
the result of `send`, and the bytes that `recv` returns, none where it returns `0` or fails. -/
structure Turn (options : Options) where
  connects : Bool := true
  keys : Nat → { key : Int // 0 ≤ key ∧ key < options.keyspace }
  written : Int := 0
  received : Bytes := []

section Model

variable (options : Options) (test : Bytes)

/-- The commands of a batch. -/
def batchCommands (keys : Nat → { key : Int // 0 ≤ key ∧ key < options.keyspace }) (batch : Nat) :
    List Bytes :=
  (List.range batch).map fun i => buildCommand test (keys i) (List.replicate options.dataSize 120)

/-- One turn of a thread, `remaining` being the requests that remain. -/
def Thread.turn (turn : Turn options) (remaining : Int) (thread : Thread) : Thread × Int :=
  match thread.phase with
  | .connecting =>
    ({ thread with phase := if turn.connects then .ready else .finished false }, remaining)
  | .ready =>
    let batch := min options.pipeline remaining
    if batch ≤ 0 then ({ thread with phase := .finished true }, remaining - options.pipeline)
    else
      let commands := batchCommands options test turn.keys batch.toNat
      ({ thread with
        phase := .sending batch.toNat commands.flatten 0
        commands := thread.commands ++ commands }, remaining - options.pipeline)
  | .sending batch request sent =>
    if sent < request.length then
      if turn.written ≤ 0 then ({ thread with phase := .finished false }, remaining)
      else
        let bytes := (request.drop sent).take turn.written.toNat
        ({ thread with
          phase := .sending batch request (sent + bytes.length)
          sent := thread.sent ++ bytes }, remaining)
    else ({ thread with phase := .receiving batch 0 0 }, remaining)
  | .receiving batch replies position =>
    if replies < batch then
      (completeReplyLength thread.input position).elim ({ thread with phase := .threw }, remaining)
        fun length =>
          if 0 < length then
            ({ thread with
              phase := .receiving batch (replies + 1) (position + length)
              replies := thread.replies ++ [(thread.input.drop position).take length] }, remaining)
          else if turn.received = [] then ({ thread with phase := .finished false }, remaining)
          else
            ({ thread with
              input := thread.input ++ turn.received
              received := thread.received ++ turn.received }, remaining)
    else ({ thread with phase := .ready, input := thread.input.drop position }, remaining)
  | .finished _ | .threw => (thread, remaining)

end Model

/-! ### The threads and the server -/

/-- The threads of a test and what the server has gone through so far. -/
structure Load where
  remaining : Int
  threads : List Thread
  events : List ServerEvent := []

inductive LoadEvent (options : Options) where
  | turn (index : Nat) (turn : Turn options)
  | server (event : ServerEvent)

namespace Load

variable (options : Options) (test : Bytes)

/-- Source `runTest`, before the threads run. -/
def start : Load where
  remaining := options.requests
  threads := List.replicate options.clients.toNat {}

def step (load : Load) : LoadEvent options → Load
  | .turn index turn =>
    load.threads[index]?.elim load fun thread =>
      let (thread, remaining) := thread.turn options test turn load.remaining
      { load with remaining := remaining, threads := load.threads.set index thread }
  | .server event => { load with events := load.events ++ [event] }

def run (load : Load) (events : List (LoadEvent options)) : Load :=
  events.foldl (step options test) load

section Network

variable (clock : Nat → Int) (core : Core) (line : Nat → Nat)

/-- The connection of a thread, as the server sees it. -/
def connection (load : Load) (index : Nat) : Connection Core :=
  (Server.run clock { core := core } load.events).connections[line index]?.getD {}

/-- What the server has received from a thread. -/
def heard (load : Load) (index : Nat) : Bytes :=
  Server.heard clock (line index) { core := core } load.events

/-- The network brings bytes from one side to the other, in order: a thread receives what the server
has sent to it, and the server what the thread has sent. Replies fit in memory. -/
def Delivers (load : Load) : LoadEvent options → Prop
  | .turn index turn =>
    (load.threads[index]?.getD {}).received ++ turn.received <+:
      (load.connection clock core line index).sent
  | .server event =>
    let next := load.step options test (.server event)
    ∀ index < load.threads.length,
      next.heard clock core line index <+: (load.threads[index]?.getD {}).sent ∧
      ∀ answer ∈ (next.connection clock core line index).answers,
        (answer.payload.length : Int) ≤ int64Max

/-- In a run, everything that happens is what the network allows at that point. -/
def Delivered : Load → List (LoadEvent options) → Prop
  | _, [] => True
  | load, event :: events =>
    load.Delivers options test clock core line event ∧ (load.step options test event).Delivered events

instance decidableDelivers (load : Load) : ∀ event : LoadEvent options,
    Decidable (load.Delivers options test clock core line event)
  | .turn _ _ => inferInstanceAs (Decidable (_ <+: _))
  | .server _ => inferInstanceAs (Decidable (∀ index < _, _ ∧ _))

instance decidableDelivered : ∀ (load : Load) (events : List (LoadEvent options)),
    Decidable (load.Delivered options test clock core line events)
  | _, [] => inferInstanceAs (Decidable True)
  | load, event :: events =>
    have : Decidable ((load.step options test event).Delivered options test clock core line events) :=
      decidableDelivered _ events
    inferInstanceAs (Decidable (_ ∧ _))

end Network

end Load

end Benchmark

end FlashKV
