import Mathlib.Data.Finset.Basic
import FlashKV.Server.Config
import FlashKV.Server.EventLoop

/-!
# The poll loop

Model of `Server::run`, `acceptClients` and `handleClientEvents` in `tcp_server.cpp` with the
descriptors that the operating system hands out: clients are found by their descriptors, and a
descriptor that has been closed can be handed out again. What the operating system decides is an
argument of each round: what `poll` reports, the outcomes of the calls that follow, the clocks, and
the order in which the table of clients is walked through.

The server also keeps what the source does not: how many connections it has accepted, what it has
done as events of the event loop, and how often it has closed a descriptor that was not open.
-/

namespace FlashKV

open Database

def outputHighWatermark : Nat := 4 * 1024 * 1024

/-- An entry of `clients`; `number` says how many connections were accepted before this one. -/
structure Attached where
  socket : Nat
  client : Client := {}
  number : Nat

/-- The events that `poll` is asked for. -/
structure Interest where
  input : Bool
  output : Bool
  deriving DecidableEq

/-- Backpressure: reading pauses while replies pile up. -/
def Client.interest (client : Client) : Interest where
  input := decide (client.pendingOutput < outputHighWatermark) && !client.closeAfterWrite
  output := decide (0 < client.pendingOutput)

/-- What `poll` reports for a descriptor: `POLLIN`, `POLLHUP`, and `POLLERR` or `POLLNVAL`. -/
structure Revents where
  input : Bool := false
  hangup : Bool := false
  error : Bool := false
  deriving DecidableEq

/-- The outcomes of the calls for one client: of `recv`, of `send`, and of `write` for the log. -/
structure Calls where
  recvs : List RecvOutcome := []
  sends : List SendOutcome := []
  writes : List WriteOutcome := []

/-- The outcome of a call of `accept`: a descriptor, with the outcome of `setNonBlocking`; an
interruption by a signal; no connection to accept; or an error. -/
inductive AcceptOutcome where
  | accepted (socket : Nat) (nonBlocking : Bool)
  | interrupted
  | again
  | failed
  deriving DecidableEq

inductive PollOutcome where
  | interrupted
  | failed
  | ready (listening : Bool) (revents : Nat → Revents)

/-- What is decided outside of the server in one round of the loop. `now` is the time of the steady
clock in nanoseconds, `time` the time at which keys expire. -/
structure Round where
  order : List Nat := []
  polled : PollOutcome
  accepts : List AcceptOutcome := []
  calls : Nat → Calls := fun _ => {}
  now : Int
  choices : CycleChoices
  time : Int
  synced : Bool := true

structure PollServer where
  core : Core
  clients : List Attached := []
  /-- The open descriptors of the process. -/
  descriptors : Finset Nat
  nextCron : Int
  nextSync : Int
  accepted : Nat := 0
  trace : List ServerEvent := []
  closeErrors : Nat := 0

/-- What is handled for a client. -/
def clientEvent (revents : Revents) (calls : Calls) : ClientEvent where
  error := revents.error
  readable := revents.input || revents.hangup
  recvs := calls.recvs
  sends := calls.sends

namespace PollServer

/-- `clients.find(socket)`. -/
def find? (socket : Nat) (s : PollServer) : Option Attached :=
  s.clients.find? fun attached => attached.socket = socket

/-- `close(socket)`. -/
def closeSocket (socket : Nat) (s : PollServer) : PollServer :=
  if socket ∈ s.descriptors then { s with descriptors := s.descriptors.erase socket }
  else { s with closeErrors := s.closeErrors + 1 }

/-- The counters of connections are written. -/
def setStats (update : ServerStats → ServerStats) (s : PollServer) : PollServer :=
  let processor := s.core.processor
  { s with core := { s.core with
      processor := { processor with stats := update processor.stats } } }

/-- A connection that has been accepted and is not blocking. -/
def attach (socket : Nat) (s : PollServer) : PollServer :=
  -- `emplace` keeps a client that is there
  let clients := if (s.find? socket).isSome then s.clients
    else s.clients.concat { socket := socket, number := s.accepted }
  let s := { s with
    clients := clients
    accepted := s.accepted + 1
    trace := s.trace.concat .accept }
  s.setStats fun stats => { stats with
    totalConnections := stats.totalConnections + 1
    connectedClients := s.clients.length }

/-- Source `acceptClients`. There is nothing to accept after the listed outcomes. -/
def acceptClients : List AcceptOutcome → PollServer → PollServer
  | [], s => s
  | .accepted socket nonBlocking :: outcomes, s =>
    let s := { s with descriptors := insert socket s.descriptors }
    if nonBlocking then acceptClients outcomes (s.attach socket)
    else acceptClients outcomes (s.closeSocket socket)
  | .interrupted :: outcomes, s => acceptClients outcomes s
  | .again :: _, s => s
  | .failed :: _, s => s

/-- The client of a descriptor is replaced. -/
def update (socket : Nat) (client : Client) (s : PollServer) : PollServer :=
  { s with clients := s.clients.map fun attached =>
      if attached.socket = socket then { attached with client := client } else attached }

/-- The client of a descriptor is closed and forgotten. -/
def detach (socket : Nat) (s : PollServer) : PollServer :=
  let s := s.closeSocket socket
  let s := { s with clients := s.clients.filter fun attached => attached.socket ≠ socket }
  s.setStats fun stats => { stats with connectedClients := s.clients.length }

/-- Source `handleClientEvents`. -/
def handleClient (clock : Nat → Int) (revents : Revents) (calls : Calls) (socket : Nat)
    (s : PollServer) : PollServer :=
  match s.find? socket with
  | none => s
  | some attached =>
    let event := clientEvent revents calls
    let handled := handleClientEvents (Core.execute clock) (Core.flush calls.writes) event
      attached.client s.core
    let s := { s with
      core := handled.state
      trace := s.trace.concat (.client attached.number event calls.writes) }
    if handled.keep then s.update socket handled.client else s.detach socket

/-- The interval of the background task, in nanoseconds. -/
def cronInterval (config : ServerConfig) : Int :=
  1000 / config.hz * 1000000

/-- The end of a round: `activeExpireCycle` when it is due. -/
def cron (config : ServerConfig) (round : Round) (s : PollServer) : PollServer :=
  if s.nextCron ≤ round.now then
    let processor := s.core.processor
    let database := (activeExpireCycle round.choices 20 round.time processor.database).2
    { s with
      core := { s.core with processor := { processor with database := database } }
      nextCron := round.now + cronInterval config
      trace := s.trace.concat (.cycle round.choices 20 round.time) }
  else s

/-- The end of a round: the log is synced when it is due. -/
def syncLog (round : Round) (s : PollServer) : PollServer :=
  if s.core.aof.isSome ∧ s.nextSync ≤ round.now then
    { s with
      core := { s.core with aof := s.core.aof.map fun aof => (aof.sync round.synced).2 }
      nextSync := round.now + 1000000000
      trace := s.trace.concat (.sync round.synced) }
  else s

/-- One round of the loop of `Server::run`, unless `poll` fails. -/
def round (clock : Nat → Int) (config : ServerConfig) (s : PollServer) (round : Round) : PollServer :=
  match round.polled with
  | .interrupted | .failed => s
  | .ready listening revents =>
    let s := if listening then s.acceptClients round.accepts else s
    let s := round.order.foldl
      (fun s socket => s.handleClient clock (revents socket) (round.calls socket) socket) s
    (s.cron config round).syncLog round

/-- The end of `Server::run`: all clients are closed. -/
def shutdown (s : PollServer) : PollServer :=
  { s.clients.foldl (fun s attached => s.closeSocket attached.socket) s with clients := [] }

/-- Source `Server::run`: the rounds until a shutdown is requested or `poll` fails, and the status
that is returned. -/
def run (clock : Nat → Int) (config : ServerConfig) : List Round → PollServer → Nat × PollServer
  | [], s => (0, s.shutdown)
  | round :: rounds, s =>
    match round.polled with
    | .failed => (1, s)
    | _ => run clock config rounds (s.round clock config round)

/-- The server when the loop starts; `others` are the descriptors that are open already. -/
def start (config : ServerConfig) (core : Core) (others : Finset Nat) (now : Int) : PollServer where
  core := core
  descriptors := others
  nextCron := now + cronInterval config
  nextSync := now + 1000000000

end PollServer

/-- A descriptor that is handed out is not open. -/
def FreshAccepts : List AcceptOutcome → Finset Nat → Prop
  | [], _ => True
  | .accepted socket nonBlocking :: outcomes, descriptors => socket ∉ descriptors ∧
    FreshAccepts outcomes (if nonBlocking then insert socket descriptors else descriptors)
  | .interrupted :: outcomes, descriptors => FreshAccepts outcomes descriptors
  | .again :: _, _ => True
  | .failed :: _, _ => True

/-- What the operating system and the library promise for a round. -/
structure Round.Lawful (round : Round) (s : PollServer) : Prop where
  /-- Every client is walked through once. -/
  order : round.order.Perm (s.clients.map (·.socket))
  fresh : FreshAccepts round.accepts s.descriptors
  /-- `POLLIN` is reported only where it was asked for. -/
  asked : ∀ listening revents, round.polled = .ready listening revents → ∀ attached ∈ s.clients,
    (revents attached.socket).input = true → attached.client.interest.input = true
  /-- `recv` fills no more than the buffer it is given. -/
  received : ∀ socket bytes, .received bytes ∈ (round.calls socket).recvs →
    bytes.length ≤ readChunkSize

/-- Every round of the run is lawful in the state it starts in. -/
def PollServer.LawfulRun (clock : Nat → Int) (config : ServerConfig) : List Round → PollServer → Prop
  | [], _ => True
  | round :: rounds, s => round.Lawful s ∧ LawfulRun clock config rounds (s.round clock config round)

/-- The states that the loop reaches. -/
inductive PollServer.Reachable (clock : Nat → Int) (config : ServerConfig) (start : PollServer) :
    PollServer → Prop where
  | start : Reachable clock config start start
  | round {s round} :
    Reachable clock config start s →
    round.Lawful s →
    Reachable clock config start (s.round clock config round)

end FlashKV
