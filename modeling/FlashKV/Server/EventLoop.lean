import FlashKV.Database.ActiveExpire
import FlashKV.Persistence.Aof
import FlashKV.Server.Output

/-!
# The event loop

Model of `Server` in `tcp_server.cpp`: one command processor and one log shared by all clients. Each
step handles what `poll` has reported for one client, accepts a client, or runs a background task;
the steps come in any order. Connections are numbered in the order in which they were accepted, and
a connection that has been closed stays in the list with what was answered and sent.
-/

namespace FlashKV

open Database

/-- What the clients share: the processor, the log if there is one, and the number of clock readings
so far. -/
structure Core where
  processor : Processor := {}
  aof : Option AppendOnlyFile := none
  readings : Nat := 0

namespace Core

/-- The state of the log, as the processor sees it. -/
def status (core : Core) : AofStatus :=
  match core.aof with
  | none => .detached
  | some aof => if aof.healthy then .healthy else .failed

/-- The bytes that have been propagated so far, those of the file included. -/
def stream (core : Core) : Bytes :=
  (core.aof.map (·.stream)).getD []

/-- The bytes in the file. -/
def written (core : Core) : Bytes :=
  (core.aof.bind (·.file)).getD []

/-- The records that a command propagates. -/
def records (clock : Nat → Int) (arguments : List Bytes) (core : Core) : List (List Bytes) :=
  (core.processor.execute core.status (clock core.readings) arguments).2.1

/-- `CommandProcessor::execute` with a log: the records are appended to its buffer. -/
def execute (clock : Nat → Int) : Execute Core := fun arguments core =>
  let (reply, records, processor) :=
    core.processor.execute core.status (clock core.readings) arguments
  (reply, {
    processor := processor
    aof := core.aof.map fun aof => records.foldl (fun aof record => aof.append record) aof
    readings := core.readings + 1 })

def flush (outcomes : List WriteOutcome) (core : Core) : Core :=
  { core with aof := core.aof.map fun aof => (aof.flush outcomes).2 }

end Core

/-- The server: what the clients share, and the connections. -/
structure Server where
  core : Core := {}
  connections : List (Connection Core) := []

/-- A step of the event loop. -/
inductive ServerEvent where
  | accept
  | client (index : Nat) (event : ClientEvent) (writes : List WriteOutcome)
  | cycle (choices : CycleChoices) (samplesPerLoop : Nat) (now : Int)
  | sync (synced : Bool)

namespace Server

/-- `clients.size()`. -/
def clientCount (server : Server) : Nat :=
  server.connections.countP fun connection => !connection.closed

/-- Source `acceptClients`, for one client. -/
def acceptClient (server : Server) : Server :=
  let server := { server with connections := server.connections.concat {} }
  let stats := server.core.processor.stats
  let stats := { stats with
    totalConnections := stats.totalConnections + 1
    connectedClients := server.clientCount }
  { server with
    core := { server.core with processor := { server.core.processor with stats := stats } } }

/-- Source `handleClientEvents`, `writes` being the outcomes of the `write` calls of the flush. -/
def handleClient (clock : Nat → Int) (index : Nat) (event : ClientEvent) (writes : List WriteOutcome)
    (server : Server) : Server :=
  match server.connections[index]? with
  | none => server
  | some connection =>
    if connection.closed then server
    else
      let core := (handleClientEvents (Core.execute clock) (Core.flush writes) event connection.client
        server.core).state
      let connection := connection.step (Core.execute clock) (Core.flush writes)
        (.handle event server.core)
      let server := { server with connections := server.connections.set index connection }
      let stats := core.processor.stats
      let stats := if connection.closed then { stats with connectedClients := server.clientCount }
        else stats
      { server with core := { core with processor := { core.processor with stats := stats } } }

def step (clock : Nat → Int) (server : Server) : ServerEvent → Server
  | .accept => server.acceptClient
  | .client index event writes => server.handleClient clock index event writes
  | .cycle choices samplesPerLoop now =>
    let core := server.core
    let database := (activeExpireCycle choices samplesPerLoop now core.processor.database).2
    { server with core := { core with processor := { core.processor with database := database } } }
  | .sync synced =>
    { server with core := { server.core with
        aof := server.core.aof.map fun aof => (aof.sync synced).2 } }

def run (clock : Nat → Int) (server : Server) (events : List ServerEvent) : Server :=
  events.foldl (step clock) server

/-- The server at start: the log has been replayed and opened. -/
def start (processor : Processor) (file : Option Bytes) : Server where
  core := { processor := processor, aof := some (AppendOnlyFile.open { file := file }) }

end Server

end FlashKV
