import FlashKV.Command.Handlers

/-!
# The command processor

Model of the rest of `CommandProcessor` (source `commands.cpp`): the command table, the handlers
that look into the database itself (`DBSIZE`, `INFO`, `CONFIG`, `MEMORY`), and `execute`.
-/

namespace FlashKV

/-! ### Sizes -/

/-- Source `parseMemorySize`: sizes such as `1048576`, `100kb` or `1gb`. -/
def parseMemorySize (text : Bytes) : Option Nat := do
  let digits := text.takeWhile Decimal.isDigit
  let amount ← Decimal.parseNat digits
  -- `from_chars` refuses what is not an `unsigned long long`
  if 2 ^ 64 ≤ amount then none
  let unit := lowercase (text.drop digits.length)
  let multiplier ←
    if unit = [] ∨ unit = ascii "b" then some 1
    else if unit = ascii "k" then some 1000
    else if unit = ascii "kb" then some 1024
    else if unit = ascii "m" then some (1000 * 1000)
    else if unit = ascii "mb" then some (1024 * 1024)
    else if unit = ascii "g" then some (1000 * 1000 * 1000)
    else if unit = ascii "gb" then some (1024 * 1024 * 1024)
    else none
  if 2 ^ 64 ≤ amount * multiplier then none else some (amount * multiplier)

/-- Division that rounds to the nearest integer, and to the even one halfway between two. -/
def divHalfEven (n d : Nat) : Nat :=
  let q := n / d
  let r := n % d
  if 2 * r < d then q else if d < 2 * r then q + 1 else if q % 2 = 0 then q else q + 1

/-- Conversion of a `size_t` to `double`: 53 significant bits. -/
def toDouble (n : Nat) : Nat :=
  let excess := Nat.log2 n - 52
  divHalfEven n (2 ^ excess) * 2 ^ excess

/-- The loop of `formatBytesHuman`: the value is `n / 1024 ^ unit`, which no division rounds. -/
def humanUnit (n : Nat) : Nat → Nat → Nat
  | 0, unit => unit
  | steps + 1, unit => if n ≥ 1024 ^ (unit + 1) then humanUnit n steps (unit + 1) else unit

/-- Source `formatBytesHuman`. -/
def formatBytesHuman (bytes : Nat) : Bytes :=
  let value := toDouble bytes
  let unit := humanUnit value 4 0
  if unit = 0 then Decimal.ofNat bytes ++ ascii "B"
  else
    let hundredths := divHalfEven (value * 100) (1024 ^ unit)
    Decimal.ofNat (hundredths / 100) ++ ascii "." ++ Decimal.ofNat (hundredths % 100 / 10) ++
      Decimal.ofNat (hundredths % 10) ++ [ascii "B", ascii "K", ascii "M", ascii "G", ascii "T"].getD
        unit []

/-- Source `evictionPolicyName`. -/
def evictionPolicyName : EvictionPolicy → Bytes
  | .allKeysLru => ascii "allkeys-lru"
  | .noEviction => ascii "noeviction"

/-- Source `parseEvictionPolicy`. -/
def parseEvictionPolicy (name : Bytes) : Option EvictionPolicy :=
  if name = ascii "noeviction" then some .noEviction
  else if name = ascii "allkeys-lru" then some .allKeysLru
  else none

/-! ### The processor's state -/

structure ServerStats where
  startTimeMs : Int := 0
  port : Int := 0
  connectedClients : Nat := 0
  totalConnections : Nat := 0
  totalCommands : Nat := 0
  deriving DecidableEq, Repr

/-- What `execute` sees of the log: no log is attached, or `healthy()` says yes or no. -/
inductive AofStatus where
  | detached
  | healthy
  | failed
  deriving DecidableEq, Repr

def AofStatus.attached (aof : AofStatus) : Bool :=
  aof ≠ .detached

/-- The state of a `CommandProcessor` and of the database it refers to. -/
structure Processor where
  database : Database := {}
  stats : ServerStats := {}

structure CommandReply where
  payload : Bytes
  closeConnection : Bool := false
  deriving DecidableEq, Repr

namespace Handler

/-! ### Handlers that look into the database -/

/-- Propagate a `DEL` for each evicted key: without it a restart would resurrect the keys. -/
def propagateEvicted {σ : Type} : List Bytes → Handling σ Unit
  | [] => pure ()
  | key :: evicted => do
    propagate [ascii "DEL", key]
    propagateEvicted evicted

def dbsize : Handling Database Bytes := fun session =>
  (.ok (respInteger session.store.size), session)

/-- The sections of `info`: a name and a body. -/
def infoSections (stats : ServerStats) (aof : AofStatus) (now : Int) (db : Database) :
    List (Bytes × Bytes) :=
  let line (name : String) (value : Bytes) : Bytes := ascii name ++ ascii ":" ++ value ++ crlf
  let uptimeSeconds := (wrap64 (now - stats.startTimeMs)).tdiv 1000
  [(ascii "server", ascii "# Server" ++ crlf ++ line "flashkv_version" (ascii "0.2.0") ++
      line "tcp_port" (Decimal.ofInt stats.port) ++
      line "uptime_in_seconds" (Decimal.ofInt uptimeSeconds)),
    (ascii "clients", ascii "# Clients" ++ crlf ++
      line "connected_clients" (Decimal.ofNat stats.connectedClients)),
    (ascii "memory", ascii "# Memory" ++ crlf ++ line "used_memory" (Decimal.ofNat db.memoryUsed) ++
      line "used_memory_human" (formatBytesHuman db.memoryUsed) ++
      line "maxmemory" (Decimal.ofNat db.memoryLimit) ++
      line "maxmemory_human" (formatBytesHuman db.memoryLimit) ++
      line "maxmemory_policy" (evictionPolicyName db.policy)),
    (ascii "persistence", ascii "# Persistence" ++ crlf ++
      line "aof_enabled" (ascii (if aof.attached then "1" else "0")) ++
      line "aof_last_write_status" (ascii (if aof = .failed then "err" else "ok"))),
    (ascii "stats", ascii "# Stats" ++ crlf ++
      line "total_connections_received" (Decimal.ofNat stats.totalConnections) ++
      line "total_commands_processed" (Decimal.ofNat stats.totalCommands) ++
      line "expired_keys" (Decimal.ofNat db.statistics.expiredKeys) ++
      line "evicted_keys" (Decimal.ofNat db.statistics.evictedKeys) ++
      line "keyspace_hits" (Decimal.ofNat db.statistics.keyspaceHits) ++
      line "keyspace_misses" (Decimal.ofNat db.statistics.keyspaceMisses)),
    (ascii "keyspace", ascii "# Keyspace" ++ crlf ++
      if db.size = 0 then []
      else ascii "db0:keys=" ++ Decimal.ofNat db.size ++ ascii ",expires=" ++
        Decimal.ofNat db.volatileKeyCount ++ crlf)]

def info (stats : ServerStats) (aof : AofStatus) (arguments : List Bytes) (now : Int) :
    Handling Database Bytes := fun session =>
  let requested := match arguments[1]? with
    | some name => lowercase name
    | none => ascii "all"
  let wanted := (infoSections stats aof now session.store).filter fun body =>
    requested == ascii "all" || requested == ascii "everything" || requested == ascii "default" ||
      requested == body.1
  let output := wanted.foldl
    (fun output body => (if output = [] then output else output ++ crlf) ++ body.2) []
  (.ok (respBulkString output), session)

/-- The parameters that `CONFIG GET` knows, with their values. -/
def configParameters (stats : ServerStats) (aof : AofStatus) (db : Database) : List (Bytes × Bytes) :=
  [(ascii "maxmemory", Decimal.ofNat db.memoryLimit),
    (ascii "maxmemory-policy", evictionPolicyName db.policy),
    (ascii "appendonly", ascii (if aof.attached then "yes" else "no")),
    (ascii "port", Decimal.ofInt stats.port),
    (ascii "save", [])]

def configGet (stats : ServerStats) (aof : AofStatus) (pattern : Bytes) : Handling Database Bytes :=
  fun session =>
    let matched := (configParameters stats aof session.store).filter fun parameter =>
      globMatch (lowercase pattern) parameter.1
    (.ok (respArray (matched.flatMap fun parameter => [parameter.1, parameter.2])), session)

def configSet (parameter value : Bytes) : Handling Database Bytes :=
  if lowercase parameter = ascii "maxmemory" then
    match parseMemorySize value with
    | none => pure (respError (ascii "argument must be a memory value"))
    | some bytes => do
      call (Database.setMaxMemory bytes)
      let (_, evicted) ← call Database.evictIfNeeded
      propagateEvicted evicted
      pure (respSimpleString (ascii "OK"))
  else if lowercase parameter = ascii "maxmemory-policy" then
    match parseEvictionPolicy (lowercase value) with
    | none =>
      pure (respError (ascii "invalid maxmemory-policy; use noeviction or allkeys-lru"))
    | some policy => do
      call (Database.setEvictionPolicy policy)
      pure (respSimpleString (ascii "OK"))
  else pure (respError (ascii "Unsupported CONFIG parameter: " ++ parameter))

def config (stats : ServerStats) (aof : AofStatus) (arguments : List Bytes) :
    Handling Database Bytes := do
  let subcommand := uppercase (← argument arguments 1)
  if subcommand = ascii "GET" ∧ arguments.length = 3 then do
    let pattern ← argument arguments 2
    configGet stats aof pattern
  else if subcommand = ascii "SET" ∧ arguments.length = 4 then do
    let parameter ← argument arguments 2
    let value ← argument arguments 3
    configSet parameter value
  else
    pure (respError
      (ascii "unknown subcommand or wrong number of arguments for 'config' command"))

def memory (arguments : List Bytes) (now : Int) : Handling Database Bytes := do
  let subcommand ← argument arguments 1
  if uppercase subcommand ≠ ascii "USAGE" ∨ arguments.length ≠ 3 then
    pure (respError
      (ascii "unknown subcommand or wrong number of arguments for 'memory' command"))
  else do
    let key ← argument arguments 2
    fun session => match session.store.inspect key now with
      | none => (.ok respNull, session)
      | some info => (.ok (respInteger info.memory), session)

end Handler

/-! ### The command table -/

/-- The handlers that only use the data operations. -/
inductive DataHandler where
  | ping | echo | select | commandInfo | flushall
  | del | «exists» | type | keys | expire | pexpire | expireat | pexpireat | ttl | pttl | persist
  | set | get | mset | mget | incr | decr | incrby | decrby | append | strlen
  | lpush | rpush | lpop | rpop | lrange | llen | lindex
  | hset | hget | hdel | hgetall | hlen | hexists | hkeys | hvals
  | sadd | srem | smembers | sismember | scard
  deriving DecidableEq, Repr

/-- The handlers that look into the database itself. -/
inductive ServerHandler where
  | dbsize | info | config | memory
  deriving DecidableEq, Repr

/-- A member function of the command table. -/
inductive HandlerName where
  | data (handler : DataHandler)
  | server (handler : ServerHandler)
  deriving DecidableEq, Repr

/-- Call a data handler. -/
def DataHandler.run {σ : Type} [Storage σ] (handler : DataHandler) (arguments : List Bytes)
    (now : Int) : Handling σ Bytes :=
  match handler with
  | .ping => Handler.ping arguments
  | .echo => Handler.echo arguments
  | .select => Handler.select arguments
  | .commandInfo => Handler.commandInfo
  | .flushall => Handler.flushall
  | .del => Handler.del arguments now
  | .exists => Handler.existsHandler arguments now
  | .type => Handler.type arguments now
  | .keys => Handler.keys arguments now
  | .expire => Handler.expire arguments now
  | .pexpire => Handler.pexpire arguments now
  | .expireat => Handler.expireat arguments now
  | .pexpireat => Handler.pexpireat arguments now
  | .ttl => Handler.ttl arguments now
  | .pttl => Handler.pttl arguments now
  | .persist => Handler.persist arguments now
  | .set => Handler.set arguments now
  | .get => Handler.get arguments now
  | .mset => Handler.mset arguments now
  | .mget => Handler.mget arguments now
  | .incr => Handler.incr arguments now
  | .decr => Handler.decr arguments now
  | .incrby => Handler.incrby arguments now
  | .decrby => Handler.decrby arguments now
  | .append => Handler.append arguments now
  | .strlen => Handler.strlen arguments now
  | .lpush => Handler.lpush arguments now
  | .rpush => Handler.rpush arguments now
  | .lpop => Handler.lpop arguments now
  | .rpop => Handler.rpop arguments now
  | .lrange => Handler.lrange arguments now
  | .llen => Handler.llen arguments now
  | .lindex => Handler.lindex arguments now
  | .hset => Handler.hset arguments now
  | .hget => Handler.hget arguments now
  | .hdel => Handler.hdel arguments now
  | .hgetall => Handler.hgetall arguments now
  | .hlen => Handler.hlen arguments now
  | .hexists => Handler.hexists arguments now
  | .hkeys => Handler.hkeys arguments now
  | .hvals => Handler.hvals arguments now
  | .sadd => Handler.sadd arguments now
  | .srem => Handler.srem arguments now
  | .smembers => Handler.smembers arguments now
  | .sismember => Handler.sismember arguments now
  | .scard => Handler.scard arguments now

def ServerHandler.run (handler : ServerHandler) (stats : ServerStats) (aof : AofStatus)
    (arguments : List Bytes) (now : Int) : Handling Database Bytes :=
  match handler with
  | .dbsize => Handler.dbsize
  | .info => Handler.info stats aof arguments now
  | .config => Handler.config stats aof arguments
  | .memory => Handler.memory arguments now

structure CommandSpec where
  handler : HandlerName
  /-- Exact argument count including the command name, or `-N` for "at least N". -/
  arity : Int
  write : Bool
  denyOom : Bool
  deriving DecidableEq, Repr

/-- The entries of `commandTable` for data handlers. -/
def dataCommands : List (String × DataHandler × Int × Bool × Bool) :=
  [("PING", .ping, -1, false, false), ("ECHO", .echo, 2, false, false),
    ("SELECT", .select, 2, false, false), ("COMMAND", .commandInfo, -1, false, false),
    ("FLUSHALL", .flushall, -1, true, false), ("FLUSHDB", .flushall, -1, true, false),
    ("DEL", .del, -2, true, false), ("UNLINK", .del, -2, true, false),
    ("EXISTS", .exists, -2, false, false), ("TYPE", .type, 2, false, false),
    ("KEYS", .keys, 2, false, false), ("EXPIRE", .expire, 3, true, false),
    ("PEXPIRE", .pexpire, 3, true, false), ("EXPIREAT", .expireat, 3, true, false),
    ("PEXPIREAT", .pexpireat, 3, true, false), ("TTL", .ttl, 2, false, false),
    ("PTTL", .pttl, 2, false, false), ("PERSIST", .persist, 2, true, false),
    ("SET", .set, -3, true, true), ("GET", .get, 2, false, false),
    ("MSET", .mset, -3, true, true), ("MGET", .mget, -2, false, false),
    ("INCR", .incr, 2, true, true), ("DECR", .decr, 2, true, true),
    ("INCRBY", .incrby, 3, true, true), ("DECRBY", .decrby, 3, true, true),
    ("APPEND", .append, 3, true, true), ("STRLEN", .strlen, 2, false, false),
    ("LPUSH", .lpush, -3, true, true), ("RPUSH", .rpush, -3, true, true),
    ("LPOP", .lpop, 2, true, false), ("RPOP", .rpop, 2, true, false),
    ("LRANGE", .lrange, 4, false, false), ("LLEN", .llen, 2, false, false),
    ("LINDEX", .lindex, 3, false, false), ("HSET", .hset, -4, true, true),
    ("HGET", .hget, 3, false, false), ("HDEL", .hdel, -3, true, false),
    ("HGETALL", .hgetall, 2, false, false), ("HLEN", .hlen, 2, false, false),
    ("HEXISTS", .hexists, 3, false, false), ("HKEYS", .hkeys, 2, false, false),
    ("HVALS", .hvals, 2, false, false), ("SADD", .sadd, -3, true, true),
    ("SREM", .srem, -3, true, false), ("SMEMBERS", .smembers, 2, false, false),
    ("SISMEMBER", .sismember, 3, false, false), ("SCARD", .scard, 2, false, false)]

/-- Source `commandTable`. -/
def commandTable : List (Bytes × CommandSpec) :=
  [(ascii "DBSIZE", ⟨.server .dbsize, 1, false, false⟩),
    (ascii "INFO", ⟨.server .info, -1, false, false⟩),
    (ascii "CONFIG", ⟨.server .config, -2, false, false⟩),
    (ascii "MEMORY", ⟨.server .memory, -2, false, false⟩)] ++
  dataCommands.map fun (name, handler, arity, write, denyOom) =>
    (ascii name, ⟨.data handler, arity, write, denyOom⟩)

/-- `static_cast<int>` of an argument count. -/
def toInt (count : Nat) : Int :=
  (count : Int).bmod (2 ^ 32)

/-- The arity test of `execute`. -/
def arityFits (arity : Int) (arguments : List Bytes) : Bool :=
  let count := toInt arguments.length
  !((arity > 0 && count ≠ arity) || (arity < 0 && count < -arity))

/-! ### Execution -/

/-- What the first part of `execute` makes of a non-empty argument vector. -/
inductive Resolution where
  | quit
  | unknown
  | wrongArity
  | dispatch (spec : CommandSpec)
  deriving DecidableEq, Repr

def resolve (arguments : List Bytes) : Resolution :=
  let name := uppercase (arguments.headD [])
  if name = ascii "QUIT" then .quit
  else
    match commandTable.lookup name with
    | none => .unknown
    | some spec => if arityFits spec.arity arguments then .dispatch spec else .wrongArity

/-- What `execute` knows when it dispatches to a handler. -/
lemma resolve_dispatch {arguments : List Bytes} {spec : CommandSpec}
    (h : resolve arguments = .dispatch spec) :
    commandTable.lookup (uppercase (arguments.headD [])) = some spec ∧
      arityFits spec.arity arguments = true := by
  unfold resolve at h
  dsimp only at h
  split at h
  · cases h
  · split at h
    · cases h
    · rename_i found
      split at h
      · cases h
        rename_i fits
        exact ⟨found, fits⟩
      · cases h

/-- An entry that the command table finds. -/
lemma mem_of_lookup {name : Bytes} {spec : CommandSpec} (h : commandTable.lookup name = some spec) :
    (name, spec) ∈ commandTable := by
  obtain ⟨before, after, e, _⟩ := List.lookup_eq_some_iff.mp h
  rw [e]
  simp

/-- The arity test on an argument vector that an `int` can count. -/
lemma arityFits_short {arity : Int} {arguments : List Bytes} (short : arguments.length < 2 ^ 31) :
    arityFits arity arguments = !((arity > 0 && (arguments.length : Int) ≠ arity) ||
      (arity < 0 && (arguments.length : Int) < -arity)) := by
  have counted : toInt arguments.length = arguments.length := by
    unfold toInt
    rw [Int.bmod_eq_of_le] <;> omega
  simp only [arityFits, counted]

/-- A name of the table, in any case, with enough arguments is dispatched. -/
lemma resolve_of_upper {name upper : Bytes} {rest : List Bytes} {spec : CommandSpec}
    (named : uppercase name = upper) (other : upper ≠ ascii "QUIT")
    (found : commandTable.lookup upper = some spec)
    (fits : arityFits spec.arity (name :: rest) = true) :
    resolve (name :: rest) = .dispatch spec := by
  simp only [resolve, List.headD_cons, named, if_neg other, found, fits, if_true]

lemma resolve_of_name {name : Bytes} {rest : List Bytes} {spec : CommandSpec}
    (upper : uppercase name = name) (other : name ≠ ascii "QUIT")
    (found : commandTable.lookup name = some spec)
    (fits : arityFits spec.arity (name :: rest) = true) :
    resolve (name :: rest) = .dispatch spec :=
  resolve_of_upper upper other found fits

/-- The payload for a handler that ends without a reply. -/
def Failure.payload : Failure → Bytes
  | .thrown .wrongType => respErrorWithCode (ascii "WRONGTYPE") DbError.wrongType.what
  | .thrown error => respError error.what
  -- no defined outcome; `execute` never gets here
  | .missingArgument _ => []

/-- The handler of a command table entry, run against the database. -/
def CommandSpec.run (spec : CommandSpec) (stats : ServerStats) (aof : AofStatus)
    (arguments : List Bytes) (now : Int) : Handling Database Bytes :=
  match spec.handler with
  | .data handler => handler.run arguments now
  | .server handler => handler.run stats aof arguments now

/-- The payload that `execute` makes of a handler's outcome. -/
def payloadOf (outcome : Except Failure Bytes) : Bytes :=
  match outcome with
  | .ok payload => payload
  | .error failure => failure.payload

/-- The eviction before a write command: whether usage is within the limit afterwards. -/
def evictBefore : Handling Database Bool := do
  let (withinLimit, evicted) ← Handler.call Database.evictIfNeeded
  Handler.propagateEvicted evicted
  pure withinLimit

/-- The last part of `execute`: eviction before a write command, then the handler. -/
def CommandSpec.execute (spec : CommandSpec) (stats : ServerStats) (aof : AofStatus)
    (arguments : List Bytes) (now : Int) : Handling Database Bytes :=
  if spec.write then
    if aof = .failed then
      pure (respErrorWithCode (ascii "MISCONF")
        (ascii "Errors writing to the AOF file. Write commands are disabled."))
    else do
      let withinLimit ← evictBefore
      if ¬ withinLimit ∧ spec.denyOom then
        pure (respErrorWithCode (ascii "OOM")
          (ascii "command not allowed when used memory > 'maxmemory'."))
      else spec.run stats aof arguments now
  else spec.run stats aof arguments now

namespace Processor

/-- Source `execute`: the reply, the records that were propagated, and the state after the command. -/
def execute (aof : AofStatus) (now : Int) (arguments : List Bytes) (processor : Processor) :
    CommandReply × List (List Bytes) × Processor :=
  if arguments = [] then (⟨respError (ascii "empty command"), false⟩, [], processor)
  else
    let stats := { processor.stats with totalCommands := processor.stats.totalCommands + 1 }
    let processor := { processor with stats := stats }
    match resolve arguments with
    | .quit => (⟨respSimpleString (ascii "OK"), true⟩, [], processor)
    | .unknown =>
      (⟨respError (ascii "unknown command '" ++ arguments.headD [] ++ ascii "'"), false⟩, [],
        processor)
    | .wrongArity =>
      (⟨respError (ascii "wrong number of arguments for '" ++
        lowercase (uppercase (arguments.headD [])) ++ ascii "' command"), false⟩, [], processor)
    | .dispatch spec =>
      let (outcome, session) := spec.execute stats aof arguments now
        { store := processor.database, attached := aof.attached }
      (⟨payloadOf outcome, false⟩, session.records, { processor with database := session.store })

end Processor

end FlashKV
