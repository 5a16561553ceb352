import FlashKV.Command.Storage
import FlashKV.Resp.Parser

/-!
# Command handlers

Model of the data handlers of `CommandProcessor` (source `commands.cpp`), one definition per member
function, under its name (`existsHandler` for `exists`). A handler takes the whole argument vector,
the command name at position 0, and returns the payload of its reply. The clock reading `now` is the
one of the command.

Reading `arguments[i]` past the end has no defined outcome in the source: it is the failure
`missingArgument` here.
-/

namespace FlashKV

/-- ASCII case conversion: `std::toupper` in the `C` locale. -/
def uppercase (value : Bytes) : Bytes :=
  value.map fun b => if 97 ≤ b ∧ b ≤ 122 then b - 32 else b

/-- ASCII case conversion: `std::tolower` in the `C` locale. -/
def lowercase (value : Bytes) : Bytes :=
  value.map fun b => if 65 ≤ b ∧ b ≤ 90 then b + 32 else b

def notAnInteger : Bytes :=
  respError (ascii "value is not an integer or out of range")

def syntaxError : Bytes :=
  respError (ascii "syntax error")

def nullableBulk : Option Bytes → Bytes
  | some value => respBulkString value
  | none => respNull

/-- Source `valueTypeName`. -/
def valueTypeName : ValueType → Bytes
  | .string => ascii "string"
  | .list => ascii "list"
  | .hash => ascii "hash"
  | .set => ascii "set"

/-- How a handler can end without a reply. -/
inductive Failure where
  | thrown (error : DbError)
  | missingArgument (index : Nat)
  deriving DecidableEq, Repr

/-- What a handler works on: the storage engine, whether a log is attached, and the records that
`propagate` has handed to the log so far. -/
structure Session (σ : Type) where
  store : σ
  attached : Bool
  records : List (List Bytes) := []

/-- A computation of a handler. -/
abbrev Handling (σ : Type) := StateAction Failure (Session σ)

namespace Handler

variable {σ α : Type}

/-- Call the storage engine. -/
def call (act : StateAction DbError σ α) : Handling σ α := fun session =>
  match act session.store with
  | (.ok a, store) => (.ok a, { session with store := store })
  | (.error e, store) => (.error (.thrown e), { session with store := store })

/-- `arguments[index]`. -/
def argument (arguments : List Bytes) (index : Nat) : Handling σ Bytes :=
  match arguments[index]? with
  | some value => pure value
  | none => StateAction.throw (.missingArgument index)

/-- `{arguments.begin() + index, arguments.end()}`. -/
def argumentsFrom (arguments : List Bytes) (index : Nat) : Handling σ (List Bytes) :=
  if index ≤ arguments.length then pure (arguments.drop index)
  else StateAction.throw (.missingArgument index)

/-- Source `propagate`: nothing happens without a log. -/
def propagate (arguments : List Bytes) : Handling σ Unit :=
  StateAction.modify fun session =>
    if session.attached then { session with records := session.records ++ [arguments] } else session

/-- `if (changed) propagate(arguments);` -/
def propagateIf (changed : Bool) (arguments : List Bytes) : Handling σ Unit :=
  if changed then propagate arguments else pure ()

/-- Source `propagateExpiry`: absolute timestamps keep TTLs correct across restarts. -/
def propagateExpiry (key : Bytes) (unixTimeMs : Int) : Handling σ Unit :=
  propagate [ascii "PEXPIREAT", key, Decimal.ofInt unixTimeMs]

variable [Storage σ]

/-! ### Connection and server -/

def ping (arguments : List Bytes) : Handling σ Bytes :=
  if arguments.length = 1 then pure (respSimpleString (ascii "PONG"))
  else if arguments.length = 2 then do
    let message ← argument arguments 1
    pure (respBulkString message)
  else pure (respError (ascii "wrong number of arguments for 'ping' command"))

def echo (arguments : List Bytes) : Handling σ Bytes := do
  let message ← argument arguments 1
  pure (respBulkString message)

def select (arguments : List Bytes) : Handling σ Bytes := do
  let index ← argument arguments 1
  if index ≠ ascii "0" then pure (respError (ascii "DB index is out of range"))
  else pure (respSimpleString (ascii "OK"))

def commandInfo : Handling σ Bytes :=
  pure (respEncodedArray [])

def flushall : Handling σ Bytes := do
  call Storage.clear
  propagate [ascii "FLUSHALL"]
  pure (respSimpleString (ascii "OK"))

/-! ### Keyspace -/

/-- The counting loop of `del` and `exists`. -/
def countKeys (act : Bytes → StateAction DbError σ Bool) (keys : List Bytes) : Handling σ Int :=
  keys.foldlM
    (fun count key => do
      let hit ← call (act key)
      pure (if hit then count + 1 else count)) 0

def del (arguments : List Bytes) (now : Int) : Handling σ Bytes := do
  let deleted ← countKeys (fun key => Storage.del key now) (arguments.drop 1)
  propagateIf (deleted > 0) arguments
  pure (respInteger deleted)

def existsHandler (arguments : List Bytes) (now : Int) : Handling σ Bytes := do
  let found ← countKeys (fun key => Storage.existsKey key now) (arguments.drop 1)
  pure (respInteger found)

def type (arguments : List Bytes) (now : Int) : Handling σ Bytes := do
  let key ← argument arguments 1
  let valueType ← call (Storage.type key now)
  pure (respSimpleString (match valueType with
    | some type => valueTypeName type
    | none => ascii "none"))

def keys (arguments : List Bytes) (now : Int) : Handling σ Bytes := do
  let pattern ← argument arguments 1
  let found ← call (Storage.keys pattern now)
  pure (respArray found)

/-- The deadline that `expireGeneric` computes, if no step overflows. -/
def expireDeadline (amount unitMs now : Int) (absolute : Bool) : Option Int := do
  let deadline ← fit64 (amount * unitMs)
  if absolute then some deadline else fit64 (deadline + now)

/-- The record of `expireGeneric`: a deadline in the past deletes the key immediately. -/
def propagateDeadline (key : Bytes) (deadline : Int) (present : Bool) : Handling σ Unit :=
  if present then propagateExpiry key deadline else propagate [ascii "DEL", key]

def expireGeneric (arguments : List Bytes) (unitMs : Int) (absolute : Bool) (now : Int) :
    Handling σ Bytes := do
  let text ← argument arguments 2
  match parseStrictInteger text with
  | none => pure notAnInteger
  | some amount =>
    match expireDeadline amount unitMs now absolute with
    | none => do
      let name ← argument arguments 0
      pure (respError (ascii "invalid expire time in '" ++ lowercase name ++ ascii "' command"))
    | some deadline => do
      let key ← argument arguments 1
      let found ← call (Storage.expireAtMs key deadline now)
      if found then do
        let present ← call (Storage.existsKey key now)
        propagateDeadline key deadline present
        pure (respInteger 1)
      else pure (respInteger 0)

def expire (arguments : List Bytes) (now : Int) : Handling σ Bytes :=
  expireGeneric arguments 1000 false now

def pexpire (arguments : List Bytes) (now : Int) : Handling σ Bytes :=
  expireGeneric arguments 1 false now

def expireat (arguments : List Bytes) (now : Int) : Handling σ Bytes :=
  expireGeneric arguments 1000 true now

def pexpireat (arguments : List Bytes) (now : Int) : Handling σ Bytes :=
  expireGeneric arguments 1 true now

def ttl (arguments : List Bytes) (now : Int) : Handling σ Bytes := do
  let key ← argument arguments 1
  let seconds ← call (Storage.ttl key now)
  pure (respInteger seconds)

def pttl (arguments : List Bytes) (now : Int) : Handling σ Bytes := do
  let key ← argument arguments 1
  let milliseconds ← call (Storage.ttlMs key now)
  pure (respInteger milliseconds)

def persist (arguments : List Bytes) (now : Int) : Handling σ Bytes := do
  let key ← argument arguments 1
  let persisted ← call (Storage.persist key now)
  if persisted then do
    propagate arguments
    pure (respInteger 1)
  else pure (respInteger 0)

/-! ### Strings -/

/-- The local variables of `set` that its options determine. -/
structure SetOptions where
  onlyIfMissing : Bool := false
  onlyIfPresent : Bool := false
  deadline : Option Int := none
  deriving DecidableEq, Repr

/-- The deadline of an `EX` or `PX` option, if the amount is positive and no step overflows. -/
def setDeadline (amount unitMs now : Int) : Option Int :=
  if amount ≤ 0 then none
  else (fit64 (amount * unitMs)).bind fun whenMs => fit64 (whenMs + now)

/-- The option loop of `set`; an error is the payload of an early return. -/
def parseSetOptions (now : Int) : List Bytes → SetOptions → Except Bytes SetOptions
  | [], options => .ok options
  | text :: rest, options =>
    let option := uppercase text
    if option = ascii "NX" then parseSetOptions now rest { options with onlyIfMissing := true }
    else if option = ascii "XX" then parseSetOptions now rest { options with onlyIfPresent := true }
    else if option = ascii "EX" ∨ option = ascii "PX" then
      match rest, options.deadline with
      | amountText :: rest, none =>
        match parseStrictInteger amountText with
        | none => .error notAnInteger
        | some amount =>
          match setDeadline amount (if option = ascii "EX" then 1000 else 1) now with
          | none => .error (respError (ascii "invalid expire time in 'set' command"))
          | some deadline => parseSetOptions now rest { options with deadline := some deadline }
      | _, _ => .error syntaxError
    else .error syntaxError

/-- The last part of `set`, for a deadline that its options give. -/
def setExpiry (key : Bytes) (deadline : Option Int) (now : Int) : Handling σ Unit :=
  match deadline with
  | none => pure ()
  | some deadline => do
    let _ ← call (Storage.expireAtMs key deadline now)
    propagateExpiry key deadline

def set (arguments : List Bytes) (now : Int) : Handling σ Bytes := do
  let key ← argument arguments 1
  let value ← argument arguments 2
  match parseSetOptions now (arguments.drop 3) {} with
  | .error payload => pure payload
  | .ok options =>
    if options.onlyIfMissing ∧ options.onlyIfPresent then pure syntaxError
    else do
      let present ← call (Storage.existsKey key now)
      if (options.onlyIfMissing ∧ present) ∨ (options.onlyIfPresent ∧ ¬ present) then pure respNull
      else do
        call (Storage.set key value now)
        propagate [ascii "SET", key, value]
        setExpiry key options.deadline now
        pure (respSimpleString (ascii "OK"))

def get (arguments : List Bytes) (now : Int) : Handling σ Bytes := do
  let key ← argument arguments 1
  let value ← call (Storage.get key now)
  pure (nullableBulk value)

/-- The pairwise loop of `mset`. -/
def msetLoop (now : Int) : List Bytes → Handling σ Unit
  | [] => pure ()
  | key :: value :: rest => do
    call (Storage.set key value now)
    msetLoop now rest
  | [_] => StateAction.throw (.missingArgument 1)

def mset (arguments : List Bytes) (now : Int) : Handling σ Bytes :=
  if arguments.length % 2 = 0 then
    pure (respError (ascii "wrong number of arguments for 'mset' command"))
  else do
    msetLoop now (arguments.drop 1)
    propagate arguments
    pure (respSimpleString (ascii "OK"))

def mget (arguments : List Bytes) (now : Int) : Handling σ Bytes := do
  let values ← (arguments.drop 1).foldlM
    (fun values key => do
      let value ← StateAction.tryCatch
        (do
          let value ← call (Storage.get key now)
          pure (nullableBulk value))
        fun failure => match failure with
          | .thrown .wrongType => pure respNull
          | failure => StateAction.throw failure
      pure (values ++ [value])) []
  pure (respEncodedArray values)

/-- The common part of `incr`, `decr`, `incrby` and `decrby`. -/
def increment (arguments : List Bytes) (delta now : Int) : Handling σ Bytes := do
  let key ← argument arguments 1
  let result ← call (Storage.incrementBy key delta now)
  propagate arguments
  pure (respInteger result)

def incr (arguments : List Bytes) (now : Int) : Handling σ Bytes :=
  increment arguments 1 now

def decr (arguments : List Bytes) (now : Int) : Handling σ Bytes :=
  increment arguments (-1) now

def incrby (arguments : List Bytes) (now : Int) : Handling σ Bytes := do
  let text ← argument arguments 2
  match parseStrictInteger text with
  | none => pure notAnInteger
  | some delta => increment arguments delta now

def decrby (arguments : List Bytes) (now : Int) : Handling σ Bytes := do
  let text ← argument arguments 2
  match parseStrictInteger text with
  | none => pure notAnInteger
  | some delta =>
    if delta = int64Min then pure (respError (ascii "decrement would overflow"))
    else increment arguments (-delta) now

def append (arguments : List Bytes) (now : Int) : Handling σ Bytes := do
  let key ← argument arguments 1
  let value ← argument arguments 2
  let length ← call (Storage.append key value now)
  propagate arguments
  pure (respInteger length)

def strlen (arguments : List Bytes) (now : Int) : Handling σ Bytes := do
  let key ← argument arguments 1
  let length ← call (Storage.stringLength key now)
  pure (respInteger length)

/-! ### Lists -/

/-- The common part of `lpush` and `rpush`. -/
def push (arguments : List Bytes) (side : ListSide) (now : Int) : Handling σ Bytes := do
  let key ← argument arguments 1
  let values ← argumentsFrom arguments 2
  let length ← call (Storage.listPush key values side now)
  propagate arguments
  pure (respInteger length)

def lpush (arguments : List Bytes) (now : Int) : Handling σ Bytes :=
  push arguments .left now

def rpush (arguments : List Bytes) (now : Int) : Handling σ Bytes :=
  push arguments .right now

/-- The common part of `lpop` and `rpop`. -/
def pop (arguments : List Bytes) (side : ListSide) (now : Int) : Handling σ Bytes := do
  let key ← argument arguments 1
  let value ← call (Storage.listPop key side now)
  propagateIf value.isSome arguments
  pure (nullableBulk value)

def lpop (arguments : List Bytes) (now : Int) : Handling σ Bytes :=
  pop arguments .left now

def rpop (arguments : List Bytes) (now : Int) : Handling σ Bytes :=
  pop arguments .right now

def lrange (arguments : List Bytes) (now : Int) : Handling σ Bytes := do
  let startText ← argument arguments 2
  match parseStrictInteger startText with
  | none => pure notAnInteger
  | some start => do
    let stopText ← argument arguments 3
    match parseStrictInteger stopText with
    | none => pure notAnInteger
    | some stop => do
      let key ← argument arguments 1
      let elements ← call (Storage.listRange key start stop now)
      pure (respArray elements)

def llen (arguments : List Bytes) (now : Int) : Handling σ Bytes := do
  let key ← argument arguments 1
  let length ← call (Storage.listLength key now)
  pure (respInteger length)

def lindex (arguments : List Bytes) (now : Int) : Handling σ Bytes := do
  let text ← argument arguments 2
  match parseStrictInteger text with
  | none => pure notAnInteger
  | some index => do
    let key ← argument arguments 1
    let value ← call (Storage.listIndex key index now)
    pure (nullableBulk value)

/-! ### Hashes -/

/-- The pairwise loop of `hset`. -/
def fieldPairs : List Bytes → Handling σ (List (Bytes × Bytes))
  | [] => pure []
  | field :: value :: rest => do
    let fields ← fieldPairs rest
    pure ((field, value) :: fields)
  | [_] => StateAction.throw (.missingArgument 1)

def hset (arguments : List Bytes) (now : Int) : Handling σ Bytes :=
  if arguments.length % 2 ≠ 0 then
    pure (respError (ascii "wrong number of arguments for 'hset' command"))
  else do
    let fields ← fieldPairs (arguments.drop 2)
    let key ← argument arguments 1
    let added ← call (Storage.hashSet key fields now)
    propagate arguments
    pure (respInteger added)

def hget (arguments : List Bytes) (now : Int) : Handling σ Bytes := do
  let key ← argument arguments 1
  let field ← argument arguments 2
  let value ← call (Storage.hashGet key field now)
  pure (nullableBulk value)

/-- The common part of `hdel`, `sadd` and `srem`: the call returns how many elements it changed. -/
def changeElements (act : Bytes → List Bytes → StateAction DbError σ Nat) (arguments : List Bytes) :
    Handling σ Bytes := do
  let key ← argument arguments 1
  let elements ← argumentsFrom arguments 2
  let changed ← call (act key elements)
  propagateIf (changed > 0) arguments
  pure (respInteger changed)

def hdel (arguments : List Bytes) (now : Int) : Handling σ Bytes :=
  changeElements (fun key fields => Storage.hashDelete key fields now) arguments

def hgetall (arguments : List Bytes) (now : Int) : Handling σ Bytes := do
  let key ← argument arguments 1
  let fields ← call (Storage.hashGetAll key now)
  pure (respArray (fields.flatMap fun field => [field.1, field.2]))

def hlen (arguments : List Bytes) (now : Int) : Handling σ Bytes := do
  let key ← argument arguments 1
  let length ← call (Storage.hashLength key now)
  pure (respInteger length)

def hexists (arguments : List Bytes) (now : Int) : Handling σ Bytes := do
  let key ← argument arguments 1
  let field ← argument arguments 2
  let found ← call (Storage.hashExists key field now)
  pure (respInteger (if found then 1 else 0))

def hkeys (arguments : List Bytes) (now : Int) : Handling σ Bytes := do
  let key ← argument arguments 1
  let fields ← call (Storage.hashGetAll key now)
  pure (respArray (fields.map (·.1)))

def hvals (arguments : List Bytes) (now : Int) : Handling σ Bytes := do
  let key ← argument arguments 1
  let fields ← call (Storage.hashGetAll key now)
  pure (respArray (fields.map (·.2)))

/-! ### Sets -/

def sadd (arguments : List Bytes) (now : Int) : Handling σ Bytes :=
  changeElements (fun key members => Storage.setAdd key members now) arguments

def srem (arguments : List Bytes) (now : Int) : Handling σ Bytes :=
  changeElements (fun key members => Storage.setRemove key members now) arguments

def smembers (arguments : List Bytes) (now : Int) : Handling σ Bytes := do
  let key ← argument arguments 1
  let members ← call (Storage.setMembers key now)
  pure (respArray members)

def sismember (arguments : List Bytes) (now : Int) : Handling σ Bytes := do
  let key ← argument arguments 1
  let member ← argument arguments 2
  let found ← call (Storage.setIsMember key member now)
  pure (respInteger (if found then 1 else 0))

def scard (arguments : List Bytes) (now : Int) : Handling σ Bytes := do
  let key ← argument arguments 1
  let count ← call (Storage.setCardinality key now)
  pure (respInteger count)

/-! ### Deadlines -/

omit [Storage σ]

/-- A computed deadline is a `long long`. -/
lemma expireDeadline_range {amount unitMs now deadline : Int} {absolute : Bool}
    (h : expireDeadline amount unitMs now absolute = some deadline) :
    int64Min ≤ deadline ∧ deadline ≤ int64Max := by
  obtain ⟨product, fits, h⟩ := Option.bind_eq_some_iff.mp h
  split at h
  · cases h
    exact (fit64_eq_some_iff.mp fits).2
  · exact (fit64_eq_some_iff.mp h).2

/-- A deadline of `SET` is a `long long` after the clock reading. -/
lemma setDeadline_range {amount unitMs now deadline : Int} (unit : 0 < unitMs)
    (h : setDeadline amount unitMs now = some deadline) :
    now < deadline ∧ int64Min ≤ deadline ∧ deadline ≤ int64Max := by
  unfold setDeadline at h
  split at h
  · cases h
  · rename_i positive
    obtain ⟨product, fits, h⟩ := Option.bind_eq_some_iff.mp h
    obtain ⟨rfl, _⟩ := fit64_eq_some_iff.mp fits
    obtain ⟨rfl, range⟩ := fit64_eq_some_iff.mp h
    have more : 0 < amount * unitMs := Int.mul_pos (by omega) unit
    exact ⟨by omega, range⟩

/-- What the option loop returns keeps to deadlines after the clock reading. -/
lemma parseSetOptions_range {now : Int} {texts : List Bytes} {options result : SetOptions}
    (h : parseSetOptions now texts options = .ok result)
    (start : ∀ deadline, options.deadline = some deadline →
      now < deadline ∧ int64Min ≤ deadline ∧ deadline ≤ int64Max) :
    ∀ deadline, result.deadline = some deadline →
      now < deadline ∧ int64Min ≤ deadline ∧ deadline ≤ int64Max := by
  fun_induction parseSetOptions now texts options with
  | case1 =>
    cases h
    exact start
  | case2 | case3 =>
    rename_i ih
    exact ih h start
  | case6 text options option _ _ _ _ _ _ amount _ deadline computed ih =>
    refine ih h fun other given => ?_
    cases given
    refine setDeadline_range ?_ computed
    split <;> omega
  | _ => cases h

end Handler

end FlashKV
