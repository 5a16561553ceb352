import FlashKV.Database.Basic
import Mathlib.Data.List.Sort

/-!
# The storage engine: public operations

Model of the public operations of `Database` (source `database.cpp`), one definition per member
function, under its name (`existsKey` for `exists`). An operation takes the readings of the clock it
makes and is a `StateAction` over the database: it returns a result, or throws `DbError`.
-/

namespace FlashKV

/-- An operation of the storage engine. -/
abbrev DbAction := StateAction DbError Database

namespace Database

/-! ### Keyspace -/

def del (key : Bytes) (now : Int) : DbAction Bool := fun db =>
  match db.findLive key now with
  | (none, db) => (.ok false, db)
  | (some _, db) => (.ok true, db.erase key)

def existsKey (key : Bytes) (now : Int) : DbAction Bool := fun db =>
  let (node, db) := db.findLive key now
  (.ok node.isSome, db)

def type (key : Bytes) (now : Int) : DbAction (Option ValueType) := fun db =>
  let (node, db) := db.findLive key now
  (.ok (node.map (·.value.type)), db)

def keys (pattern : Bytes) (now : Int) : DbAction (List Bytes) := fun db =>
  let matched := db.data.entries.filter fun e => !e.2.expired now && globMatch pattern e.1
  (.ok ((matched.map (·.1)).insertionSort (· ≤ ·)), db)

def size (db : Database) : Nat :=
  db.data.keys.length

def volatileKeyCount (db : Database) : Nat :=
  db.volatileKeys.length

def clear : DbAction Unit := fun db =>
  (.ok (), { db with data := ∅, lru := [], volatileKeys := [], memoryUsed := 0 })

/-! ### Strings -/

def set (key value : Bytes) (now : Int) : DbAction Unit := fun db =>
  let (node, db) := db.findLive key now
  let db := if node.isSome then db.erase key else db
  (.ok (), db.create key (.string value))

def get (key : Bytes) (now : Int) : DbAction (Option Bytes) := fun db =>
  match db.findLive key now with
  | (none, db) =>
    (.ok none, db.count fun s => { s with keyspaceMisses := s.keyspaceMisses + 1 })
  | (some node, db) =>
    match node.value with
    | .string value =>
      (.ok (some value), (db.count fun s => { s with keyspaceHits := s.keyspaceHits + 1 }).touch key)
    | _ => (.error .wrongType, db)

def incrementBy (key : Bytes) (delta now : Int) : DbAction Int := fun db =>
  let (node, db) := db.findOrCreate key (.string (ascii "0")) now
  match node.value with
  | .string text =>
    match parseStrictInteger text with
    | none => (.error .notInteger, db)
    | some current =>
      match fit64 (current + delta) with
      | none => (.error .overflow, db)
      | some result =>
        let updated := Decimal.ofInt result
        let db := db.removeMemory key text.length
        let db := db.assign key (.string updated)
        let db := db.addMemory key updated.length
        (.ok result, db.touch key)
  | _ => (.error .wrongType, db)

def append (key value : Bytes) (now : Int) : DbAction Nat := fun db =>
  match db.findLive key now with
  | (none, db) => (.ok value.length, db.create key (.string value))
  | (some node, db) =>
    match node.value with
    | .string text =>
      let db := db.assign key (.string (text ++ value))
      let db := db.addMemory key value.length
      (.ok (text ++ value).length, db.touch key)
    | _ => (.error .wrongType, db)

def stringLength (key : Bytes) (now : Int) : DbAction Nat := fun db =>
  match db.findLive key now with
  | (none, db) => (.ok 0, db)
  | (some node, db) =>
    match node.value with
    | .string text => (.ok text.length, db)
    | _ => (.error .wrongType, db)

/-! ### Expiration -/

/-- `now` is read by `findLive`, `now'` by the comparison. -/
def expireAtMs (key : Bytes) (unixTimeMs now now' : Int) : DbAction Bool := fun db =>
  match db.findLive key now with
  | (none, db) => (.ok false, db)
  | (some _, db) =>
    if unixTimeMs ≤ now' then (.ok true, db.erase key)
    else (.ok true, db.setExpiry key unixTimeMs)

/-- `start` is the reading that the deadline is counted from. -/
def expire (key : Bytes) (seconds start now now' : Int) : DbAction Bool :=
  if seconds ≤ 0 then expireAtMs key start now now'
  else
    let deadline := ((fit64 (seconds * 1000)).bind fun ms => fit64 (start + ms)).getD int64Max
    expireAtMs key deadline now now'

def persist (key : Bytes) (now : Int) : DbAction Bool := fun db =>
  match db.findLive key now with
  | (none, db) => (.ok false, db)
  | (some node, db) =>
    if node.expiresAtMs = noExpiry then (.ok false, db)
    else (.ok true, db.clearExpiry key)

/-- `now` is read by `findLive`, `now'` by the subtraction. -/
def ttlMs (key : Bytes) (now now' : Int) : DbAction Int := fun db =>
  match db.findLive key now with
  | (none, db) => (.ok (-2), db)
  | (some node, db) =>
    if node.expiresAtMs = noExpiry then (.ok (-1), db)
    else (.ok (wrap64 (node.expiresAtMs - now')), db)

/-- The rounding of `ttl`: the addition is a `long long` one, the division truncates. -/
def ttlSeconds (remaining : Int) : Int :=
  if remaining < 0 then remaining else (wrap64 (remaining + 500)).tdiv 1000

def ttl (key : Bytes) (now now' : Int) : DbAction Int := do
  let remaining ← ttlMs key now now'
  pure (ttlSeconds remaining)

/-- The choices that `activeExpireCycle` does not make itself: the random picks, in order, and the
outcomes of the time-budget test, in order. -/
structure CycleChoices where
  pick : Nat → Nat
  overBudget : Nat → Bool

/-- One round of sampling: at most `samples` picks, stopping when no volatile key is left. The
result is the pair of `sampled` and `expired`; `picked` counts the picks of earlier rounds. -/
def sampleExpired (pick : Nat → Nat) (now : Int) :
    Nat → Nat → Nat × Nat → Database → (Nat × Nat) × Database
  | 0, _, counts, db => (counts, db)
  | samples + 1, picked, (sampled, expired), db =>
    match db.volatileKeys[pick picked % db.volatileKeys.length]? with
    | none => ((sampled, expired), db)
    | some key =>
      match db.data.lookup key with
      | none => ((sampled + 1, expired), db)
      | some node =>
        if node.expiresAtMs ≤ now then
          sampleExpired pick now samples (picked + 1) (sampled + 1, expired + 1) (db.erase key)
        else
          sampleExpired pick now samples (picked + 1) (sampled + 1, expired) db

/-- The outer loop of `activeExpireCycle`. A round that goes on has removed a key, so the number of
volatile keys bounds the rounds. -/
def expireRounds (choices : CycleChoices) (samplesPerLoop : Nat) (now : Int) :
    Nat → Nat → Nat → Nat → Database → Nat × Database
  | 0, _, _, removed, db => (removed, db)
  | fuel + 1, round, picked, removed, db =>
    if db.volatileKeys = [] then (removed, db)
    else
      let samples := min samplesPerLoop db.volatileKeys.length
      let ((sampled, expired), db) := sampleExpired choices.pick now samples picked (0, 0) db
      let db := db.count fun s => { s with expiredKeys := s.expiredKeys + expired }
      if expired * 4 ≤ sampled then (removed + expired, db)
      else if choices.overBudget round then (removed + expired, db)
      else
        expireRounds choices samplesPerLoop now fuel (round + 1) (picked + sampled)
          (removed + expired) db

def activeExpireCycle (choices : CycleChoices) (samplesPerLoop : Nat) (now : Int) :
    DbAction Nat := fun db =>
  let (removed, db) :=
    expireRounds choices samplesPerLoop now (db.volatileKeys.length + 1) 0 0 0 db
  (.ok removed, db)

/-! ### Lists -/

/-- `push_front` or `push_back`. -/
def pushElement (side : ListSide) (value : Bytes) (list : ListValue) : ListValue :=
  match side with
  | .left => value :: list
  | .right => list ++ [value]

/-- `front` and `pop_front`, or `back` and `pop_back`. -/
def popElement (side : ListSide) (list : ListValue) : Option (Bytes × ListValue) :=
  match side with
  | .left => list.head?.map fun value => (value, list.tail)
  | .right => list.getLast?.map fun value => (value, list.dropLast)

/-- One round of `listPush`. -/
def listPushOne (key : Bytes) (side : ListSide) (db : Database) (value : Bytes) : Database :=
  match db.valueOf key with
  | some (.list list) =>
    (db.assign key (.list (pushElement side value list))).addMemory key (elementCost value)
  | _ => db

def listPush (key : Bytes) (values : List Bytes) (side : ListSide) (now : Int) : DbAction Nat :=
  fun db =>
    let (node, db) := db.findOrCreate key (.list []) now
    match node.value with
    | .list list =>
      let db := values.foldl (listPushOne key side) db
      (.ok (list.length + values.length), db.touch key)
    | _ => (.error .wrongType, db)

def listPop (key : Bytes) (side : ListSide) (now : Int) : DbAction (Option Bytes) := fun db =>
  match db.findLive key now with
  | (none, db) => (.ok none, db)
  | (some node, db) =>
    match node.value with
    | .list list =>
      match popElement side list with
      -- `front` and `back` are undefined here; no stored list is empty
      | none => (.ok none, db)
      | some (value, list) =>
        let db := db.assign key (.list list)
        let db := db.removeMemory key (elementCost value)
        (.ok (some value), if list = [] then db.erase key else db.touch key)
    | _ => (.error .wrongType, db)

def listRange (key : Bytes) (start stop now : Int) : DbAction (List Bytes) := fun db =>
  match db.findLive key now with
  | (none, db) => (.ok [], db)
  | (some node, db) =>
    match node.value with
    | .list list =>
      let length : Int := list.length
      let start := if start < 0 then start + length else start
      let stop := if stop < 0 then stop + length else stop
      let start := max start 0
      let stop := min stop (length - 1)
      if start > stop ∨ start ≥ length then (.ok [], db)
      else (.ok ((list.take (stop + 1).toNat).drop start.toNat), db.touch key)
    | _ => (.error .wrongType, db)

def listIndex (key : Bytes) (index now : Int) : DbAction (Option Bytes) := fun db =>
  match db.findLive key now with
  | (none, db) => (.ok none, db)
  | (some node, db) =>
    match node.value with
    | .list list =>
      let length : Int := list.length
      let index := if index < 0 then index + length else index
      if index < 0 ∨ index ≥ length then (.ok none, db)
      else (.ok list[index.toNat]?, db.touch key)
    | _ => (.error .wrongType, db)

def listLength (key : Bytes) (now : Int) : DbAction Nat := fun db =>
  match db.findLive key now with
  | (none, db) => (.ok 0, db)
  | (some node, db) =>
    match node.value with
    | .list list => (.ok list.length, db)
    | _ => (.error .wrongType, db)

/-! ### Hashes -/

/-- One round of `hashSet`; the flag says whether the field is new. -/
def hashSetOne (key field value : Bytes) (db : Database) : Bool × Database :=
  match db.valueOf key with
  | some (.hash hash) =>
    match hash.lookup field with
    | none =>
      let db := db.addMemory key (elementCost field)
      let db := db.assign key (.hash (hash.insert field value))
      (true, db.addMemory key value.length)
    | some old =>
      let db := db.removeMemory key old.length
      let db := db.assign key (.hash (hash.insert field value))
      (false, db.addMemory key value.length)
  | _ => (false, db)

/-- The loop of `hashSet`, counting the new fields. -/
def hashSetLoop (key : Bytes) : List (Bytes × Bytes) → Nat → Database → Nat × Database
  | [], added, db => (added, db)
  | (field, value) :: fields, added, db =>
    let (inserted, db) := db.hashSetOne key field value
    hashSetLoop key fields (if inserted then added + 1 else added) db

def hashSet (key : Bytes) (fields : List (Bytes × Bytes)) (now : Int) : DbAction Nat := fun db =>
  let (node, db) := db.findOrCreate key (.hash ∅) now
  match node.value with
  | .hash _ =>
    let (added, db) := hashSetLoop key fields 0 db
    (.ok added, db.touch key)
  | _ => (.error .wrongType, db)

def hashGet (key field : Bytes) (now : Int) : DbAction (Option Bytes) := fun db =>
  match db.findLive key now with
  | (none, db) => (.ok none, db)
  | (some node, db) =>
    match node.value with
    | .hash hash =>
      match hash.lookup field with
      | none => (.ok none, db)
      | some value => (.ok (some value), db.touch key)
    | _ => (.error .wrongType, db)

/-- One round of `hashDelete`; the flag says whether the field was there. -/
def hashDeleteOne (key field : Bytes) (db : Database) : Bool × Database :=
  match db.valueOf key with
  | some (.hash hash) =>
    match hash.lookup field with
    | none => (false, db)
    | some value =>
      let db := db.removeMemory key (elementCost field + value.length)
      (true, db.assign key (.hash (hash.erase field)))
  | _ => (false, db)

/-- The loop of `hashDelete`, counting the removed fields. -/
def hashDeleteLoop (key : Bytes) : List Bytes → Nat → Database → Nat × Database
  | [], removed, db => (removed, db)
  | field :: fields, removed, db =>
    let (erased, db) := db.hashDeleteOne key field
    hashDeleteLoop key fields (if erased then removed + 1 else removed) db

/-- Is the hash or set stored under the key empty? -/
def holdsEmpty (key : Bytes) (db : Database) : Bool :=
  match db.valueOf key with
  | some (.hash hash) => hash.keys.isEmpty
  | some (.set set) => decide (set = ∅)
  | _ => false

def hashDelete (key : Bytes) (fields : List Bytes) (now : Int) : DbAction Nat := fun db =>
  match db.findLive key now with
  | (none, db) => (.ok 0, db)
  | (some node, db) =>
    match node.value with
    | .hash _ =>
      let (removed, db) := hashDeleteLoop key fields 0 db
      (.ok removed, if db.holdsEmpty key then db.erase key else db)
    | _ => (.error .wrongType, db)

/-- `std::pair`'s order on the fields of a hash. -/
def fieldLe (a b : Bytes × Bytes) : Prop :=
  a.1 < b.1 ∨ a.1 = b.1 ∧ a.2 ≤ b.2

instance : DecidableRel fieldLe := fun _ _ => inferInstanceAs (Decidable (_ ∨ _))

/-- The fields of a hash in sorted order. -/
def sortedFields (hash : HashValue) : List (Bytes × Bytes) :=
  (hash.entries.map fun e => (e.1, e.2)).insertionSort fieldLe

def hashGetAll (key : Bytes) (now : Int) : DbAction (List (Bytes × Bytes)) := fun db =>
  match db.findLive key now with
  | (none, db) => (.ok [], db)
  | (some node, db) =>
    match node.value with
    | .hash hash => (.ok (sortedFields hash), db.touch key)
    | _ => (.error .wrongType, db)

def hashLength (key : Bytes) (now : Int) : DbAction Nat := fun db =>
  match db.findLive key now with
  | (none, db) => (.ok 0, db)
  | (some node, db) =>
    match node.value with
    | .hash hash => (.ok hash.keys.length, db)
    | _ => (.error .wrongType, db)

def hashExists (key field : Bytes) (now : Int) : DbAction Bool := fun db =>
  match db.findLive key now with
  | (none, db) => (.ok false, db)
  | (some node, db) =>
    match node.value with
    | .hash hash => (.ok (hash.lookup field).isSome, db)
    | _ => (.error .wrongType, db)

/-! ### Sets -/

/-- One round of `setAdd`; the flag says whether the member is new. -/
def setAddOne (key member : Bytes) (db : Database) : Bool × Database :=
  match db.valueOf key with
  | some (.set set) =>
    if member ∈ set then (false, db)
    else
      let db := db.assign key (.set (insert member set))
      (true, db.addMemory key (elementCost member))
  | _ => (false, db)

/-- The loop of `setAdd`, counting the new members. -/
def setAddLoop (key : Bytes) : List Bytes → Nat → Database → Nat × Database
  | [], added, db => (added, db)
  | member :: members, added, db =>
    let (inserted, db) := db.setAddOne key member
    setAddLoop key members (if inserted then added + 1 else added) db

def setAdd (key : Bytes) (members : List Bytes) (now : Int) : DbAction Nat := fun db =>
  let (node, db) := db.findOrCreate key (.set ∅) now
  match node.value with
  | .set _ =>
    let (added, db) := setAddLoop key members 0 db
    (.ok added, db.touch key)
  | _ => (.error .wrongType, db)

/-- One round of `setRemove`; the flag says whether the member was there. -/
def setRemoveOne (key member : Bytes) (db : Database) : Bool × Database :=
  match db.valueOf key with
  | some (.set set) =>
    if member ∈ set then
      let db := db.assign key (.set (set.erase member))
      (true, db.removeMemory key (elementCost member))
    else (false, db)
  | _ => (false, db)

/-- The loop of `setRemove`, counting the removed members. -/
def setRemoveLoop (key : Bytes) : List Bytes → Nat → Database → Nat × Database
  | [], removed, db => (removed, db)
  | member :: members, removed, db =>
    let (erased, db) := db.setRemoveOne key member
    setRemoveLoop key members (if erased then removed + 1 else removed) db

def setRemove (key : Bytes) (members : List Bytes) (now : Int) : DbAction Nat := fun db =>
  match db.findLive key now with
  | (none, db) => (.ok 0, db)
  | (some node, db) =>
    match node.value with
    | .set _ =>
      let (removed, db) := setRemoveLoop key members 0 db
      (.ok removed, if db.holdsEmpty key then db.erase key else db)
    | _ => (.error .wrongType, db)

/-- The members of a set in sorted order. -/
def sortedMembers (set : SetValue) : List Bytes :=
  set.sort (· ≤ ·)

def setMembers (key : Bytes) (now : Int) : DbAction (List Bytes) := fun db =>
  match db.findLive key now with
  | (none, db) => (.ok [], db)
  | (some node, db) =>
    match node.value with
    | .set set => (.ok (sortedMembers set), db.touch key)
    | _ => (.error .wrongType, db)

def setIsMember (key member : Bytes) (now : Int) : DbAction Bool := fun db =>
  match db.findLive key now with
  | (none, db) => (.ok false, db)
  | (some node, db) =>
    match node.value with
    | .set set => (.ok (decide (member ∈ set)), db)
    | _ => (.error .wrongType, db)

def setCardinality (key : Bytes) (now : Int) : DbAction Nat := fun db =>
  match db.findLive key now with
  | (none, db) => (.ok 0, db)
  | (some node, db) =>
    match node.value with
    | .set set => (.ok set.card, db)
    | _ => (.error .wrongType, db)

/-! ### Memory management -/

def setMaxMemory (bytes : Nat) : DbAction Unit := fun db =>
  (.ok (), { db with memoryLimit := bytes })

def setEvictionPolicy (policy : EvictionPolicy) : DbAction Unit := fun db =>
  (.ok (), { db with policy := policy })

/-- One round of `evictIfNeeded` on the key at the back of the recency list. -/
def evictOne (victim : Bytes) (db : Database) : Database :=
  (db.erase victim).count fun s => { s with evictedKeys := s.evictedKeys + 1 }

/-- The loop of `evictIfNeeded`: whether usage ended within the limit, and the evicted keys in
order. Every round removes the last recency-list cell, so the length of that list bounds the rounds. -/
def evictLoop : Nat → Database → (Bool × List Bytes) × Database
  | 0, db => ((false, []), db)
  | fuel + 1, db =>
    if db.memoryUsed ≤ db.memoryLimit then ((true, []), db)
    else if db.policy = .noEviction then ((false, []), db)
    else
      match db.lru.getLast? with
      | none => ((false, []), db)
      | some victim =>
        let ((within, evicted), db) := evictLoop fuel (db.evictOne victim.key)
        ((within, victim.key :: evicted), db)

def evictIfNeeded : DbAction (Bool × List Bytes) := fun db =>
  if db.memoryLimit = 0 then (.ok (true, []), db)
  else
    let (result, db) := evictLoop (db.lru.length + 1) db
    (.ok result, db)

def keysByRecency (db : Database) : List Bytes :=
  db.lru.map (·.key)

/-- Source `KeyInfo`, with a copy of the value. -/
structure KeyInfo where
  type : ValueType
  ttlMs : Int
  memory : Nat
  value : Value

/-- Source `inspect`: expired keys are reported as missing, nothing is changed. -/
def inspect (key : Bytes) (now : Int) (db : Database) : Option KeyInfo :=
  match db.data.lookup key with
  | none => none
  | some found =>
    let info (remaining : Int) : KeyInfo :=
      ⟨found.value.type, remaining, found.memory, found.value⟩
    if found.expiresAtMs = noExpiry then some (info (-1))
    else
      let remaining := wrap64 (found.expiresAtMs - now)
      if remaining ≤ 0 then none else some (info remaining)

end Database

end FlashKV
