import FlashKV.Command.Storage
import FlashKV.Database.View

/-!
# The reference: a typed map with deadlines

What the storage engine is for, stated without its machinery: a finite map from keys to a typed
value and an optional deadline. An entry vanishes the instant the clock reaches its deadline; an
operation on an existing key of another type fails with `wrongType`; an aggregate that becomes empty
is removed; setting a string drops the deadline and every other value write keeps it; a failed
operation changes nothing.

Every operation on one key is a `SlotOp`: it sees the live slot of the key and says what to return
and what to store there. How deadlines and remaining times are represented is left to `Conventions`:
plain integers in the reference proper (`Conventions.exact`), or the sentinel and the machine
arithmetic of the source (`Conventions.native`).
-/

namespace FlashKV

/-- How deadlines are stored and remaining times computed. -/
structure Conventions where
  /-- The deadline that is stored for a requested time. -/
  deadline : Int → Option Int
  /-- Milliseconds to go to a deadline, at a clock reading. -/
  remainingMs : Int → Int → Int
  /-- A remaining time in seconds. -/
  seconds : Int → Int

/-- Mathematical integers, and no special deadline. -/
def Conventions.exact : Conventions where
  deadline := some
  remainingMs deadline now := deadline - now
  seconds remaining := (remaining + 500) / 1000

/-- The source's sentinel and its `long long` arithmetic. -/
def Conventions.native : Conventions where
  deadline := deadlineOf
  remainingMs deadline now := wrap64 (deadline - now)
  seconds := Database.ttlSeconds

/-- An operation on one key: from its live slot, the result and the slot to store. -/
abbrev SlotOp (α : Type) := Option Slot → Except DbError α × Option Slot

def Value.asString : Value → Option Bytes
  | .string text => some text
  | _ => none

def Value.asList : Value → Option ListValue
  | .list items => some items
  | _ => none

def Value.asHash : Value → Option HashValue
  | .hash fields => some fields
  | _ => none

def Value.asSet : Value → Option SetValue
  | .set members => some members
  | _ => none

namespace SlotOp

variable {α β : Type}

/-- Read a value of one type, or `absent` if there is none. -/
def read (as : Value → Option β) (absent : α) (f : β → α) : SlotOp α
  | none => (.ok absent, none)
  | some slot =>
    match as slot.value with
    | none => (.error .wrongType, some slot)
    | some value => (.ok (f value), some slot)

/-- Change a value of one type: `f` gets the value, if there is one, and gives the result and the
new value, if one is left. The deadline is kept. -/
def write (as : Value → Option β) (wrap : β → Value)
    (f : Option β → Except DbError (α × Option β)) : SlotOp α
  | none =>
    match f none with
    | .error e => (.error e, none)
    | .ok (a, value) => (.ok a, value.map fun value => ⟨wrap value, none⟩)
  | some slot =>
    match as slot.value with
    | none => (.error .wrongType, some slot)
    | some value =>
      match f (some value) with
      | .error e => (.error e, some slot)
      | .ok (a, value) => (.ok a, value.map fun value => ⟨wrap value, slot.deadline⟩)

/-! ### Keyspace -/

def del : SlotOp Bool := fun slot => (.ok slot.isSome, none)

def existsKey : SlotOp Bool := fun slot => (.ok slot.isSome, slot)

def type : SlotOp (Option ValueType) := fun slot => (.ok (slot.map (·.value.type)), slot)

/-! ### Strings -/

def set (value : Bytes) : SlotOp Unit := fun _ => (.ok (), some ⟨.string value, none⟩)

def get : SlotOp (Option Bytes) := read Value.asString none some

def incrementBy (delta : Int) : SlotOp Int :=
  write Value.asString .string fun text =>
    match parseStrictInteger (text.getD (ascii "0")) with
    | none => .error .notInteger
    | some current =>
      match fit64 (current + delta) with
      | none => .error .overflow
      | some result => .ok (result, some (Decimal.ofInt result))

def append (value : Bytes) : SlotOp Nat :=
  write Value.asString .string fun text =>
    .ok ((text.getD [] ++ value).length, some (text.getD [] ++ value))

def stringLength : SlotOp Nat := read Value.asString 0 List.length

/-! ### Expiration -/

/-- A deadline in the past removes the key. -/
def expireAtMs (c : Conventions) (unixTimeMs now : Int) : SlotOp Bool
  | none => (.ok false, none)
  | some slot =>
    if unixTimeMs ≤ now then (.ok true, none)
    else (.ok true, some ⟨slot.value, c.deadline unixTimeMs⟩)

def persist : SlotOp Bool
  | none => (.ok false, none)
  | some slot =>
    match slot.deadline with
    | none => (.ok false, some slot)
    | some _ => (.ok true, some ⟨slot.value, none⟩)

/-- `-2` for a missing key, `-1` for a key without a deadline. -/
def ttlWith (remaining : Int → Int) : SlotOp Int
  | none => (.ok (-2), none)
  | some slot =>
    match slot.deadline with
    | none => (.ok (-1), some slot)
    | some deadline => (.ok (remaining deadline), some slot)

def ttlMs (c : Conventions) (now : Int) : SlotOp Int :=
  ttlWith fun deadline => c.remainingMs deadline now

def ttl (c : Conventions) (now : Int) : SlotOp Int :=
  ttlWith fun deadline => c.seconds (c.remainingMs deadline now)

/-! ### Lists -/

def listPush (values : List Bytes) (side : ListSide) : SlotOp Nat :=
  write Value.asList .list fun list =>
    let pushed := values.foldl (fun list value => Database.pushElement side value list) (list.getD [])
    .ok (pushed.length, some pushed)

def listPop (side : ListSide) : SlotOp (Option Bytes) :=
  write Value.asList .list fun list =>
    match Database.popElement side (list.getD []) with
    | none => .ok (none, list)
    | some (value, rest) => .ok (some value, if rest = [] then none else some rest)

/-- The part of a list between two positions, negative ones counted from the end. -/
def slice (start stop : Int) (list : ListValue) : ListValue :=
  let length : Int := list.length
  let start := if start < 0 then start + length else start
  let stop := if stop < 0 then stop + length else stop
  let start := max start 0
  let stop := min stop (length - 1)
  if start > stop ∨ start ≥ length then []
  else (list.take (stop + 1).toNat).drop start.toNat

def listRange (start stop : Int) : SlotOp (List Bytes) := read Value.asList [] (slice start stop)

/-- The element at a position, a negative one counted from the end. -/
def elementAt (index : Int) (list : ListValue) : Option Bytes :=
  let length : Int := list.length
  let index := if index < 0 then index + length else index
  if index < 0 ∨ index ≥ length then none else list[index.toNat]?

def listIndex (index : Int) : SlotOp (Option Bytes) := read Value.asList none (elementAt index)

def listLength : SlotOp Nat := read Value.asList 0 List.length

/-! ### Hashes -/

/-- Store fields, counting the new ones. -/
def storeFields : List (Bytes × Bytes) → HashValue → Nat → Nat × HashValue
  | [], hash, added => (added, hash)
  | (field, value) :: fields, hash, added =>
    storeFields fields (hash.insert field value)
      (if (hash.lookup field).isSome then added else added + 1)

def hashSet (fields : List (Bytes × Bytes)) : SlotOp Nat :=
  write Value.asHash .hash fun hash =>
    let (added, hash) := storeFields fields (hash.getD ∅) 0
    .ok (added, some hash)

def hashGet (field : Bytes) : SlotOp (Option Bytes) :=
  read Value.asHash none fun hash => hash.lookup field

/-- Remove fields, counting the ones that were there. -/
def removeFields : List Bytes → HashValue → Nat → Nat × HashValue
  | [], hash, removed => (removed, hash)
  | field :: fields, hash, removed =>
    removeFields fields (hash.erase field)
      (if (hash.lookup field).isSome then removed + 1 else removed)

def hashDelete (fields : List Bytes) : SlotOp Nat :=
  write Value.asHash .hash fun hash =>
    match hash with
    | none => .ok (0, none)
    | some hash =>
      let (removed, hash) := removeFields fields hash 0
      .ok (removed, if hash.keys.isEmpty then none else some hash)

def hashGetAll : SlotOp (List (Bytes × Bytes)) := read Value.asHash [] Database.sortedFields

def hashLength : SlotOp Nat := read Value.asHash 0 fun hash => hash.keys.length

def hashExists (field : Bytes) : SlotOp Bool :=
  read Value.asHash false fun hash => (hash.lookup field).isSome

/-! ### Sets -/

/-- Add members, counting the new ones. -/
def addMembers : List Bytes → SetValue → Nat → Nat × SetValue
  | [], set, added => (added, set)
  | member :: members, set, added =>
    addMembers members (insert member set) (if member ∈ set then added else added + 1)

def setAdd (members : List Bytes) : SlotOp Nat :=
  write Value.asSet .set fun set =>
    let (added, set) := addMembers members (set.getD ∅) 0
    .ok (added, some set)

/-- Remove members, counting the ones that were there. -/
def removeMembers : List Bytes → SetValue → Nat → Nat × SetValue
  | [], set, removed => (removed, set)
  | member :: members, set, removed =>
    removeMembers members (set.erase member) (if member ∈ set then removed + 1 else removed)

def setRemove (members : List Bytes) : SlotOp Nat :=
  write Value.asSet .set fun set =>
    match set with
    | none => .ok (0, none)
    | some set =>
      let (removed, set) := removeMembers members set 0
      .ok (removed, if set = ∅ then none else some set)

def setMembers : SlotOp (List Bytes) := read Value.asSet [] Database.sortedMembers

def setIsMember (member : Bytes) : SlotOp Bool :=
  read Value.asSet false fun set => decide (member ∈ set)

def setCardinality : SlotOp Nat := read Value.asSet 0 Finset.card

/-- Reading stores what it sees. -/
lemma read_keeps {as : Value → Option β} {absent : α} {f : β → α} (slot : Option Slot) :
    (read as absent f slot).2 = slot := by
  cases slot with
  | none => rfl
  | some slot =>
    unfold read
    dsimp only
    split <;> rfl

section Write

variable {as : Value → Option β} {wrap : β → Value} {f : Option β → Except DbError (α × Option β)}
  {slot : Slot} {value : β} {a : α} {next : Option β} {e : DbError}

/-- Writing to a value of another type fails. -/
lemma write_other (other : as slot.value = none) :
    write as wrap f (some slot) = (.error .wrongType, some slot) := by
  simp only [write, other]

/-- A failed write leaves the slot alone. -/
lemma write_error (held : as slot.value = some value) (failed : f (some value) = .error e) :
    write as wrap f (some slot) = (.error e, some slot) := by
  simp only [write, held, failed]

/-- A write keeps the deadline. -/
lemma write_ok (held : as slot.value = some value) (done : f (some value) = .ok (a, next)) :
    write as wrap f (some slot) = (.ok a, next.map fun next => ⟨wrap next, slot.deadline⟩) := by
  simp only [write, held, done]

/-- A write to a missing key creates it without a deadline. -/
lemma write_absent (done : f none = .ok (a, next)) :
    write as wrap f none = (.ok a, next.map fun next => ⟨wrap next, none⟩) := by
  simp only [write, done]

end Write

lemma ttlWith_keeps {remaining : Int → Int} (slot : Option Slot) :
    (ttlWith remaining slot).2 = slot := by
  cases slot with
  | none => rfl
  | some slot =>
    unfold ttlWith
    dsimp only
    split <;> rfl

end SlotOp

/-- A finite map from keys to slots. -/
@[ext]
structure TypedMap (c : Conventions) where
  find : Bytes → Option Slot
  finite : {key | (find key).isSome}.Finite

namespace TypedMap

variable {c : Conventions} {α : Type}

/-- The empty map. -/
def empty : TypedMap c :=
  ⟨fun _ => none, by simp⟩

/-- The entries that are live at time `now`. -/
def purge (now : Int) (m : TypedMap c) : TypedMap c where
  find key := (m.find key).filter (·.liveAt now)
  finite := m.finite.subset fun key h => by
    simp only [Set.mem_ofPred_eq, Option.isSome_filter] at h ⊢
    exact Option.isSome_of_any h

/-- Store a slot under a key, or nothing. -/
def put (key : Bytes) (slot : Option Slot) (m : TypedMap c) : TypedMap c where
  find := Function.update m.find key slot
  finite := (m.finite.insert key).subset fun a h => by
    by_cases e : a = key
    · exact .inl e
    · simp only [Set.mem_ofPred_eq, Function.update_of_ne e] at h
      exact .inr h

/-- Run an operation on the live slot of a key. -/
def onKey (key : Bytes) (now : Int) (op : SlotOp α) : StateAction DbError (TypedMap c) α := fun m =>
  ((op ((m.purge now).find key)).1, (m.purge now).put key (op ((m.purge now).find key)).2)

open Classical in
/-- The live keys that match a pattern, in order. -/
noncomputable def keys (pattern : Bytes) (now : Int) : StateAction DbError (TypedMap c) (List Bytes) :=
  fun m =>
    (.ok (Database.sortedMembers ((m.purge now).finite.toFinset.filter (globMatch pattern ·))),
      m.purge now)

noncomputable instance : Storage (TypedMap c) where
  del key now := onKey key now SlotOp.del
  existsKey key now := onKey key now SlotOp.existsKey
  type key now := onKey key now SlotOp.type
  keys := keys
  clear := fun _ => (.ok (), empty)
  set key value now := onKey key now (SlotOp.set value)
  get key now := onKey key now SlotOp.get
  incrementBy key delta now := onKey key now (SlotOp.incrementBy delta)
  append key value now := onKey key now (SlotOp.append value)
  stringLength key now := onKey key now SlotOp.stringLength
  expireAtMs key unixTimeMs now := onKey key now (SlotOp.expireAtMs c unixTimeMs now)
  persist key now := onKey key now SlotOp.persist
  ttlMs key now := onKey key now (SlotOp.ttlMs c now)
  ttl key now := onKey key now (SlotOp.ttl c now)
  listPush key values side now := onKey key now (SlotOp.listPush values side)
  listPop key side now := onKey key now (SlotOp.listPop side)
  listRange key start stop now := onKey key now (SlotOp.listRange start stop)
  listIndex key index now := onKey key now (SlotOp.listIndex index)
  listLength key now := onKey key now SlotOp.listLength
  hashSet key fields now := onKey key now (SlotOp.hashSet fields)
  hashGet key field now := onKey key now (SlotOp.hashGet field)
  hashDelete key fields now := onKey key now (SlotOp.hashDelete fields)
  hashGetAll key now := onKey key now SlotOp.hashGetAll
  hashLength key now := onKey key now SlotOp.hashLength
  hashExists key field now := onKey key now (SlotOp.hashExists field)
  setAdd key members now := onKey key now (SlotOp.setAdd members)
  setRemove key members now := onKey key now (SlotOp.setRemove members)
  setMembers key now := onKey key now SlotOp.setMembers
  setIsMember key member now := onKey key now (SlotOp.setIsMember member)
  setCardinality key now := onKey key now SlotOp.setCardinality

section Laws

variable {t t' : Int} {key a : Bytes} {slot slot' : Option Slot} {m : TypedMap c}

@[simp]
lemma find_put : (m.put key slot).find = Function.update m.find key slot := rfl

@[simp]
lemma find_empty (a : Bytes) : (empty : TypedMap c).find a = none := rfl

/-- Purging now and again later is purging later. -/
lemma purge_purge (le : t ≤ t') : (m.purge t).purge t' = m.purge t' := by
  ext1
  funext a
  simp only [purge, Option.filter_filter]
  congr 1
  funext slot
  cases live : slot.liveAt t' with
  | false => rw [Bool.and_false]
  | true => rw [Slot.liveAt_of_le le live, Bool.and_true]

lemma purge_put : (m.put key slot).purge t = (m.purge t).put key (slot.filter (·.liveAt t)) := by
  ext1
  funext a
  by_cases e : a = key
  · subst e
    simp [purge, put]
  · simp [purge, put, Function.update_of_ne e]

lemma put_self : m.put key (m.find key) = m := by
  ext1
  exact Function.update_eq_self key m.find

end Laws

end TypedMap

end FlashKV
