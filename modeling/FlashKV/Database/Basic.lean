import FlashKV.Database.Glob
import FlashKV.Lib.StateAction
import FlashKV.Lib.Assoc
import FlashKV.Lib.SwapPop
import Mathlib.Data.Finset.Sort
import Mathlib.Algebra.BigOperators.Group.Finset.Basic

/-!
# The storage engine: data and internal helpers

Model of the private part of `Database` (source `database.hpp`, `database.cpp`).

* A `Node*` is represented by the node's key: the hash table owns the node and a key has at most
  one.
* A recency-list iterator is represented by the identity of the list cell it points to
  (`LruCell.cell`); cells are numbered in order of allocation.
* The clock is not a field: an operation takes the readings of `now()` it makes as arguments.
* `size_t` counters are natural numbers, since the accounted bytes stay below `2 ^ 64`; subtraction
  wraps, and the ghost field `underflows` counts the subtractions that do.
-/

namespace FlashKV

/-- The least `long long`. -/
def int64Min : Int := -2 ^ 63

/-- The greatest `long long`. -/
def int64Max : Int := 2 ^ 63 - 1

/-- A value of a `long long`. -/
def IsInt64 (z : Int) : Prop :=
  int64Min ≤ z ∧ z ≤ int64Max

instance (z : Int) : Decidable (IsInt64 z) :=
  inferInstanceAs (Decidable (_ ∧ _))

/-- Two's complement reduction to a `long long`. -/
def wrap64 (z : Int) : Int := z.bmod (2 ^ 64)

lemma wrap64_of_fits {z : Int} (least : int64Min ≤ z) (greatest : z ≤ int64Max) : wrap64 z = z := by
  rw [int64Min] at least
  rw [int64Max] at greatest
  unfold wrap64
  rw [Int.bmod_eq_of_le] <;> omega

/-- `__builtin_add_overflow` and `__builtin_mul_overflow`: the exact result if it is a `long long`. -/
def fit64 (z : Int) : Option Int :=
  if int64Min ≤ z ∧ z ≤ int64Max then some z else none

lemma fit64_eq_some_iff {z w : Int} : fit64 z = some w ↔ w = z ∧ IsInt64 w := by
  unfold fit64
  constructor
  · intro h
    split at h
    · rename_i range
      cases h
      exact ⟨rfl, range⟩
    · cases h
  · rintro ⟨rfl, range⟩
    exact if_pos range

/-- Source `parseStrictInteger`, and `parseInteger` of `commands.cpp` and `resp.cpp`. -/
def parseStrictInteger (text : Bytes) : Option Int :=
  Decimal.parseInt int64Min int64Max text

lemma parseStrictInteger_eq_some_iff {text : Bytes} {z : Int} :
    parseStrictInteger text = some z ↔ Decimal.Numeral text z ∧ IsInt64 z :=
  Decimal.parseInt_eq_some_iff

/-- `size_t` subtraction. -/
def subSize (a b : Nat) : Nat :=
  if b ≤ a then a - b else a + 2 ^ 64 - b

@[simp]
lemma subSize_zero (a : Nat) : subSize a 0 = a := by simp [subSize]

lemma subSize_of_le {a b : Nat} (h : b ≤ a) : subSize a b = a - b := by simp [subSize, h]

inductive ValueType where
  | string
  | list
  | hash
  | set
  deriving DecidableEq, Repr

inductive ListSide where
  | left
  | right
  deriving DecidableEq, Repr

inductive EvictionPolicy where
  | noEviction
  | allKeysLru
  deriving DecidableEq, Repr

/-- The exceptions that cross the database's interface: `WrongTypeError`, `NotIntegerError` and
`std::overflow_error`. -/
inductive DbError where
  | wrongType
  | notInteger
  | overflow
  deriving DecidableEq, Repr

/-- `what()` of an exception. -/
def DbError.what : DbError → Bytes
  | .wrongType => ascii "Operation against a key holding the wrong kind of value"
  | .notInteger => ascii "value is not an integer or out of range"
  | .overflow => ascii "increment or decrement would overflow"

abbrev ListValue := List Bytes
abbrev HashValue := AList fun _ : Bytes => Bytes
abbrev SetValue := Finset Bytes

/-- A typed value (source `Value`). -/
inductive Value where
  | string (text : Bytes)
  | list (list : ListValue)
  | hash (hash : HashValue)
  | set (set : SetValue)
  deriving DecidableEq

/-- The variant's index as a `ValueType`. -/
def Value.type : Value → ValueType
  | .string _ => .string
  | .list _ => .list
  | .hash _ => .hash
  | .set _ => .set

def entryOverhead : Nat := 96
def elementOverhead : Nat := 32

def elementCost (value : Bytes) : Nat :=
  value.length + elementOverhead

/-- The accounted size of a value (source `payloadMemory`). -/
def payloadMemory : Value → Nat
  | .string text => text.length
  | .list list => (list.map elementCost).sum
  | .hash hash => AList.sumBy (fun field value => elementCost field + value.length) hash
  | .set set => ∑ member ∈ set, elementCost member

/-- The deadline that stands for none (source `NO_EXPIRY`). -/
def noExpiry : Int := -1

/-- Source `Database::Entry`; `volatileIndex` is `none` for `NOT_VOLATILE`. -/
structure Entry where
  value : Value
  expiresAtMs : Int := noExpiry
  memory : Nat := 0
  lruPosition : Nat := 0
  volatileIndex : Option Nat := none
  deriving DecidableEq

/-- The test of lazy expiration: a deadline is set and the clock has reached it. -/
def Entry.expired (entry : Entry) (now : Int) : Bool :=
  entry.expiresAtMs ≠ noExpiry && entry.expiresAtMs ≤ now

structure DatabaseStats where
  expiredKeys : Nat := 0
  evictedKeys : Nat := 0
  keyspaceHits : Nat := 0
  keyspaceMisses : Nat := 0
  deriving DecidableEq, Repr

/-- A cell of the recency list: its identity and the node it points to. -/
structure LruCell where
  cell : Nat
  key : Bytes
  deriving DecidableEq, Repr

structure Database where
  data : AList (fun _ : Bytes => Entry) := ∅
  /-- Front is the most recently used key. -/
  lru : List LruCell := []
  /-- The identity of the next recency-list cell. -/
  nextCell : Nat := 0
  /-- Keys with an expiry, sampled by `activeExpireCycle`. -/
  volatileKeys : List Bytes := []
  memoryUsed : Nat := 0
  memoryLimit : Nat := 0
  policy : EvictionPolicy := .noEviction
  statistics : DatabaseStats := {}
  /-- Ghost: the number of `size_t` subtractions that wrapped. -/
  underflows : Nat := 0

namespace Database

/-- Write through a `Node*`: replace the entry of a present key. -/
def update (key : Bytes) (f : Entry → Entry) (db : Database) : Database :=
  match db.data.lookup key with
  | some entry => { db with data := db.data.insert key (f entry) }
  | none => db

/-- Read through a `Node*`: the value of a present key. -/
def valueOf (key : Bytes) (db : Database) : Option Value :=
  (db.data.lookup key).map (·.value)

/-- Source `setExpiry`. -/
def setExpiry (key : Bytes) (unixTimeMs : Int) (db : Database) : Database :=
  match db.data.lookup key with
  | none => db
  | some entry =>
    match entry.volatileIndex with
    | none =>
      let index := db.volatileKeys.length
      let db := { db with volatileKeys := db.volatileKeys ++ [key] }
      db.update key fun entry => { entry with volatileIndex := some index, expiresAtMs := unixTimeMs }
    | some _ => db.update key fun entry => { entry with expiresAtMs := unixTimeMs }

/-- Source `clearExpiry`: swap-and-pop keeps removal O(1). -/
def clearExpiry (key : Bytes) (db : Database) : Database :=
  match db.data.lookup key with
  | none => db
  | some entry =>
    match entry.volatileIndex, db.volatileKeys.getLast? with
    | some index, some last =>
      let db := { db with volatileKeys := db.volatileKeys.swapPop index last }
      let db := db.update last fun entry => { entry with volatileIndex := some index }
      db.update key fun entry => { entry with volatileIndex := none, expiresAtMs := noExpiry }
    -- `back` of an empty vector does not arise: an index is a position in it
    | _, _ =>
      db.update key fun entry => { entry with volatileIndex := none, expiresAtMs := noExpiry }

/-- The entry that `create` stores: `try_emplace` keeps the fields of a node that is already there. -/
def newEntry (key : Bytes) (value : Value) (db : Database) : Entry :=
  { (db.data.lookup key).getD { value := value } with
    value := value
    memory := entryOverhead + key.length + payloadMemory value
    lruPosition := db.nextCell }

/-- Source `create`. -/
def create (key : Bytes) (value : Value) (db : Database) : Database :=
  { db with
    data := db.data.insert key (db.newEntry key value)
    lru := ⟨db.nextCell, key⟩ :: db.lru
    nextCell := db.nextCell + 1
    memoryUsed := db.memoryUsed + (entryOverhead + key.length + payloadMemory value) }

/-- One if subtracting `b` from the `size_t` `a` wraps, else zero. -/
def wraps (a b : Nat) : Nat :=
  if b ≤ a then 0 else 1

/-- Source `erase`. -/
def erase (key : Bytes) (db : Database) : Database :=
  let db := db.clearExpiry key
  match db.data.lookup key with
  | none => db
  | some entry =>
    { db with
      lru := db.lru.filter (·.cell ≠ entry.lruPosition)
      memoryUsed := subSize db.memoryUsed entry.memory
      underflows := db.underflows + wraps db.memoryUsed entry.memory
      data := db.data.erase key }

/-- Source `touch`: splice the key's cell to the front. -/
def touch (key : Bytes) (db : Database) : Database :=
  match db.data.lookup key with
  | none => db
  | some entry =>
    { db with
      lru := db.lru.filter (·.cell = entry.lruPosition) ++
        db.lru.filter (·.cell ≠ entry.lruPosition) }

/-- Source `addMemory`. -/
def addMemory (key : Bytes) (bytes : Nat) (db : Database) : Database :=
  let db := db.update key fun entry => { entry with memory := entry.memory + bytes }
  { db with memoryUsed := db.memoryUsed + bytes }

/-- Source `removeMemory`. -/
def removeMemory (key : Bytes) (bytes : Nat) (db : Database) : Database :=
  match db.data.lookup key with
  | none => db
  | some entry =>
    { db with
      data := db.data.insert key { entry with memory := subSize entry.memory bytes }
      memoryUsed := subSize db.memoryUsed bytes
      underflows := db.underflows + wraps entry.memory bytes + wraps db.memoryUsed bytes }

/-- Assignment through the reference that `valueAs` returns. -/
def assign (key : Bytes) (value : Value) (db : Database) : Database :=
  db.update key fun entry => { entry with value := value }

/-- Add to the counters of `stats()`. -/
def count (f : DatabaseStats → DatabaseStats) (db : Database) : Database :=
  { db with statistics := f db.statistics }

/-- Source `findLive`: expired keys are removed on access. -/
def findLive (key : Bytes) (now : Int) (db : Database) : Option Entry × Database :=
  match db.data.lookup key with
  | none => (none, db)
  | some entry =>
    if entry.expired now then
      (none, (db.erase key).count fun s => { s with expiredKeys := s.expiredKeys + 1 })
    else
      (some entry, db)

/-- The node of a key, created with `initial` if there is no live one. -/
def findOrCreate (key : Bytes) (initial : Value) (now : Int) (db : Database) : Entry × Database :=
  match db.findLive key now with
  | (some entry, db) => (entry, db)
  | (none, db) => (db.newEntry key initial, db.create key initial)

end Database

end FlashKV
