import FlashKV.Database.Frame
import FlashKV.Reference.Engine

/-!
# What an operation does to the place of its key

An operation on a string, a list, a hash or a set that finds its key calls `touch` on most of its
paths. `Op.access` lists these operations and `Op.skips` the paths on which `touch` is missing;
`Op.place` says that on all others the key is in front afterwards, or gone.
-/

namespace FlashKV

open Database

/-- Does `listRange` return nothing? -/
def Database.rangeEmpty (start stop : Int) (list : ListValue) : Bool :=
  let length : Int := list.length
  let start := max (if start < 0 then start + length else start) 0
  let stop := min (if stop < 0 then stop + length else stop) (length - 1)
  start > stop ∨ start ≥ length

/-- Does `listIndex` return nothing? -/
def Database.outOfRange (index : Int) (list : ListValue) : Bool :=
  let length : Int := list.length
  let index := if index < 0 then index + length else index
  index < 0 ∨ index ≥ length

/-- Does `listPop` return a value? -/
def Database.popped : Except DbError (Option Bytes) → Bool
  | .ok value => value.isSome
  | .error _ => false

namespace Op

/-- The key that the call works on and the reading of its lookup, if it is one of the operations
that create a key or use its value. -/
def access : Op → Option (Bytes × Int)
  | .set key _ now | .get key now | .incrementBy key _ now | .append key _ now | .stringLength key now
  | .listPush key _ _ now | .listPop key _ now | .listRange key _ _ now | .listIndex key _ now
  | .listLength key now | .hashSet key _ now | .hashGet key _ now | .hashDelete key _ now
  | .hashGetAll key now | .hashLength key now | .hashExists key _ now | .setAdd key _ now
  | .setRemove key _ now | .setMembers key now | .setIsMember key _ now | .setCardinality key now =>
    some (key, now)
  | _ => none

/-- Does such a call return? -/
def succeeds (db : Database) : Op → Bool
  | .set key value now => (Database.set key value now db).1.isOk
  | .get key now => (Database.get key now db).1.isOk
  | .incrementBy key delta now => (Database.incrementBy key delta now db).1.isOk
  | .append key value now => (Database.append key value now db).1.isOk
  | .stringLength key now => (Database.stringLength key now db).1.isOk
  | .listPush key values side now => (Database.listPush key values side now db).1.isOk
  -- there is nothing to pop from an empty list: `front` and `back` are undefined
  | .listPop key side now => popped (Database.listPop key side now db).1
  | .listRange key start stop now => (Database.listRange key start stop now db).1.isOk
  | .listIndex key index now => (Database.listIndex key index now db).1.isOk
  | .listLength key now => (Database.listLength key now db).1.isOk
  | .hashSet key fields now => (Database.hashSet key fields now db).1.isOk
  | .hashGet key field now => (Database.hashGet key field now db).1.isOk
  | .hashDelete key fields now => (Database.hashDelete key fields now db).1.isOk
  | .hashGetAll key now => (Database.hashGetAll key now db).1.isOk
  | .hashLength key now => (Database.hashLength key now db).1.isOk
  | .hashExists key field now => (Database.hashExists key field now db).1.isOk
  | .setAdd key members now => (Database.setAdd key members now db).1.isOk
  | .setRemove key members now => (Database.setRemove key members now db).1.isOk
  | .setMembers key now => (Database.setMembers key now db).1.isOk
  | .setIsMember key member now => (Database.setIsMember key member now db).1.isOk
  | .setCardinality key now => (Database.setCardinality key now db).1.isOk
  | _ => false

/-- The calls that use the value found under their key and leave the key where it is. -/
def skips (op : Op) (value : Value) : Bool :=
  match op with
  | .stringLength _ _ => value.asString.isSome
  | .listRange _ start stop _ => value.asList.any (rangeEmpty start stop)
  | .listIndex _ index _ => value.asList.any (outOfRange index)
  | .listLength _ _ => value.asList.isSome
  | .hashGet _ field _ => value.asHash.any fun hash => (hash.lookup field).isNone
  | .hashDelete _ fields _ => value.asHash.any fun hash => ∃ field ∈ hash.keys, field ∉ fields
  | .hashLength _ _ => value.asHash.isSome
  | .hashExists _ _ _ => value.asHash.isSome
  | .setRemove _ members _ => value.asSet.any fun set => ∃ member ∈ set, member ∉ members
  | .setIsMember _ _ _ => value.asSet.isSome
  | .setCardinality _ _ => value.asSet.isSome
  | _ => false

end Op

namespace Database

variable {key : Bytes} {now : Int} {db : Database}

/-- Changes keep the recency list linked. -/
lemma Linked.mutations {p : Permits} {db' : Database} (h : db.Linked) (steps : Mutations p db db') :
    db'.Linked :=
  steps.preserves (fun _ _ m linked => linked.mutation m) h

/-- The changes of one key. -/
def changesOf (key : Bytes) : Permits where
  deadline _ := True
  key a := a = key
  evict := False
  grow := True
  clear := False
  settings := False

/-- What becomes of the place of a key that a call has found. The flags say whether the call returns
and whether it is one that leaves the key where it is. -/
inductive Place (key : Bytes) (before after : Database) : (succeeded skipped : Bool) → Prop where
  | failed :
    after.keysByRecency = before.keysByRecency →
    Place key before after false false
  | skipped :
    after.keysByRecency = before.keysByRecency →
    Place key before after true true
  | front :
    after.keysByRecency.head? = some key →
    Place key before after true false
  | gone :
    key ∉ after.keysByRecency →
    Place key before after true false

lemma Linked.head_touch (linked : db.Linked) {entry : Entry}
    (present : db.data.lookup key = some entry) :
    (db.touch key).keysByRecency.head? = some key := by
  rw [linked.keysByRecency_touch present]
  rfl

lemma Linked.notMem_erase (linked : db.Linked) {entry : Entry}
    (present : db.data.lookup key = some entry) : key ∉ (db.erase key).keysByRecency := by
  rw [linked.keysByRecency_erase present]
  simp

section Ranks

variable {α : Type} {key : Bytes} {now : Int} {succeeds : Except DbError α → Bool}
  {skips : Value → Bool}

/-- What an operation does to the place of its key: a key that is not found is left out or created
in front. -/
structure Ranks (key : Bytes) (now : Int) (succeeds : Except DbError α → Bool)
    (skips : Value → Bool) (act : DbAction α) : Prop where
  absent : ∀ db db', db.findLive key now = (none, db') → db'.Linked → db'.data.lookup key = none →
    (act db).2.keysByRecency = db'.keysByRecency ∨ (act db).2.keysByRecency.head? = some key
  present : ∀ db entry, db.findLive key now = (some entry, db) → db.Linked →
    db.data.lookup key = some entry → entry.expired now = false →
    Place key db (act db).2 (succeeds (act db).1) (skips entry.value)

/-- A key that a reading operation does not find is left out. -/
lemma Ranks.of_reads {act : DbAction α} (reads : Reads key now act)
    (present : ∀ db entry, db.findLive key now = (some entry, db) → db.Linked →
      db.data.lookup key = some entry →
      Place key db (act db).2 (succeeds (act db).1) (skips entry.value)) :
    Ranks key now succeeds skips act where
  absent db db' hf _ gone := by
    have read := reads db
    rw [hf, touch_of_absent gone, or_self] at read
    rw [read]
    exact .inl rfl
  present db entry hf linked found _ := present db entry hf linked found

lemma get_ranks : Ranks key now Except.isOk (fun _ => false) (Database.get key now) := by
  constructor
  · intro db db' hf linked gone
    simp only [Database.get, hf]
    exact .inl rfl
  · intro db entry hf linked found live
    cases value : entry.value with
    | string text =>
      simp only [Database.get, hf, value]
      have counted : (db.count fun s => { s with keyspaceHits := s.keyspaceHits + 1 }).Linked :=
        linked.congr rfl rfl rfl
      exact .front (counted.head_touch found)
    | list | hash | set =>
      simp only [Database.get, hf, value]
      exact .failed rfl

/-- A call that touches the key it has found unless a test holds. -/
lemma Place.touch_unless {db : Database} {entry : Entry} (linked : db.Linked)
    (found : db.data.lookup key = some entry) (c : Prop) [Decidable c] (a b : α) :
    Place key db (if c then (.ok a, db) else (.ok b, db.touch key) : Except DbError α × Database).2
      (if c then (.ok a, db) else (.ok b, db.touch key) : Except DbError α × Database).1.isOk
      (decide c) := by
  by_cases h : c
  · simp only [if_pos h, decide_eq_true h]
    exact .skipped rfl
  · simp only [if_neg h, decide_eq_false h]
    exact .front (linked.head_touch found)

lemma stringLength_ranks :
    Ranks key now Except.isOk (fun value => value.asString.isSome)
      (Database.stringLength key now) := by
  refine .of_reads stringLength_reads fun db entry hf linked found => ?_
  cases value : entry.value with
  | string text =>
    simp only [Database.stringLength, hf, value]
    exact .skipped rfl
  | list | hash | set =>
    simp only [Database.stringLength, hf, value]
    exact .failed rfl

lemma listRange_ranks {start stop : Int} :
    Ranks key now Except.isOk (fun value => value.asList.any (rangeEmpty start stop))
      (Database.listRange key start stop now) := by
  refine .of_reads listRange_reads fun db entry hf linked found => ?_
  cases value : entry.value with
  | list list =>
    simp only [Database.listRange, hf, value]
    exact Place.touch_unless linked found _ _ _
  | string | hash | set =>
    simp only [Database.listRange, hf, value]
    exact .failed rfl

lemma listIndex_ranks {index : Int} :
    Ranks key now Except.isOk (fun value => value.asList.any (outOfRange index))
      (Database.listIndex key index now) := by
  refine .of_reads listIndex_reads fun db entry hf linked found => ?_
  cases value : entry.value with
  | list list =>
    simp only [Database.listIndex, hf, value]
    exact Place.touch_unless linked found _ _ _
  | string | hash | set =>
    simp only [Database.listIndex, hf, value]
    exact .failed rfl

lemma listLength_ranks :
    Ranks key now Except.isOk (fun value => value.asList.isSome) (Database.listLength key now) := by
  refine .of_reads listLength_reads fun db entry hf linked found => ?_
  cases value : entry.value with
  | list list =>
    simp only [Database.listLength, hf, value]
    exact .skipped rfl
  | string | hash | set =>
    simp only [Database.listLength, hf, value]
    exact .failed rfl

lemma hashGet_ranks {field : Bytes} :
    Ranks key now Except.isOk
      (fun value => value.asHash.any fun hash => (hash.lookup field).isNone)
      (Database.hashGet key field now) := by
  refine .of_reads hashGet_reads fun db entry hf linked found => ?_
  cases value : entry.value with
  | hash hash =>
    simp only [Database.hashGet, hf, value, Value.asHash, Option.any_some]
    cases hash.lookup field with
    | none => exact .skipped rfl
    | some held => exact .front (linked.head_touch found)
  | string | list | set =>
    simp only [Database.hashGet, hf, value]
    exact .failed rfl

lemma hashGetAll_ranks :
    Ranks key now Except.isOk (fun _ => false) (Database.hashGetAll key now) := by
  refine .of_reads hashGetAll_reads fun db entry hf linked found => ?_
  cases value : entry.value with
  | hash hash =>
    simp only [Database.hashGetAll, hf, value]
    exact .front (linked.head_touch found)
  | string | list | set =>
    simp only [Database.hashGetAll, hf, value]
    exact .failed rfl

lemma hashLength_ranks :
    Ranks key now Except.isOk (fun value => value.asHash.isSome) (Database.hashLength key now) := by
  refine .of_reads hashLength_reads fun db entry hf linked found => ?_
  cases value : entry.value with
  | hash hash =>
    simp only [Database.hashLength, hf, value]
    exact .skipped rfl
  | string | list | set =>
    simp only [Database.hashLength, hf, value]
    exact .failed rfl

lemma hashExists_ranks {field : Bytes} :
    Ranks key now Except.isOk (fun value => value.asHash.isSome)
      (Database.hashExists key field now) := by
  refine .of_reads hashExists_reads fun db entry hf linked found => ?_
  cases value : entry.value with
  | hash hash =>
    simp only [Database.hashExists, hf, value]
    exact .skipped rfl
  | string | list | set =>
    simp only [Database.hashExists, hf, value]
    exact .failed rfl

lemma setMembers_ranks :
    Ranks key now Except.isOk (fun _ => false) (Database.setMembers key now) := by
  refine .of_reads setMembers_reads fun db entry hf linked found => ?_
  cases value : entry.value with
  | set members =>
    simp only [Database.setMembers, hf, value]
    exact .front (linked.head_touch found)
  | string | list | hash =>
    simp only [Database.setMembers, hf, value]
    exact .failed rfl

lemma setIsMember_ranks {member : Bytes} :
    Ranks key now Except.isOk (fun value => value.asSet.isSome)
      (Database.setIsMember key member now) := by
  refine .of_reads setIsMember_reads fun db entry hf linked found => ?_
  cases value : entry.value with
  | set members =>
    simp only [Database.setIsMember, hf, value]
    exact .skipped rfl
  | string | list | hash =>
    simp only [Database.setIsMember, hf, value]
    exact .failed rfl

lemma setCardinality_ranks :
    Ranks key now Except.isOk (fun value => value.asSet.isSome)
      (Database.setCardinality key now) := by
  refine .of_reads setCardinality_reads fun db entry hf linked found => ?_
  cases value : entry.value with
  | set members =>
    simp only [Database.setCardinality, hf, value]
    exact .skipped rfl
  | string | list | hash =>
    simp only [Database.setCardinality, hf, value]
    exact .failed rfl

lemma set_ranks {value : Bytes} :
    Ranks key now Except.isOk (fun _ => false) (Database.set key value now) := by
  constructor
  · intro db db' hf linked gone
    simp only [Database.set, hf]
    exact .inr rfl
  · intro db entry hf linked found live
    simp only [Database.set, hf]
    exact .front rfl

lemma append_ranks {value : Bytes} :
    Ranks key now Except.isOk (fun _ => false) (Database.append key value now) := by
  constructor
  · intro db db' hf linked gone
    simp only [Database.append, hf]
    exact .inr rfl
  · intro db entry hf linked found live
    cases held : entry.value with
    | string text =>
      simp only [Database.append, hf, held, assign_addMemory found]
      exact .front ((linked.rewrite _ _ _ _).head_touch (lookup_rewrite_self found _ _ _))
    | list | hash | set =>
      simp only [Database.append, hf, held]
      exact .failed rfl

lemma incrementBy_ranks {delta : Int} :
    Ranks key now Except.isOk (fun _ => false) (Database.incrementBy key delta now) := by
  constructor
  · intro db db' hf linked gone
    -- the key is created in front, and it stays there
    have created : (db'.create key (.string (ascii "0"))).data.lookup key =
        some (db'.newEntry key (.string (ascii "0"))) := by rw [lookup_create, if_pos rfl]
    have zero : parseStrictInteger (ascii "0") = some 0 := by decide
    right
    simp only [Database.incrementBy, findOrCreate, hf, newEntry, zero]
    split
    · rfl
    · rw [removeMemory_assign_addMemory created]
      exact ((linked.create _ gone).rewrite _ _ _ _).head_touch (lookup_rewrite_self created _ _ _)
  · intro db entry hf linked found live
    cases held : entry.value with
    | string text =>
      simp only [Database.incrementBy, findOrCreate, hf, held]
      cases parseStrictInteger text with
      | none => exact .failed rfl
      | some current =>
        cases sum : fit64 (current + delta) with
        | none =>
          simp only [sum]
          exact .failed rfl
        | some result =>
          simp only [sum, removeMemory_assign_addMemory found]
          exact .front ((linked.rewrite _ _ _ _).head_touch (lookup_rewrite_self found _ _ _))
    | list | hash | set =>
      simp only [Database.incrementBy, findOrCreate, hf, held]
      exact .failed rfl

/-- A key that still holds a value after some changes is touched. -/
lemma Holds.head_touch {base : Bytes → Option Slot} {expiresAtMs : Int} {value : Value}
    {before db : Database} (h : Holds key now base expiresAtMs value db) (linked : before.Linked)
    {p : Permits} (steps : Mutations p before db) :
    (db.touch key).keysByRecency.head? = some key := by
  obtain ⟨entry, found, _⟩ := h.entry
  exact (linked.mutations steps).head_touch found

lemma listPush_ranks {values : List Bytes} {side : ListSide} :
    Ranks key now Except.isOk (fun _ => false) (Database.listPush key values side now) := by
  have may : (changesOf key).key key := rfl
  constructor
  · intro db db' hf linked gone
    have created := Holds.of_create now gone (.list [])
    have steps := listPushLoop_mutates (p := changesOf key) may trivial side values
      (db'.create key (.list []))
    have front := (created.listPushLoop side values).head_touch (linked.create _ gone) steps
    simp only [Database.listPush, findOrCreate, hf, newEntry]
    exact .inr front
  · intro db entry hf linked found live
    have held := Holds.of_present found live
    have steps := listPushLoop_mutates (p := changesOf key) may trivial side values db
    cases value : entry.value with
    | list list =>
      rw [value] at held
      have front := (held.listPushLoop side values).head_touch linked steps
      simp only [Database.listPush, findOrCreate, hf, value]
      exact .front front
    | string | hash | set =>
      simp only [Database.listPush, findOrCreate, hf, value]
      exact .failed rfl

lemma hashSet_ranks {fields : List (Bytes × Bytes)} :
    Ranks key now Except.isOk (fun _ => false) (Database.hashSet key fields now) := by
  have may : (changesOf key).key key := rfl
  constructor
  · intro db db' hf linked gone
    have created := Holds.of_create now gone (.hash ∅)
    have steps := hashSetLoop_mutates (p := changesOf key) may trivial fields 0
      (db'.create key (.hash ∅))
    have front := (created.hashSetLoop fields 0).2.head_touch (linked.create _ gone) steps
    simp only [Database.hashSet, findOrCreate, hf, newEntry]
    exact .inr front
  · intro db entry hf linked found live
    have held := Holds.of_present found live
    have steps := hashSetLoop_mutates (p := changesOf key) may trivial fields 0 db
    cases value : entry.value with
    | hash hash =>
      rw [value] at held
      have front := (held.hashSetLoop fields 0).2.head_touch linked steps
      simp only [Database.hashSet, findOrCreate, hf, value]
      exact .front front
    | string | list | set =>
      simp only [Database.hashSet, findOrCreate, hf, value]
      exact .failed rfl

lemma setAdd_ranks {members : List Bytes} :
    Ranks key now Except.isOk (fun _ => false) (Database.setAdd key members now) := by
  have may : (changesOf key).key key := rfl
  constructor
  · intro db db' hf linked gone
    have created := Holds.of_create now gone (.set ∅)
    have steps := setAddLoop_mutates (p := changesOf key) may trivial members 0
      (db'.create key (.set ∅))
    have front := (created.setAddLoop members 0).2.head_touch (linked.create _ gone) steps
    simp only [Database.setAdd, findOrCreate, hf, newEntry]
    exact .inr front
  · intro db entry hf linked found live
    have held := Holds.of_present found live
    have steps := setAddLoop_mutates (p := changesOf key) may trivial members 0 db
    cases value : entry.value with
    | set set =>
      rw [value] at held
      have front := (held.setAddLoop members 0).2.head_touch linked steps
      simp only [Database.setAdd, findOrCreate, hf, value]
      exact .front front
    | string | list | hash =>
      simp only [Database.setAdd, findOrCreate, hf, value]
      exact .failed rfl

lemma listPop_ranks {side : ListSide} :
    Ranks key now popped (fun _ => false) (Database.listPop key side now) := by
  constructor
  · intro db db' hf linked gone
    exact .inl (by simp only [Database.listPop, hf])
  · intro db entry hf linked found live
    cases value : entry.value with
    | list list =>
      simp only [Database.listPop, hf, value]
      cases popElement side list with
      | none => exact .failed rfl
      | some pair =>
        simp only [assign_removeMemory found]
        have rewritten := linked.rewrite key (.list pair.2) (elementCost pair.1) 0
        have stored := lookup_rewrite_self found (.list pair.2) (elementCost pair.1) 0
        split
        · exact .gone (rewritten.notMem_erase stored)
        · exact .front (rewritten.head_touch stored)
    | string | hash | set =>
      simp only [Database.listPop, hf, value]
      exact .failed rfl

lemma lru_removeMemory (db : Database) (bytes : Nat) : (db.removeMemory key bytes).lru = db.lru := by
  unfold removeMemory
  split <;> rfl

lemma lru_hashDeleteLoop (fields : List Bytes) (removed : Nat) (db : Database) :
    (hashDeleteLoop key fields removed db).2.lru = db.lru := by
  induction fields generalizing removed db with
  | nil => rfl
  | cons field fields ih =>
    unfold hashDeleteLoop
    rw [ih]
    unfold hashDeleteOne
    split
    · split
      · rfl
      · exact (lru_update _).trans (lru_removeMemory db _)
    · rfl

lemma lru_setRemoveLoop (members : List Bytes) (removed : Nat) (db : Database) :
    (setRemoveLoop key members removed db).2.lru = db.lru := by
  induction members generalizing removed db with
  | nil => rfl
  | cons member members ih =>
    unfold setRemoveLoop
    rw [ih]
    unfold setRemoveOne
    split
    · split
      · exact (lru_removeMemory _ _).trans (lru_update _)
      · rfl
    · rfl

/-- The fields that are left. -/
lemma mem_removeFields {field : Bytes} (fields : List Bytes) (hash : HashValue) (removed : Nat) :
    field ∈ (SlotOp.removeFields fields hash removed).2 ↔ field ∈ hash ∧ field ∉ fields := by
  induction fields generalizing hash removed with
  | nil => simp [SlotOp.removeFields]
  | cons first fields ih =>
    rw [SlotOp.removeFields, ih, AList.mem_erase, List.mem_cons, not_or]
    constructor
    · rintro ⟨⟨other, mem⟩, rest⟩
      exact ⟨mem, other, rest⟩
    · rintro ⟨mem, other, rest⟩
      exact ⟨⟨other, mem⟩, rest⟩

/-- The members that are left. -/
lemma mem_removeMembers {member : Bytes} (members : List Bytes) (set : SetValue) (removed : Nat) :
    member ∈ (SlotOp.removeMembers members set removed).2 ↔ member ∈ set ∧ member ∉ members := by
  induction members generalizing set removed with
  | nil => simp [SlotOp.removeMembers]
  | cons first members ih =>
    rw [SlotOp.removeMembers, ih, Finset.mem_erase, List.mem_cons, not_or]
    constructor
    · rintro ⟨⟨other, mem⟩, rest⟩
      exact ⟨mem, other, rest⟩
    · rintro ⟨mem, other, rest⟩
      exact ⟨⟨other, mem⟩, rest⟩

/-- A call that erases its key if nothing is left and leaves it where it is otherwise. -/
lemma Place.erase_if_empty {before db : Database} (linked : db.Linked) (lru : db.lru = before.lru)
    {entry : Entry} (found : db.data.lookup key = some entry) {left : Bool}
    (empty : db.holdsEmpty key = !left) :
    Place key before (if db.holdsEmpty key then db.erase key else db) true left := by
  rw [empty]
  cases left with
  | false => exact .gone (linked.notMem_erase found)
  | true =>
    have same : db.keysByRecency = before.keysByRecency := congrArg (List.map _) lru
    exact .skipped same

lemma hashDelete_ranks {fields : List Bytes} :
    Ranks key now Except.isOk
      (fun value => value.asHash.any fun hash => ∃ field ∈ hash.keys, field ∉ fields)
      (Database.hashDelete key fields now) := by
  have may : (changesOf key).key key := rfl
  constructor
  · intro db db' hf linked gone
    exact .inl (by simp only [Database.hashDelete, hf])
  · intro db entry hf linked found live
    have held := Holds.of_present found live
    have steps := hashDeleteLoop_mutates (p := changesOf key) may fields 0 db
    cases value : entry.value with
    | hash hash =>
      rw [value] at held
      have loop := (held.hashDeleteLoop fields 0).2
      obtain ⟨stored, present, _⟩ := loop.entry
      simp only [Database.hashDelete, hf, value]
      refine Place.erase_if_empty (linked.mutations steps) (lru_hashDeleteLoop fields 0 db) present ?_
      -- nothing is left if every field of the hash was given
      rw [holdsEmpty, loop.valueOf, Value.asHash, Option.any_some, Bool.eq_iff_iff]
      simp [List.isEmpty_iff, List.eq_nil_iff_forall_not_mem, ← AList.mem_keys, mem_removeFields]
    | string | list | set =>
      simp only [Database.hashDelete, hf, value]
      exact .failed rfl

lemma setRemove_ranks {members : List Bytes} :
    Ranks key now Except.isOk
      (fun value => value.asSet.any fun set => ∃ member ∈ set, member ∉ members)
      (Database.setRemove key members now) := by
  have may : (changesOf key).key key := rfl
  constructor
  · intro db db' hf linked gone
    exact .inl (by simp only [Database.setRemove, hf])
  · intro db entry hf linked found live
    have held := Holds.of_present found live
    have steps := setRemoveLoop_mutates (p := changesOf key) may members 0 db
    cases value : entry.value with
    | set set =>
      rw [value] at held
      have loop := (held.setRemoveLoop members 0).2
      obtain ⟨stored, present, _⟩ := loop.entry
      simp only [Database.setRemove, hf, value]
      refine Place.erase_if_empty (linked.mutations steps) (lru_setRemoveLoop members 0 db) present ?_
      rw [holdsEmpty, loop.valueOf, Value.asSet, Option.any_some, Bool.eq_iff_iff]
      simp [Finset.eq_empty_iff_forall_notMem, mem_removeMembers]
    | string | list | hash =>
      simp only [Database.setRemove, hf, value]
      exact .failed rfl

end Ranks

end Database

/-- The operations on values, one by one. -/
lemma Op.ranks {op : Op} {key : Bytes} {now : Int} (access : op.access = some (key, now)) :
    ∃ (α : Type) (succeeds : Except DbError α → Bool) (act : DbAction α),
      Ranks key now succeeds op.skips act ∧ Acts (changesOf key) key now act ∧
      (∀ db, op.apply db = (act db).2) ∧ ∀ db, op.succeeds db = succeeds (act db).1 := by
  have grow : (changesOf key).grow := trivial
  cases op <;> cases access
  case set => exact ⟨_, _, _, set_ranks, set_acts rfl grow, fun _ => rfl, fun _ => rfl⟩
  case get => exact ⟨_, _, _, get_ranks, get_acts rfl, fun _ => rfl, fun _ => rfl⟩
  case incrementBy =>
    exact ⟨_, _, _, incrementBy_ranks, incrementBy_acts rfl grow, fun _ => rfl, fun _ => rfl⟩
  case append => exact ⟨_, _, _, append_ranks, append_acts rfl grow, fun _ => rfl, fun _ => rfl⟩
  case stringLength =>
    exact ⟨_, _, _, stringLength_ranks, stringLength_reads.acts rfl, fun _ => rfl, fun _ => rfl⟩
  case listPush => exact ⟨_, _, _, listPush_ranks, listPush_acts rfl grow, fun _ => rfl, fun _ => rfl⟩
  case listPop => exact ⟨_, _, _, listPop_ranks, listPop_acts rfl, fun _ => rfl, fun _ => rfl⟩
  case listRange =>
    exact ⟨_, _, _, listRange_ranks, listRange_reads.acts rfl, fun _ => rfl, fun _ => rfl⟩
  case listIndex =>
    exact ⟨_, _, _, listIndex_ranks, listIndex_reads.acts rfl, fun _ => rfl, fun _ => rfl⟩
  case listLength =>
    exact ⟨_, _, _, listLength_ranks, listLength_reads.acts rfl, fun _ => rfl, fun _ => rfl⟩
  case hashSet => exact ⟨_, _, _, hashSet_ranks, hashSet_acts rfl grow, fun _ => rfl, fun _ => rfl⟩
  case hashGet => exact ⟨_, _, _, hashGet_ranks, hashGet_reads.acts rfl, fun _ => rfl, fun _ => rfl⟩
  case hashDelete => exact ⟨_, _, _, hashDelete_ranks, hashDelete_acts rfl, fun _ => rfl, fun _ => rfl⟩
  case hashGetAll =>
    exact ⟨_, _, _, hashGetAll_ranks, hashGetAll_reads.acts rfl, fun _ => rfl, fun _ => rfl⟩
  case hashLength =>
    exact ⟨_, _, _, hashLength_ranks, hashLength_reads.acts rfl, fun _ => rfl, fun _ => rfl⟩
  case hashExists =>
    exact ⟨_, _, _, hashExists_ranks, hashExists_reads.acts rfl, fun _ => rfl, fun _ => rfl⟩
  case setAdd => exact ⟨_, _, _, setAdd_ranks, setAdd_acts rfl grow, fun _ => rfl, fun _ => rfl⟩
  case setRemove => exact ⟨_, _, _, setRemove_ranks, setRemove_acts rfl, fun _ => rfl, fun _ => rfl⟩
  case setMembers =>
    exact ⟨_, _, _, setMembers_ranks, setMembers_reads.acts rfl, fun _ => rfl, fun _ => rfl⟩
  case setIsMember =>
    exact ⟨_, _, _, setIsMember_ranks, setIsMember_reads.acts rfl, fun _ => rfl, fun _ => rfl⟩
  case setCardinality =>
    exact ⟨_, _, _, setCardinality_ranks, setCardinality_reads.acts rfl, fun _ => rfl, fun _ => rfl⟩

end FlashKV
