import FlashKV.Database.Mutation
import FlashKV.Reference.TypedMap

/-!
# The storage engine performs the reference's operations

`Performs key now act op` says that the engine's operation `act` does to the live view what the slot
operation `op` says, and returns what it says. Every data operation of `Database` performs its slot
operation with the source's own conventions, whatever the state: expired entries that are still
stored, the recency list and the accounted memory make no difference.
-/

namespace FlashKV

namespace Database

variable {α β : Type} {key : Bytes} {now : Int}

/-- The engine's operation does to the live view what the slot operation says. -/
def Performs (key : Bytes) (now : Int) (act : DbAction α) (op : SlotOp α) : Prop :=
  ∀ db, (act db).1 = (op (db.view now key)).1 ∧
    (act db).2.view now = Function.update (db.view now) key (op (db.view now key)).2

/-- How an operation performs: by cases on what the lookup finds. -/
lemma Performs.intro {act : DbAction α} {op : SlotOp α}
    (absent : ∀ db db', db.findLive key now = (none, db') → db'.data.lookup key = none →
      (act db).1 = (op none).1 ∧
        (act db).2.view now = Function.update (db'.view now) key (op none).2)
    (present : ∀ db entry, db.findLive key now = (some entry, db) →
      db.data.lookup key = some entry → entry.expired now = false →
      (act db).1 = (op (some entry.slot)).1 ∧
        (act db).2.view now = Function.update (db.view now) key (op (some entry.slot)).2) :
    Performs key now act op := by
  intro db
  rcases findLive_cases db key now with ⟨entry, hf, found, live, shown⟩ | ⟨db', hf, gone, same, shown⟩
  · rw [shown]
    exact present db entry hf found live
  · rw [shown, ← same]
    exact absent db db' hf gone

section Reads

variable {act : DbAction α}

/-- An operation that only reads performs a slot operation that stores what it sees. -/
lemma Performs.of_reads {op : SlotOp α} (reads : Reads key now act)
    (keeps : ∀ slot, (op slot).2 = slot)
    (absent : ∀ db db', db.findLive key now = (none, db') → (act db).1 = (op none).1)
    (present : ∀ db entry, db.findLive key now = (some entry, db) →
      (act db).1 = (op (some entry.slot)).1) : Performs key now act op := by
  intro db
  refine ⟨?_, ?_⟩
  · rcases findLive_cases db key now with ⟨entry, hf, _, _, shown⟩ | ⟨db', hf, _, _, shown⟩
    · rw [shown]
      exact present db entry hf
    · rw [shown]
      exact absent db db' hf
  · rw [reads.view, keeps, Function.update_eq_self]

lemma existsKey_performs : Performs key now (existsKey key now) SlotOp.existsKey := by
  refine .of_reads existsKey_reads (fun _ => rfl) ?_ ?_
  · intro db db' hf
    simp [existsKey, hf, SlotOp.existsKey]
  · intro db entry hf
    simp [existsKey, hf, SlotOp.existsKey]

lemma type_performs : Performs key now (type key now) SlotOp.type := by
  refine .of_reads type_reads (fun _ => rfl) ?_ ?_
  · intro db db' hf
    simp [type, hf, SlotOp.type]
  · intro db entry hf
    simp [type, hf, SlotOp.type, Entry.slot]

lemma get_performs : Performs key now (get key now) SlotOp.get := by
  refine .intro ?_ ?_
  · intro db db' hf gone
    simp only [get, hf, SlotOp.get, SlotOp.read, view_count]
    refine ⟨trivial, ?_⟩
    rw [← view_of_absent gone, Function.update_eq_self]
  · intro db entry hf found live
    have shown := view_of_live found live
    simp only [get, hf, SlotOp.get, SlotOp.read, Entry.slot]
    cases value : entry.value <;>
      simp [Value.asString, ← value, ← Entry.slot.eq_1, ← shown]

lemma stringLength_performs : Performs key now (stringLength key now) SlotOp.stringLength := by
  refine .of_reads stringLength_reads SlotOp.read_keeps ?_ ?_
  · intro db db' hf
    simp [stringLength, hf, SlotOp.stringLength, SlotOp.read]
  · intro db entry hf
    simp only [stringLength, hf, SlotOp.stringLength, SlotOp.read, Entry.slot]
    cases entry.value <;> rfl

lemma ttlMs_performs : Performs key now (ttlMs key now now) (SlotOp.ttlMs .native now) := by
  refine .of_reads ttlMs_reads SlotOp.ttlWith_keeps ?_ ?_
  · intro db db' hf
    simp [ttlMs, hf, SlotOp.ttlMs, SlotOp.ttlWith]
  · intro db entry hf
    simp only [ttlMs, hf, SlotOp.ttlMs, SlotOp.ttlWith, Entry.slot, deadlineOf]
    split <;> rfl

lemma ttl_performs : Performs key now (ttl key now now) (SlotOp.ttl .native now) := by
  refine .of_reads ttl_reads SlotOp.ttlWith_keeps ?_ ?_
  · intro db db' hf
    have ms : ttlMs key now now db = (.ok (-2), db') := by simp [ttlMs, hf]
    rw [ttl, StateAction.bind_of_ok ms]
    rfl
  · intro db entry hf
    have ms : ttlMs key now now db = (.ok (if entry.expiresAtMs = noExpiry then -1
        else wrap64 (entry.expiresAtMs - now)), db) := by
      simp only [ttlMs, hf]
      split <;> rfl
    rw [ttl, StateAction.bind_of_ok ms]
    simp only [StateAction.pure_apply, SlotOp.ttl, SlotOp.ttlWith, Entry.slot, deadlineOf]
    split <;> rfl

lemma listRange_performs {start stop : Int} :
    Performs key now (listRange key start stop now) (SlotOp.listRange start stop) := by
  refine .of_reads listRange_reads SlotOp.read_keeps ?_ ?_
  · intro db db' hf
    simp [listRange, hf, SlotOp.listRange, SlotOp.read]
  · intro db entry hf
    simp only [listRange, hf, SlotOp.listRange, SlotOp.read, Entry.slot]
    cases entry.value with
    | list items =>
      simp only [Value.asList, SlotOp.slice]
      split_ifs <;> rfl
    | string | hash | set => rfl

lemma listIndex_performs {index : Int} :
    Performs key now (listIndex key index now) (SlotOp.listIndex index) := by
  refine .of_reads listIndex_reads SlotOp.read_keeps ?_ ?_
  · intro db db' hf
    simp [listIndex, hf, SlotOp.listIndex, SlotOp.read]
  · intro db entry hf
    simp only [listIndex, hf, SlotOp.listIndex, SlotOp.read, Entry.slot]
    cases entry.value with
    | list items =>
      simp only [Value.asList, SlotOp.elementAt]
      split_ifs <;> rfl
    | string | hash | set => rfl

lemma listLength_performs : Performs key now (listLength key now) SlotOp.listLength := by
  refine .of_reads listLength_reads SlotOp.read_keeps ?_ ?_
  · intro db db' hf
    simp [listLength, hf, SlotOp.listLength, SlotOp.read]
  · intro db entry hf
    simp only [listLength, hf, SlotOp.listLength, SlotOp.read, Entry.slot]
    cases entry.value <;> rfl

lemma hashGet_performs {field : Bytes} :
    Performs key now (hashGet key field now) (SlotOp.hashGet field) := by
  refine .of_reads hashGet_reads SlotOp.read_keeps ?_ ?_
  · intro db db' hf
    simp [hashGet, hf, SlotOp.hashGet, SlotOp.read]
  · intro db entry hf
    simp only [hashGet, hf, SlotOp.hashGet, SlotOp.read, Entry.slot]
    cases entry.value with
    | hash fields =>
      simp only [Value.asHash]
      cases fields.lookup field <;> rfl
    | string | list | set => rfl

lemma hashGetAll_performs : Performs key now (hashGetAll key now) SlotOp.hashGetAll := by
  refine .of_reads hashGetAll_reads SlotOp.read_keeps ?_ ?_
  · intro db db' hf
    simp [hashGetAll, hf, SlotOp.hashGetAll, SlotOp.read]
  · intro db entry hf
    simp only [hashGetAll, hf, SlotOp.hashGetAll, SlotOp.read, Entry.slot]
    cases entry.value <;> rfl

lemma hashLength_performs : Performs key now (hashLength key now) SlotOp.hashLength := by
  refine .of_reads hashLength_reads SlotOp.read_keeps ?_ ?_
  · intro db db' hf
    simp [hashLength, hf, SlotOp.hashLength, SlotOp.read]
  · intro db entry hf
    simp only [hashLength, hf, SlotOp.hashLength, SlotOp.read, Entry.slot]
    cases entry.value <;> rfl

lemma hashExists_performs {field : Bytes} :
    Performs key now (hashExists key field now) (SlotOp.hashExists field) := by
  refine .of_reads hashExists_reads SlotOp.read_keeps ?_ ?_
  · intro db db' hf
    simp [hashExists, hf, SlotOp.hashExists, SlotOp.read]
  · intro db entry hf
    simp only [hashExists, hf, SlotOp.hashExists, SlotOp.read, Entry.slot]
    cases entry.value <;> rfl

lemma setMembers_performs : Performs key now (setMembers key now) SlotOp.setMembers := by
  refine .of_reads setMembers_reads SlotOp.read_keeps ?_ ?_
  · intro db db' hf
    simp [setMembers, hf, SlotOp.setMembers, SlotOp.read]
  · intro db entry hf
    simp only [setMembers, hf, SlotOp.setMembers, SlotOp.read, Entry.slot]
    cases entry.value <;> rfl

lemma setIsMember_performs {member : Bytes} :
    Performs key now (setIsMember key member now) (SlotOp.setIsMember member) := by
  refine .of_reads setIsMember_reads SlotOp.read_keeps ?_ ?_
  · intro db db' hf
    simp [setIsMember, hf, SlotOp.setIsMember, SlotOp.read]
  · intro db entry hf
    simp only [setIsMember, hf, SlotOp.setIsMember, SlotOp.read, Entry.slot]
    cases entry.value <;> rfl

lemma setCardinality_performs : Performs key now (setCardinality key now) SlotOp.setCardinality := by
  refine .of_reads setCardinality_reads SlotOp.read_keeps ?_ ?_
  · intro db db' hf
    simp [setCardinality, hf, SlotOp.setCardinality, SlotOp.read]
  · intro db entry hf
    simp only [setCardinality, hf, SlotOp.setCardinality, SlotOp.read, Entry.slot]
    cases entry.value <;> rfl

end Reads

section Writes

/-- The key holds `value` with the deadline field `expiresAtMs`, live at `now`, and the view is
`base` everywhere else. -/
structure Holds (key : Bytes) (now : Int) (base : Bytes → Option Slot) (expiresAtMs : Int)
    (value : Value) (db : Database) : Prop where
  entry : ∃ entry, db.data.lookup key = some entry ∧ entry.value = value ∧
    entry.expiresAtMs = expiresAtMs ∧ entry.expired now = false
  view : db.view now = Function.update base key (some ⟨value, deadlineOf expiresAtMs⟩)

variable {base : Bytes → Option Slot} {expiresAtMs : Int} {value : Value} {db : Database}

lemma Holds.of_present {entry : Entry} (found : db.data.lookup key = some entry)
    (live : entry.expired now = false) :
    Holds key now (db.view now) entry.expiresAtMs entry.value db := by
  refine ⟨⟨entry, found, rfl, rfl, live⟩, ?_⟩
  rw [← Entry.slot.eq_1, ← view_of_live found live, Function.update_eq_self]

lemma Holds.of_create (now : Int) (gone : db.data.lookup key = none) (value : Value) :
    Holds key now (db.view now) noExpiry value (db.create key value) := by
  refine ⟨⟨db.newEntry key value, ?_, ?_, ?_, ?_⟩, ?_⟩
  · rw [lookup_create, if_pos rfl]
  · rfl
  · rw [newEntry_of_absent gone]
  · rw [newEntry_of_absent gone]
    simp [Entry.expired]
  · rw [view_create gone]
    rfl

/-- The value that a loop of the engine reads. -/
lemma Holds.valueOf (h : Holds key now base expiresAtMs value db) : db.valueOf key = some value := by
  obtain ⟨entry, found, rfl, _⟩ := h.entry
  simp [Database.valueOf, found]

/-- Rewriting the value keeps the deadline. -/
lemma Holds.rewrite (h : Holds key now base expiresAtMs value db) (value' : Value)
    (freed added : Nat) :
    Holds key now base expiresAtMs value' (db.rewrite key value' freed added) := by
  obtain ⟨entry, found, _, rfl, live⟩ := h.entry
  have live' : Entry.expired
      { entry with value := value', memory := subSize entry.memory freed + added } now = false := live
  refine ⟨⟨_, lookup_rewrite_self found value' freed added, rfl, rfl, live'⟩, ?_⟩
  funext a
  by_cases e : a = key
  · subst e
    rw [Function.update_self, view_of_live (lookup_rewrite_self found value' freed added) live']
    rfl
  · rw [Function.update_of_ne e]
    have other := congrFun h.view a
    rw [Function.update_of_ne e] at other
    rw [← other]
    apply view_congr
    simp only [Database.rewrite, found, AList.lookup_insert_ne e]

lemma Holds.touch (h : Holds key now base expiresAtMs value db) :
    Holds key now base expiresAtMs value (db.touch key) := by
  obtain ⟨entry, found, rest⟩ := h.entry
  refine ⟨⟨entry, ?_, rest⟩, ?_⟩
  · rw [data_touch, found]
  · rw [view_touch, h.view]

/-- The view once the key is erased. -/
lemma Holds.view_erase (h : Holds key now base expiresAtMs value db) :
    (db.erase key).view now = Function.update base key none := by
  rw [Database.view_erase, h.view, Function.update_idem]

/-- What `findOrCreate` leaves: a new key that holds `initial`, or the live one. -/
lemma findOrCreate_cases (db : Database) (key : Bytes) (initial : Value) (now : Int) :
    (∃ entry db', db.findOrCreate key initial now = (entry, db') ∧ entry.value = initial ∧
      db.view now key = none ∧ Holds key now (db.view now) noExpiry initial db') ∨
    (∃ entry, db.findOrCreate key initial now = (entry, db) ∧ db.view now key = some entry.slot ∧
      Holds key now (db.view now) entry.expiresAtMs entry.value db) := by
  rcases findLive_cases db key now with ⟨entry, hf, found, live, shown⟩ | ⟨db', hf, gone, same, shown⟩
  · exact .inr ⟨entry, by simp only [findOrCreate, hf], shown, .of_present found live⟩
  · refine .inl ⟨_, _, by simp only [findOrCreate, hf]; rfl, rfl, shown, ?_⟩
    rw [← same]
    exact .of_create now gone initial

lemma del_performs : Performs key now (del key now) SlotOp.del := by
  refine .intro ?_ ?_
  · intro db db' hf gone
    simp only [del, hf, SlotOp.del]
    refine ⟨rfl, ?_⟩
    rw [← view_of_absent gone, Function.update_eq_self]
  · intro db entry hf found live
    simp only [del, hf, SlotOp.del]
    exact ⟨rfl, view_erase⟩

lemma set_performs {value : Bytes} : Performs key now (set key value now) (SlotOp.set value) := by
  refine .intro ?_ ?_
  · intro db db' hf gone
    simp only [set, hf, SlotOp.set]
    exact ⟨trivial, view_create gone⟩
  · intro db entry hf found live
    simp only [set, hf, SlotOp.set]
    refine ⟨trivial, ?_⟩
    rw [Option.isSome_some, if_pos rfl, view_create lookup_erase_self, view_erase,
      Function.update_idem]

lemma expireAtMs_performs {unixTimeMs : Int} :
    Performs key now (expireAtMs key unixTimeMs now now)
      (SlotOp.expireAtMs .native unixTimeMs now) := by
  refine .intro ?_ ?_
  · intro db db' hf gone
    simp only [expireAtMs, hf, SlotOp.expireAtMs]
    refine ⟨trivial, ?_⟩
    rw [← view_of_absent gone, Function.update_eq_self]
  · intro db entry hf found live
    simp only [expireAtMs, hf, SlotOp.expireAtMs]
    split
    · exact ⟨rfl, view_erase⟩
    · exact ⟨rfl, view_setExpiry found (by omega)⟩

lemma persist_performs : Performs key now (persist key now) SlotOp.persist := by
  refine .intro ?_ ?_
  · intro db db' hf gone
    simp only [persist, hf, SlotOp.persist]
    refine ⟨trivial, ?_⟩
    rw [← view_of_absent gone, Function.update_eq_self]
  · intro db entry hf found live
    have shown := view_of_live found live
    simp only [persist, hf, SlotOp.persist]
    by_cases none : entry.expiresAtMs = noExpiry
    · have slot : entry.slot.deadline = Option.none := by simp [Entry.slot, deadlineOf, none]
      rw [if_pos none, slot]
      refine ⟨rfl, ?_⟩
      dsimp only
      rw [← shown, Function.update_eq_self]
    · have slot : entry.slot.deadline = some entry.expiresAtMs := by
        simp [Entry.slot, deadlineOf, none]
      rw [if_neg none, slot]
      exact ⟨rfl, view_clearExpiry found⟩

lemma incrementBy_performs {delta : Int} (range : int64Min ≤ delta ∧ delta ≤ int64Max) :
    Performs key now (incrementBy key delta now) (SlotOp.incrementBy delta) := by
  intro db
  rcases findOrCreate_cases db key (.string (ascii "0")) now with
    ⟨entry, db', hf, initial, shown, h⟩ | ⟨entry, hf, shown, h⟩
  · have zero : parseStrictInteger (ascii "0") = some 0 := by decide
    have fits : fit64 (0 + delta) = some delta := by rw [Int.zero_add, fit64, if_pos range]
    obtain ⟨stored, found, _⟩ := h.entry
    rw [shown, SlotOp.incrementBy,
      SlotOp.write_absent (by simp only [Option.getD_none, zero, fits]; rfl)]
    simp only [incrementBy, hf, initial, zero, fits, removeMemory_assign_addMemory found]
    exact ⟨trivial, (h.rewrite _ _ _).touch.view⟩
  · obtain ⟨stored, found, _⟩ := h.entry
    rw [shown, SlotOp.incrementBy]
    cases value : entry.value with
    | string text =>
      have held : Value.asString entry.slot.value = some text := by rw [Entry.slot, value]; rfl
      simp only [incrementBy, hf, value]
      cases parsed : parseStrictInteger text with
      | none =>
        rw [SlotOp.write_error (e := .notInteger) held (by simp only [Option.getD_some, parsed])]
        exact ⟨rfl, h.view⟩
      | some current =>
        cases sum : fit64 (current + delta) with
        | none =>
          rw [SlotOp.write_error (e := .overflow) held
            (by simp only [Option.getD_some, parsed, sum])]
          simp only [sum]
          exact ⟨trivial, h.view⟩
        | some result =>
          rw [SlotOp.write_ok held (by simp only [Option.getD_some, parsed, sum]; rfl)]
          simp only [sum, removeMemory_assign_addMemory found]
          exact ⟨trivial, (h.rewrite _ _ _).touch.view⟩
    | list | hash | set =>
      rw [SlotOp.write_other (by rw [Entry.slot, value]; rfl)]
      simp only [incrementBy, hf, value]
      exact ⟨trivial, h.view⟩

lemma append_performs {suffix : Bytes} :
    Performs key now (append key suffix now) (SlotOp.append suffix) := by
  refine .intro ?_ ?_
  · intro db db' hf gone
    rw [SlotOp.append, SlotOp.write_absent rfl]
    simp only [append, hf]
    exact ⟨rfl, view_create gone⟩
  · intro db entry hf found live
    have h := Holds.of_present found live
    rw [SlotOp.append]
    cases value : entry.value with
    | string text =>
      rw [SlotOp.write_ok (by rw [Entry.slot, value]; rfl) rfl]
      simp only [append, hf, value, assign_addMemory found]
      exact ⟨rfl, (h.rewrite _ _ _).touch.view⟩
    | list | hash | set =>
      rw [SlotOp.write_other (by rw [Entry.slot, value]; rfl)]
      simp only [append, hf, value]
      exact ⟨trivial, h.view⟩

/-- The push loop, on a key that holds a list. -/
lemma Holds.listPushLoop (side : ListSide) (values : List Bytes) {list : ListValue}
    (h : Holds key now base expiresAtMs (.list list) db) :
    Holds key now base expiresAtMs
      (.list (values.foldl (fun list value => pushElement side value list) list))
      (values.foldl (listPushOne key side) db) := by
  induction values generalizing list db with
  | nil => exact h
  | cons value values ih =>
    obtain ⟨stored, found, _⟩ := h.entry
    apply ih
    simp only [listPushOne, h.valueOf, assign_addMemory found]
    exact h.rewrite _ _ _

lemma length_pushElements (side : ListSide) (values : List Bytes) (list : ListValue) :
    (values.foldl (fun list value => pushElement side value list) list).length =
      list.length + values.length := by
  induction values generalizing list with
  | nil => rfl
  | cons value values ih =>
    rw [List.foldl_cons, ih]
    cases side <;> simp [pushElement] <;> omega

lemma listPush_performs {values : List Bytes} {side : ListSide} :
    Performs key now (listPush key values side now) (SlotOp.listPush values side) := by
  intro db
  rcases findOrCreate_cases db key (.list []) now with
    ⟨entry, db', hf, initial, shown, h⟩ | ⟨entry, hf, shown, h⟩
  · rw [shown, SlotOp.listPush, SlotOp.write_absent rfl]
    simp only [listPush, hf, initial, Option.getD_none, length_pushElements]
    exact ⟨trivial, (h.listPushLoop side values).touch.view⟩
  · rw [shown, SlotOp.listPush]
    cases value : entry.value with
    | list items =>
      rw [SlotOp.write_ok (by rw [Entry.slot, value]; rfl) rfl]
      simp only [listPush, hf, value, Option.getD_some, length_pushElements]
      rw [value] at h
      exact ⟨trivial, (h.listPushLoop side values).touch.view⟩
    | string | hash | set =>
      rw [SlotOp.write_other (by rw [Entry.slot, value]; rfl)]
      simp only [listPush, hf, value]
      exact ⟨trivial, h.view⟩

lemma listPop_performs {side : ListSide} :
    Performs key now (listPop key side now) (SlotOp.listPop side) := by
  refine .intro ?_ ?_
  · intro db db' hf gone
    have nothing : popElement side [] = none := by cases side <;> rfl
    rw [SlotOp.listPop, SlotOp.write_absent (by simp only [Option.getD_none, nothing]; rfl)]
    simp only [listPop, hf]
    refine ⟨trivial, ?_⟩
    rw [Option.map_none, ← view_of_absent gone, Function.update_eq_self]
  · intro db entry hf found live
    have h := Holds.of_present found live
    rw [SlotOp.listPop]
    cases value : entry.value with
    | list items =>
      have held : Value.asList entry.slot.value = some items := by rw [Entry.slot, value]; rfl
      simp only [listPop, hf, value]
      cases popped : popElement side items with
      | none =>
        rw [SlotOp.write_ok held (by simp only [Option.getD_some, popped]; rfl)]
        refine ⟨rfl, ?_⟩
        rw [value] at h
        exact h.view
      | some pair =>
        obtain ⟨front, rest⟩ := pair
        rw [SlotOp.write_ok held (by simp only [Option.getD_some, popped]; rfl)]
        simp only [assign_removeMemory found]
        have rewritten := h.rewrite (.list rest) (elementCost front) 0
        refine ⟨trivial, ?_⟩
        split
        · exact rewritten.view_erase
        · exact rewritten.touch.view
    | string | hash | set =>
      rw [SlotOp.write_other (by rw [Entry.slot, value]; rfl)]
      simp only [listPop, hf, value]
      exact ⟨trivial, h.view⟩

/-- The loop of `hashSet`, on a key that holds a hash. -/
lemma Holds.hashSetLoop (fields : List (Bytes × Bytes)) (added : Nat) {hash : HashValue}
    (h : Holds key now base expiresAtMs (.hash hash) db) :
    (hashSetLoop key fields added db).1 = (SlotOp.storeFields fields hash added).1 ∧
    Holds key now base expiresAtMs (.hash (SlotOp.storeFields fields hash added).2)
      (hashSetLoop key fields added db).2 := by
  induction fields generalizing added hash db with
  | nil => exact ⟨rfl, h⟩
  | cons pair fields ih =>
    obtain ⟨field, value⟩ := pair
    obtain ⟨stored, found, _⟩ := h.entry
    unfold Database.hashSetLoop SlotOp.storeFields
    cases old : hash.lookup field with
    | none =>
      simp only [hashSetOne, h.valueOf, old, addMemory_assign_addMemory found]
      exact ih _ (h.rewrite _ _ _)
    | some previous =>
      simp only [hashSetOne, h.valueOf, old, removeMemory_assign_addMemory found]
      exact ih _ (h.rewrite _ _ _)

lemma hashSet_performs {fields : List (Bytes × Bytes)} :
    Performs key now (hashSet key fields now) (SlotOp.hashSet fields) := by
  intro db
  rcases findOrCreate_cases db key (.hash ∅) now with
    ⟨entry, db', hf, initial, shown, h⟩ | ⟨entry, hf, shown, h⟩
  · have loop := h.hashSetLoop fields 0
    rw [shown, SlotOp.hashSet, SlotOp.write_absent rfl]
    simp only [hashSet, hf, initial, Option.getD_none, loop.1]
    exact ⟨trivial, loop.2.touch.view⟩
  · rw [shown, SlotOp.hashSet]
    cases value : entry.value with
    | hash held =>
      rw [value] at h
      have loop := h.hashSetLoop fields 0
      rw [SlotOp.write_ok (by rw [Entry.slot, value]; rfl) rfl]
      simp only [hashSet, hf, value, Option.getD_some, loop.1]
      exact ⟨trivial, loop.2.touch.view⟩
    | string | list | set =>
      rw [SlotOp.write_other (by rw [Entry.slot, value]; rfl)]
      simp only [hashSet, hf, value]
      exact ⟨trivial, h.view⟩

/-- The loop of `hashDelete`, on a key that holds a hash. -/
lemma Holds.hashDeleteLoop (fields : List Bytes) (removed : Nat) {hash : HashValue}
    (h : Holds key now base expiresAtMs (.hash hash) db) :
    (hashDeleteLoop key fields removed db).1 = (SlotOp.removeFields fields hash removed).1 ∧
    Holds key now base expiresAtMs (.hash (SlotOp.removeFields fields hash removed).2)
      (hashDeleteLoop key fields removed db).2 := by
  induction fields generalizing removed hash db with
  | nil => exact ⟨rfl, h⟩
  | cons field fields ih =>
    obtain ⟨stored, found, _⟩ := h.entry
    unfold Database.hashDeleteLoop SlotOp.removeFields
    cases old : hash.lookup field with
    | none =>
      have same : hash.erase field = hash := by
        apply AList.ext
        exact List.kerase_of_notMem_keys (AList.lookup_eq_none.mp old)
      simp only [hashDeleteOne, h.valueOf, old, same]
      exact ih _ h
    | some previous =>
      simp only [hashDeleteOne, h.valueOf, old, removeMemory_assign found]
      exact ih _ (h.rewrite _ _ _)

lemma hashDelete_performs {fields : List Bytes} :
    Performs key now (hashDelete key fields now) (SlotOp.hashDelete fields) := by
  refine .intro ?_ ?_
  · intro db db' hf gone
    rw [SlotOp.hashDelete, SlotOp.write_absent rfl]
    simp only [hashDelete, hf]
    refine ⟨trivial, ?_⟩
    rw [Option.map_none, ← view_of_absent gone, Function.update_eq_self]
  · intro db entry hf found live
    have h := Holds.of_present found live
    rw [SlotOp.hashDelete]
    cases value : entry.value with
    | hash held =>
      rw [value] at h
      obtain ⟨counted, loop⟩ := h.hashDeleteLoop fields 0
      rw [SlotOp.write_ok (by rw [Entry.slot, value]; rfl) rfl]
      simp only [hashDelete, hf, value, counted, holdsEmpty, loop.valueOf]
      refine ⟨trivial, ?_⟩
      split
      · exact loop.view_erase
      · exact loop.view
    | string | list | set =>
      rw [SlotOp.write_other (by rw [Entry.slot, value]; rfl)]
      simp only [hashDelete, hf, value]
      exact ⟨trivial, h.view⟩

/-- The loop of `setAdd`, on a key that holds a set. -/
lemma Holds.setAddLoop (members : List Bytes) (added : Nat) {set : SetValue}
    (h : Holds key now base expiresAtMs (.set set) db) :
    (setAddLoop key members added db).1 = (SlotOp.addMembers members set added).1 ∧
    Holds key now base expiresAtMs (.set (SlotOp.addMembers members set added).2)
      (setAddLoop key members added db).2 := by
  induction members generalizing added set db with
  | nil => exact ⟨rfl, h⟩
  | cons member members ih =>
    obtain ⟨stored, found, _⟩ := h.entry
    unfold Database.setAddLoop SlotOp.addMembers
    by_cases old : member ∈ set
    · simp only [setAddOne, h.valueOf, old, if_true, Finset.insert_eq_of_mem]
      exact ih _ h
    · simp only [setAddOne, h.valueOf, old, if_false, assign_addMemory found]
      exact ih _ (h.rewrite _ _ _)

lemma setAdd_performs {members : List Bytes} :
    Performs key now (setAdd key members now) (SlotOp.setAdd members) := by
  intro db
  rcases findOrCreate_cases db key (.set ∅) now with
    ⟨entry, db', hf, initial, shown, h⟩ | ⟨entry, hf, shown, h⟩
  · have loop := h.setAddLoop members 0
    rw [shown, SlotOp.setAdd, SlotOp.write_absent rfl]
    simp only [setAdd, hf, initial, Option.getD_none, loop.1]
    exact ⟨trivial, loop.2.touch.view⟩
  · rw [shown, SlotOp.setAdd]
    cases value : entry.value with
    | set held =>
      rw [value] at h
      have loop := h.setAddLoop members 0
      rw [SlotOp.write_ok (by rw [Entry.slot, value]; rfl) rfl]
      simp only [setAdd, hf, value, Option.getD_some, loop.1]
      exact ⟨trivial, loop.2.touch.view⟩
    | string | list | hash =>
      rw [SlotOp.write_other (by rw [Entry.slot, value]; rfl)]
      simp only [setAdd, hf, value]
      exact ⟨trivial, h.view⟩

/-- The loop of `setRemove`, on a key that holds a set. -/
lemma Holds.setRemoveLoop (members : List Bytes) (removed : Nat) {set : SetValue}
    (h : Holds key now base expiresAtMs (.set set) db) :
    (setRemoveLoop key members removed db).1 = (SlotOp.removeMembers members set removed).1 ∧
    Holds key now base expiresAtMs (.set (SlotOp.removeMembers members set removed).2)
      (setRemoveLoop key members removed db).2 := by
  induction members generalizing removed set db with
  | nil => exact ⟨rfl, h⟩
  | cons member members ih =>
    obtain ⟨stored, found, _⟩ := h.entry
    unfold Database.setRemoveLoop SlotOp.removeMembers
    by_cases old : member ∈ set
    · simp only [setRemoveOne, h.valueOf, old, if_true, assign_removeMemory found]
      exact ih _ (h.rewrite _ _ _)
    · simp only [setRemoveOne, h.valueOf, old, if_false, Finset.erase_eq_of_notMem,
        not_false_eq_true]
      exact ih _ h

lemma setRemove_performs {members : List Bytes} :
    Performs key now (setRemove key members now) (SlotOp.setRemove members) := by
  refine .intro ?_ ?_
  · intro db db' hf gone
    rw [SlotOp.setRemove, SlotOp.write_absent rfl]
    simp only [setRemove, hf]
    refine ⟨trivial, ?_⟩
    rw [Option.map_none, ← view_of_absent gone, Function.update_eq_self]
  · intro db entry hf found live
    have h := Holds.of_present found live
    rw [SlotOp.setRemove]
    cases value : entry.value with
    | set held =>
      rw [value] at h
      obtain ⟨counted, loop⟩ := h.setRemoveLoop members 0
      rw [SlotOp.write_ok (by rw [Entry.slot, value]; rfl) rfl]
      simp only [setRemove, hf, value, counted, holdsEmpty, loop.valueOf, decide_eq_true_eq]
      refine ⟨trivial, ?_⟩
      split
      · exact loop.view_erase
      · exact loop.view
    | string | list | hash =>
      rw [SlotOp.write_other (by rw [Entry.slot, value]; rfl)]
      simp only [setRemove, hf, value]
      exact ⟨trivial, h.view⟩

end Writes

end Database

end FlashKV
