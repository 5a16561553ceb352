import FlashKV.Database.View
import Mathlib.Logic.Relation

/-!
# What an operation can do to the database

Every public operation, whatever its result, changes the database by a sequence of `Mutation`s: a
key is created, erased, touched, given or relieved of a deadline, or its value is rewritten together
with the accounted memory. An invariant of the database is therefore proved once per mutation.
`Permits` restricts the mutations: an operation changes only the key it is called with, it sets only
deadlines after the reading it compares them with, some operations cannot make a value grow, and the
data operations leave the memory settings alone.
-/

namespace FlashKV

namespace Database

/-- Replace a key's value, taking `freed` bytes off the counters and then adding `added`. -/
def rewrite (key : Bytes) (value : Value) (freed added : Nat) (db : Database) : Database :=
  match db.data.lookup key with
  | none => db
  | some entry =>
    { db with
      data := db.data.insert key
        { entry with value := value, memory := subSize entry.memory freed + added }
      memoryUsed := subSize db.memoryUsed freed + added
      underflows := db.underflows + wraps entry.memory freed + wraps db.memoryUsed freed }

/-- The changes that are allowed. -/
structure Permits where
  /-- The deadlines that may be set. -/
  deadline : Int → Prop
  /-- The keys that may be created, changed, touched and erased. -/
  key : Bytes → Prop
  /-- May other keys be erased? -/
  evict : Prop
  /-- May keys be created and values grow? -/
  grow : Prop
  /-- May all keys be dropped? -/
  clear : Prop
  /-- May the memory limit and the eviction policy change? -/
  settings : Prop

/-- Keys may be erased, and nothing else. -/
def Permits.erasing : Permits where
  deadline _ := False
  key _ := False
  evict := True
  grow := False
  clear := False
  settings := False

/-- Everything is allowed, but only some deadlines may be set. -/
def Permits.any (deadline : Int → Prop) : Permits where
  deadline := deadline
  key _ := True
  evict := True
  grow := True
  clear := True
  settings := True

/-- One change of the database. -/
inductive Mutation (p : Permits) : Database → Database → Prop where
  | create {db key} (value : Value) :
    db.data.lookup key = none →
    p.key key →
    p.grow →
    Mutation p db (db.create key value)
  | erase {db key entry} :
    db.data.lookup key = some entry →
    p.key key ∨ p.evict →
    Mutation p db (db.erase key)
  | touch {db key} :
    p.key key →
    Mutation p db (db.touch key)
  | setExpiry {db key entry deadline} :
    db.data.lookup key = some entry →
    p.key key →
    p.deadline deadline →
    Mutation p db (db.setExpiry key deadline)
  | clearExpiry {db key entry} :
    db.data.lookup key = some entry →
    p.key key →
    Mutation p db (db.clearExpiry key)
  | rewrite {db key entry value freed added} :
    db.data.lookup key = some entry →
    p.key key →
    freed ≤ payloadMemory entry.value →
    payloadMemory value + freed = payloadMemory entry.value + added →
    p.grow ∨ added = 0 →
    Mutation p db (db.rewrite key value freed added)
  | count {db} (f : DatabaseStats → DatabaseStats) :
    Mutation p db (db.count f)
  | settings {db} (bytes : Nat) (policy : EvictionPolicy) :
    p.settings →
    Mutation p db { db with memoryLimit := bytes, policy := policy }
  | clear {db} :
    p.clear →
    Mutation p db { db with data := ∅, lru := [], volatileKeys := [], memoryUsed := 0 }

/-- A sequence of changes. -/
abbrev Mutations (p : Permits) : Database → Database → Prop :=
  Relation.ReflTransGen (Mutation p)

/-- A property kept by every change is kept by every sequence of changes. -/
lemma Mutations.preserves {p : Permits} {I : Database → Prop}
    (step : ∀ db db', Mutation p db db' → I db → I db') {db db' : Database}
    (h : Mutations p db db') (inv : I db) : I db' := by
  induction h with
  | refl => exact inv
  | tail _ m ih => exact step _ _ m ih

/-- One set of permits allows all that another allows. -/
structure Permits.Le (p q : Permits) : Prop where
  deadline : ∀ {d}, p.deadline d → q.deadline d
  key : ∀ {k}, p.key k → q.key k
  evict : p.evict → q.evict
  grow : p.grow → q.grow
  clear : p.clear → q.clear
  settings : p.settings → q.settings

/-- The same permits on one key only. -/
def Permits.only (p : Permits) (key : Bytes) : Permits :=
  { p with key := (· = key) }

lemma Permits.only_le {p : Permits} {key : Bytes} (allowed : p.key key) : (p.only key).Le p :=
  ⟨id, fun {k} (e : k = key) => e ▸ allowed, id, id, id, id⟩

/-- What fewer permits allow, more permits allow. -/
lemma Mutations.mono {p q : Permits} (le : p.Le q) {db db' : Database} (h : Mutations p db db') :
    Mutations q db db' := by
  refine Relation.ReflTransGen.mono (fun db db' m => ?_) _ _ h
  cases m with
  | create value absent may grow => exact .create value absent (le.key may) (le.grow grow)
  | erase present may => exact .erase present (may.imp le.key le.evict)
  | touch may => exact .touch (le.key may)
  | setExpiry present may deadline => exact .setExpiry present (le.key may) (le.deadline deadline)
  | clearExpiry present may => exact .clearExpiry present (le.key may)
  | rewrite present may freed size grow =>
    exact .rewrite present (le.key may) freed size (grow.imp_left le.grow)
  | count f => exact .count f
  | settings bytes policy may => exact .settings bytes policy (le.settings may)
  | clear may => exact .clear (le.clear may)

section Helpers

variable {p : Permits} {db : Database} {key : Bytes} {entry : Entry}

/-- Assigning a longer value. -/
lemma assign_addMemory (present : db.data.lookup key = some entry) (value : Value) (bytes : Nat) :
    (db.assign key value).addMemory key bytes = db.rewrite key value 0 bytes := by
  simp [assign, addMemory, update, rewrite, present, wraps]

/-- Assigning a shorter value. -/
lemma assign_removeMemory (present : db.data.lookup key = some entry) (value : Value) (bytes : Nat) :
    (db.assign key value).removeMemory key bytes = db.rewrite key value bytes 0 := by
  simp [assign, removeMemory, update, rewrite, present]

lemma removeMemory_assign (present : db.data.lookup key = some entry) (value : Value) (bytes : Nat) :
    (db.removeMemory key bytes).assign key value = db.rewrite key value bytes 0 := by
  simp [assign, removeMemory, update, rewrite, present]

/-- Taking the old size off, assigning, and adding the new size. -/
lemma removeMemory_assign_addMemory (present : db.data.lookup key = some entry) (value : Value)
    (freed added : Nat) :
    ((db.removeMemory key freed).assign key value).addMemory key added =
      db.rewrite key value freed added := by
  simp [assign, removeMemory, addMemory, update, rewrite, present]

lemma addMemory_assign_addMemory (present : db.data.lookup key = some entry) (value : Value)
    (first second : Nat) :
    ((db.addMemory key first).assign key value).addMemory key second =
      db.rewrite key value 0 (first + second) := by
  simp [assign, addMemory, update, rewrite, present, wraps, Nat.add_assoc]

/-- A rewritten key holds the new value. -/
lemma lookup_rewrite_self (present : db.data.lookup key = some entry) (value : Value)
    (freed added : Nat) :
    (db.rewrite key value freed added).data.lookup key =
      some { entry with value := value, memory := subSize entry.memory freed + added } := by
  simp [rewrite, present]

/-- The value of a key that has an entry. -/
lemma exists_entry_of_valueOf {value : Value} (h : db.valueOf key = some value) :
    ∃ entry, db.data.lookup key = some entry ∧ entry.value = value := by
  unfold valueOf at h
  simpa using h

/-- `findLive` changes nothing, or it erases the key. -/
lemma findLive_mutates (allowed : p.key key) (db : Database) (now : Int) :
    Mutations p db (db.findLive key now).2 := by
  unfold findLive
  split
  · exact .refl
  · rename_i entry present
    split
    · dsimp only
      exact .tail (.single (.erase present (.inl allowed))) (.count _)
    · exact .refl

/-- `findOrCreate` returns the entry that is now stored. -/
lemma findOrCreate_mutates (allowed : p.key key) (grow : p.grow) (db : Database) (initial : Value)
    (now : Int) :
    ∃ entry db', db.findOrCreate key initial now = (entry, db') ∧
      db'.data.lookup key = some entry ∧ Mutations p (db.findLive key now).2 db' := by
  rcases findLive_cases db key now with ⟨entry, hf, present, _⟩ | ⟨db', hf, absent, _⟩
  · exact ⟨entry, db, by simp only [findOrCreate, hf], present, by rw [hf]⟩
  · refine ⟨_, _, by simp only [findOrCreate, hf]; rfl, ?_, ?_⟩
    · rw [lookup_create, if_pos rfl]
    · rw [hf]
      exact .single (.create initial absent allowed grow)

end Helpers

section Loops

variable {key : Bytes}

/-- The accounted size of a list grows by the cost of the pushed element. -/
lemma payloadMemory_pushElement (side : ListSide) (value : Bytes) (list : ListValue) :
    payloadMemory (.list (pushElement side value list)) =
      payloadMemory (.list list) + elementCost value := by
  cases side <;> simp [payloadMemory, pushElement, Nat.add_comm]

/-- The accounted size of a list shrinks by the cost of the popped element. -/
lemma payloadMemory_popElement {side : ListSide} {value : Bytes} {list rest : ListValue}
    (h : popElement side list = some (value, rest)) :
    payloadMemory (.list list) = payloadMemory (.list rest) + elementCost value := by
  cases side with
  | left =>
    cases list with
    | nil => cases h
    | cons a list =>
      cases h
      simp [payloadMemory, Nat.add_comm]
  | right =>
    rcases List.eq_nil_or_concat' list with rfl | ⟨init, a, rfl⟩
    · cases h
    · simp only [popElement, List.getLast?_concat, List.dropLast_concat, Option.map_some,
        Option.some.injEq, Prod.mk.injEq] at h
      obtain ⟨rfl, rfl⟩ := h
      simp [payloadMemory]

/-- The accounted size of a hash with a new field. -/
lemma payloadMemory_insert_new {hash : HashValue} {field : Bytes} (value : Bytes)
    (h : hash.lookup field = none) :
    payloadMemory (.hash (hash.insert field value)) =
      payloadMemory (.hash hash) + (elementCost field + value.length) := by
  simp only [payloadMemory, AList.sumBy_insert, AList.sumBy_erase_absent _ h]
  omega

/-- The accounted size of a hash with an overwritten field. -/
lemma payloadMemory_insert_old {hash : HashValue} {field old : Bytes} (value : Bytes)
    (h : hash.lookup field = some old) :
    payloadMemory (.hash (hash.insert field value)) + old.length =
      payloadMemory (.hash hash) + value.length := by
  simp only [payloadMemory, AList.sumBy_insert, AList.sumBy_erase _ h]
  omega

/-- The accounted size of a hash before a field is removed. -/
lemma payloadMemory_erase_field {hash : HashValue} {field old : Bytes}
    (h : hash.lookup field = some old) :
    payloadMemory (.hash hash) =
      payloadMemory (.hash (hash.erase field)) + (elementCost field + old.length) := by
  simp only [payloadMemory]
  rw [AList.sumBy_erase _ h]
  omega

section Growing

variable {p : Permits} (allowed : p.key key) (grow : p.grow)
include allowed grow

lemma listPushOne_mutates (side : ListSide) (db : Database) (value : Bytes) :
    Mutations p db (listPushOne key side db value) := by
  unfold listPushOne
  split
  · rename_i list h
    obtain ⟨entry, present, e⟩ := exists_entry_of_valueOf h
    rw [assign_addMemory present]
    refine .single (.rewrite present allowed (Nat.zero_le _) ?_ (.inl grow))
    rw [e, payloadMemory_pushElement, Nat.add_zero]
  · exact .refl

lemma listPushLoop_mutates (side : ListSide) (values : List Bytes) (db : Database) :
    Mutations p db (values.foldl (listPushOne key side) db) := by
  induction values generalizing db with
  | nil => exact .refl
  | cons value values ih => exact .trans (listPushOne_mutates allowed grow side db value) (ih _)

lemma hashSetOne_mutates (field value : Bytes) (db : Database) :
    Mutations p db (db.hashSetOne key field value).2 := by
  unfold hashSetOne
  split
  · rename_i hash h
    obtain ⟨entry, present, e⟩ := exists_entry_of_valueOf h
    split
    · rename_i hf
      dsimp only
      rw [addMemory_assign_addMemory present]
      refine .single (.rewrite present allowed (Nat.zero_le _) ?_ (.inl grow))
      rw [e, payloadMemory_insert_new value hf, Nat.add_zero]
    · rename_i old hf
      dsimp only
      rw [removeMemory_assign_addMemory present]
      refine .single (.rewrite present allowed ?_ ?_ (.inl grow))
      · rw [e, payloadMemory_erase_field hf]
        omega
      · rw [e, payloadMemory_insert_old value hf]
  · exact .refl

lemma hashSetLoop_mutates (fields : List (Bytes × Bytes)) (added : Nat) (db : Database) :
    Mutations p db (hashSetLoop key fields added db).2 := by
  induction fields generalizing added db with
  | nil => exact .refl
  | cons field fields ih =>
    exact .trans (hashSetOne_mutates allowed grow field.1 field.2 db) (ih _ _)

lemma setAddOne_mutates (member : Bytes) (db : Database) :
    Mutations p db (db.setAddOne key member).2 := by
  unfold setAddOne
  split
  · rename_i set h
    obtain ⟨entry, present, e⟩ := exists_entry_of_valueOf h
    split
    · exact .refl
    · rename_i new
      dsimp only
      rw [assign_addMemory present]
      refine .single (.rewrite present allowed (Nat.zero_le _) ?_ (.inl grow))
      rw [e, payloadMemory, payloadMemory, Finset.sum_insert new]
      omega
  · exact .refl

lemma setAddLoop_mutates (members : List Bytes) (added : Nat) (db : Database) :
    Mutations p db (setAddLoop key members added db).2 := by
  induction members generalizing added db with
  | nil => exact .refl
  | cons member members ih => exact .trans (setAddOne_mutates allowed grow member db) (ih _ _)

end Growing

section Shrinking

variable {p : Permits} (allowed : p.key key)
include allowed

lemma hashDeleteOne_mutates (field : Bytes) (db : Database) :
    Mutations p db (db.hashDeleteOne key field).2 := by
  unfold hashDeleteOne
  split
  · rename_i hash h
    obtain ⟨entry, present, e⟩ := exists_entry_of_valueOf h
    split
    · exact .refl
    · rename_i old hf
      dsimp only
      rw [removeMemory_assign present]
      refine .single (.rewrite present allowed ?_ ?_ (.inr rfl))
      · rw [e, payloadMemory_erase_field hf]
        omega
      · rw [e, payloadMemory_erase_field hf, Nat.add_zero]
  · exact .refl

lemma hashDeleteLoop_mutates (fields : List Bytes) (removed : Nat) (db : Database) :
    Mutations p db (hashDeleteLoop key fields removed db).2 := by
  induction fields generalizing removed db with
  | nil => exact .refl
  | cons field fields ih => exact .trans (hashDeleteOne_mutates allowed field db) (ih _ _)

lemma setRemoveOne_mutates (member : Bytes) (db : Database) :
    Mutations p db (db.setRemoveOne key member).2 := by
  unfold setRemoveOne
  split
  · rename_i set h
    obtain ⟨entry, present, e⟩ := exists_entry_of_valueOf h
    split
    · rename_i mem
      have sum := Finset.sum_erase_add set elementCost mem
      dsimp only
      rw [assign_removeMemory present]
      refine .single (.rewrite present allowed ?_ ?_ (.inr rfl))
      · rw [e, payloadMemory]
        omega
      · rw [e, payloadMemory, payloadMemory]
        omega
    · exact .refl
  · exact .refl

lemma setRemoveLoop_mutates (members : List Bytes) (removed : Nat) (db : Database) :
    Mutations p db (setRemoveLoop key members removed db).2 := by
  induction members generalizing removed db with
  | nil => exact .refl
  | cons member members ih => exact .trans (setRemoveOne_mutates allowed member db) (ih _ _)

end Shrinking

/-- Erasing a key that may be absent. -/
lemma erase_mutates {p : Permits} (allowed : p.key key ∨ p.evict) (db : Database) :
    Mutations p db (db.erase key) := by
  cases h : db.data.lookup key with
  | none =>
    have e : db.erase key = db := by
      simp only [erase, clearExpiry_of_absent h, h]
    rw [e]
  | some entry => exact .single (.erase h allowed)

section Evicting

variable {p : Permits} (evict : p.evict)
include evict

lemma sampleExpired_mutates (pick : Nat → Nat) (now : Int) (samples picked : Nat)
    (counts : Nat × Nat) (db : Database) :
    Mutations p db (sampleExpired pick now samples picked counts db).2 := by
  induction samples generalizing picked counts db with
  | zero => exact .refl
  | succ samples ih =>
    unfold sampleExpired
    split
    · exact .refl
    · split
      · exact .refl
      · split
        · exact .trans (erase_mutates (.inr evict) db) (ih _ _ _)
        · exact ih _ _ _

lemma expireRounds_mutates (choices : CycleChoices) (samplesPerLoop : Nat) (now : Int)
    (fuel round picked removed : Nat) (db : Database) :
    Mutations p db (expireRounds choices samplesPerLoop now fuel round picked removed db).2 := by
  induction fuel generalizing round picked removed db with
  | zero => exact .refl
  | succ fuel ih =>
    unfold expireRounds
    split
    · exact .refl
    · have sample := sampleExpired_mutates evict choices.pick now
        (min samplesPerLoop db.volatileKeys.length) picked (0, 0) db
      dsimp only
      split
      · dsimp only
        exact .tail sample (.count _)
      · split
        · dsimp only
          exact .tail sample (.count _)
        · exact .trans (.tail sample (.count _)) (ih _ _ _ _)

lemma evictLoop_mutates (fuel : Nat) (db : Database) : Mutations p db (evictLoop fuel db).2 := by
  induction fuel generalizing db with
  | zero => exact .refl
  | succ fuel ih =>
    unfold evictLoop
    split
    · exact .refl
    · split
      · exact .refl
      · split
        · exact .refl
        · exact .trans (.tail (erase_mutates (.inr evict) db) (.count _)) (ih _)

end Evicting

end Loops

section Reads

variable {α : Type} {p : Permits} {key : Bytes} {now : Int}

/-- The operation drops the key if it is expired, and makes permitted changes from there. -/
def Acts (p : Permits) (key : Bytes) (now : Int) (act : DbAction α) : Prop :=
  ∀ db, Mutations p (db.findLive key now).2 (act db).2

lemma Acts.mutates {act : DbAction α} (h : Acts p key now act) (allowed : p.key key)
    (db : Database) : Mutations p db (act db).2 :=
  .trans (findLive_mutates allowed db now) (h db)

/-- The operation looks the key up and at most touches it. -/
def Reads (key : Bytes) (now : Int) (act : DbAction α) : Prop :=
  ∀ db, (act db).2 = (db.findLive key now).2 ∨ (act db).2 = (db.findLive key now).2.touch key

lemma Reads.acts {act : DbAction α} (h : Reads key now act) (allowed : p.key key) :
    Acts p key now act := by
  intro db
  rcases h db with e | e
  · rw [e]
  · rw [e]
    exact .single (.touch allowed)

/-- An operation that only reads leaves the view alone. -/
lemma Reads.view {act : DbAction α} (h : Reads key now act) (db : Database) :
    (act db).2.view now = db.view now := by
  have same : (db.findLive key now).2.view now = db.view now := by
    rcases findLive_cases db key now with ⟨entry, hf, _⟩ | ⟨db', hf, _, same, _⟩
    · rw [hf]
    · rwa [hf]
  rcases h db with e | e
  · rw [e, same]
  · rw [e, view_touch, same]

/-- How an operation reads: by cases on what the lookup finds. -/
lemma Reads.intro {act : DbAction α}
    (absent : ∀ db db', db.findLive key now = (none, db') → (act db).2 = db')
    (present : ∀ db entry db', db.findLive key now = (some entry, db') →
      (act db).2 = db' ∨ (act db).2 = db'.touch key) : Reads key now act := by
  intro db
  rcases hf : db.findLive key now with ⟨_ | entry, db'⟩
  · exact .inl (absent db db' hf)
  · exact present db entry db' hf

lemma existsKey_reads : Reads key now (existsKey key now) :=
  fun _ => .inl rfl

lemma type_reads : Reads key now (type key now) :=
  fun _ => .inl rfl

lemma stringLength_reads : Reads key now (stringLength key now) := by
  apply Reads.intro
  · intro db db' hf
    simp only [stringLength, hf]
  · intro db entry db' hf
    simp only [stringLength, hf]
    split <;> exact .inl rfl

/-- Asking for the remaining time changes nothing but for the lookup. -/
lemma ttlMs_state (now' : Int) (db : Database) :
    (ttlMs key now now' db).2 = (db.findLive key now).2 := by
  unfold ttlMs
  rcases hf : db.findLive key now with ⟨_ | entry, db'⟩
  · rfl
  · dsimp only
    split <;> rfl

lemma ttl_state {now' : Int} (db : Database) :
    (ttl key now now' db).2 = (db.findLive key now).2 := by
  rw [← ttlMs_state now' db]
  unfold ttl
  rcases e : ttlMs key now now' db with ⟨_ | _, db'⟩
  · rw [StateAction.bind_of_error e]
  · rw [StateAction.bind_of_ok e]
    rfl

lemma ttlMs_reads {now' : Int} : Reads key now (ttlMs key now now') :=
  fun db => .inl (ttlMs_state now' db)

lemma ttl_reads {now' : Int} : Reads key now (ttl key now now') :=
  fun db => .inl (ttl_state db)

lemma listRange_reads {start stop : Int} : Reads key now (listRange key start stop now) := by
  apply Reads.intro
  · intro db db' hf
    simp only [listRange, hf]
  · intro db entry db' hf
    simp only [listRange, hf]
    split
    · split_ifs <;> simp
    · exact .inl rfl

lemma listIndex_reads {index : Int} : Reads key now (listIndex key index now) := by
  apply Reads.intro
  · intro db db' hf
    simp only [listIndex, hf]
  · intro db entry db' hf
    simp only [listIndex, hf]
    split
    · split_ifs <;> simp
    · exact .inl rfl

lemma listLength_reads : Reads key now (listLength key now) := by
  apply Reads.intro
  · intro db db' hf
    simp only [listLength, hf]
  · intro db entry db' hf
    simp only [listLength, hf]
    split <;> exact .inl rfl

lemma hashGet_reads {field : Bytes} : Reads key now (hashGet key field now) := by
  apply Reads.intro
  · intro db db' hf
    simp only [hashGet, hf]
  · intro db entry db' hf
    simp only [hashGet, hf]
    split
    · split
      · exact .inl rfl
      · exact .inr rfl
    · exact .inl rfl

lemma hashGetAll_reads : Reads key now (hashGetAll key now) := by
  apply Reads.intro
  · intro db db' hf
    simp only [hashGetAll, hf]
  · intro db entry db' hf
    simp only [hashGetAll, hf]
    split
    · exact .inr rfl
    · exact .inl rfl

lemma hashLength_reads : Reads key now (hashLength key now) := by
  apply Reads.intro
  · intro db db' hf
    simp only [hashLength, hf]
  · intro db entry db' hf
    simp only [hashLength, hf]
    split <;> exact .inl rfl

lemma hashExists_reads {field : Bytes} : Reads key now (hashExists key field now) := by
  apply Reads.intro
  · intro db db' hf
    simp only [hashExists, hf]
  · intro db entry db' hf
    simp only [hashExists, hf]
    split <;> exact .inl rfl

lemma setMembers_reads : Reads key now (setMembers key now) := by
  apply Reads.intro
  · intro db db' hf
    simp only [setMembers, hf]
  · intro db entry db' hf
    simp only [setMembers, hf]
    split
    · exact .inr rfl
    · exact .inl rfl

lemma setIsMember_reads {member : Bytes} : Reads key now (setIsMember key member now) := by
  apply Reads.intro
  · intro db db' hf
    simp only [setIsMember, hf]
  · intro db entry db' hf
    simp only [setIsMember, hf]
    split <;> exact .inl rfl

lemma setCardinality_reads : Reads key now (setCardinality key now) := by
  apply Reads.intro
  · intro db db' hf
    simp only [setCardinality, hf]
  · intro db entry db' hf
    simp only [setCardinality, hf]
    split <;> exact .inl rfl

end Reads

section Settings

variable {db : Database} {key : Bytes}

/-- The memory limit and the eviction policy. -/
def settings (db : Database) : Nat × EvictionPolicy :=
  (db.memoryLimit, db.policy)

lemma settings_update (f : Entry → Entry) : (db.update key f).settings = db.settings := by
  unfold update
  split <;> rfl

lemma settings_clearExpiry : (db.clearExpiry key).settings = db.settings := by
  unfold clearExpiry
  split
  · rfl
  · split
    · rw [settings_update, settings_update]
      rfl
    · rw [settings_update]

/-- Only a change of the settings changes the memory limit and the policy. -/
lemma Mutation.settings_eq {p : Permits} (fixed : ¬ p.settings) {db db' : Database}
    (m : Mutation p db db') : db'.settings = db.settings := by
  cases m with
  | create | count | clear => rfl
  | erase present _ =>
    unfold Database.erase
    dsimp only
    split <;> exact settings_clearExpiry
  | touch =>
    unfold Database.touch
    split <;> rfl
  | setExpiry =>
    unfold Database.setExpiry
    split
    · rfl
    · split <;> exact settings_update _
  | clearExpiry => exact settings_clearExpiry
  | rewrite =>
    unfold Database.rewrite
    split <;> rfl
  | settings _ _ may => exact absurd may fixed

lemma Mutations.settings_eq {p : Permits} (fixed : ¬ p.settings) {db db' : Database}
    (steps : Mutations p db db') : db'.settings = db.settings :=
  steps.preserves (I := fun db' => db'.settings = db.settings)
    (fun _ _ m same => (m.settings_eq fixed).trans same) rfl

lemma Mutations.memoryLimit {p : Permits} (fixed : ¬ p.settings) {db db' : Database}
    (steps : Mutations p db db') : db'.memoryLimit = db.memoryLimit :=
  congrArg Prod.fst (steps.settings_eq fixed)

end Settings

end Database

end FlashKV
