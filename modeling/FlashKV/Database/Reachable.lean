import FlashKV.Database.Mutation

/-!
# Runs of database operations

`Op` lists the public operations of `Database` that can change it, each with its arguments and the
clock readings it makes. `Op.mutates` says once, for all of them, what an operation can do; the
invariants of the storage engine are proved from it.
-/

namespace FlashKV

open Database

/-- A call of a public operation of `Database`, with the clock readings made during the call. -/
inductive Op where
  | del (key : Bytes) (now : Int)
  | existsKey (key : Bytes) (now : Int)
  | type (key : Bytes) (now : Int)
  | keys (pattern : Bytes) (now : Int)
  | clear
  | set (key value : Bytes) (now : Int)
  | get (key : Bytes) (now : Int)
  | incrementBy (key : Bytes) (delta now : Int)
  | append (key value : Bytes) (now : Int)
  | stringLength (key : Bytes) (now : Int)
  | expireAtMs (key : Bytes) (unixTimeMs now now' : Int)
  | expire (key : Bytes) (seconds start now now' : Int)
  | persist (key : Bytes) (now : Int)
  | ttlMs (key : Bytes) (now now' : Int)
  | ttl (key : Bytes) (now now' : Int)
  | activeExpireCycle (choices : CycleChoices) (samplesPerLoop : Nat) (now : Int)
  | listPush (key : Bytes) (values : List Bytes) (side : ListSide) (now : Int)
  | listPop (key : Bytes) (side : ListSide) (now : Int)
  | listRange (key : Bytes) (start stop now : Int)
  | listIndex (key : Bytes) (index now : Int)
  | listLength (key : Bytes) (now : Int)
  | hashSet (key : Bytes) (fields : List (Bytes × Bytes)) (now : Int)
  | hashGet (key field : Bytes) (now : Int)
  | hashDelete (key : Bytes) (fields : List Bytes) (now : Int)
  | hashGetAll (key : Bytes) (now : Int)
  | hashLength (key : Bytes) (now : Int)
  | hashExists (key field : Bytes) (now : Int)
  | setAdd (key : Bytes) (members : List Bytes) (now : Int)
  | setRemove (key : Bytes) (members : List Bytes) (now : Int)
  | setMembers (key : Bytes) (now : Int)
  | setIsMember (key member : Bytes) (now : Int)
  | setCardinality (key : Bytes) (now : Int)
  | setMaxMemory (bytes : Nat)
  | setEvictionPolicy (policy : EvictionPolicy)
  | evictIfNeeded

/-- The deadline that `expire` hands to `expireAtMs`. -/
def Database.expireDeadlineOf (seconds start : Int) : Int :=
  if seconds ≤ 0 then start
  else ((fit64 (seconds * 1000)).bind fun ms => fit64 (start + ms)).getD int64Max

namespace Op

/-- The database after the call, whether it returns or throws. -/
def apply (db : Database) : Op → Database
  | .del key now => (Database.del key now db).2
  | .existsKey key now => (Database.existsKey key now db).2
  | .type key now => (Database.type key now db).2
  | .keys pattern now => (Database.keys pattern now db).2
  | .clear => (Database.clear db).2
  | .set key value now => (Database.set key value now db).2
  | .get key now => (Database.get key now db).2
  | .incrementBy key delta now => (Database.incrementBy key delta now db).2
  | .append key value now => (Database.append key value now db).2
  | .stringLength key now => (Database.stringLength key now db).2
  | .expireAtMs key unixTimeMs now now' => (Database.expireAtMs key unixTimeMs now now' db).2
  | .expire key seconds start now now' => (Database.expire key seconds start now now' db).2
  | .persist key now => (Database.persist key now db).2
  | .ttlMs key now now' => (Database.ttlMs key now now' db).2
  | .ttl key now now' => (Database.ttl key now now' db).2
  | .activeExpireCycle choices samplesPerLoop now =>
    (Database.activeExpireCycle choices samplesPerLoop now db).2
  | .listPush key values side now => (Database.listPush key values side now db).2
  | .listPop key side now => (Database.listPop key side now db).2
  | .listRange key start stop now => (Database.listRange key start stop now db).2
  | .listIndex key index now => (Database.listIndex key index now db).2
  | .listLength key now => (Database.listLength key now db).2
  | .hashSet key fields now => (Database.hashSet key fields now db).2
  | .hashGet key field now => (Database.hashGet key field now db).2
  | .hashDelete key fields now => (Database.hashDelete key fields now db).2
  | .hashGetAll key now => (Database.hashGetAll key now db).2
  | .hashLength key now => (Database.hashLength key now db).2
  | .hashExists key field now => (Database.hashExists key field now db).2
  | .setAdd key members now => (Database.setAdd key members now db).2
  | .setRemove key members now => (Database.setRemove key members now db).2
  | .setMembers key now => (Database.setMembers key now db).2
  | .setIsMember key member now => (Database.setIsMember key member now db).2
  | .setCardinality key now => (Database.setCardinality key now db).2
  | .setMaxMemory bytes => (Database.setMaxMemory bytes db).2
  | .setEvictionPolicy policy => (Database.setEvictionPolicy policy db).2
  | .evictIfNeeded => (Database.evictIfNeeded db).2

/-- The clock readings made during the call. -/
def readings : Op → List Int
  | .del _ now | .existsKey _ now | .type _ now | .keys _ now | .set _ _ now | .get _ now
  | .incrementBy _ _ now | .append _ _ now | .stringLength _ now | .persist _ now
  | .activeExpireCycle _ _ now | .listPush _ _ _ now | .listPop _ _ now | .listRange _ _ _ now
  | .listIndex _ _ now | .listLength _ now | .hashSet _ _ now | .hashGet _ _ now
  | .hashDelete _ _ now | .hashGetAll _ now | .hashLength _ now | .hashExists _ _ now
  | .setAdd _ _ now | .setRemove _ _ now | .setMembers _ now | .setIsMember _ _ now
  | .setCardinality _ now => [now]
  | .expireAtMs _ _ now now' | .ttlMs _ now now' | .ttl _ now now' => [now, now']
  | .expire _ _ start now now' => [start, now, now']
  | .clear | .setMaxMemory _ | .setEvictionPolicy _ | .evictIfNeeded => []

/-- The deadline that the call asks for. -/
def deadline : Op → Option Int
  | .expireAtMs _ unixTimeMs _ _ => some unixTimeMs
  | .expire _ seconds start _ _ => some (expireDeadlineOf seconds start)
  | _ => none

/-- What the call may do: any key may be changed, a deadline is set after one of the readings. -/
def permits (op : Op) : Permits where
  deadline d := ∃ now ∈ op.readings, now < d
  key _ := True
  evict := True
  grow := True
  clear := True
  settings := True

/-- Does the call pass a non-empty list wherever it passes a list of values? `CommandProcessor`
always does: the arity table sees to it. -/
def NonemptyValues : Op → Prop
  | .listPush _ values _ _ => values ≠ []
  | .hashSet _ fields _ => fields ≠ []
  | .hashDelete _ fields _ => fields ≠ []
  | .setAdd _ members _ => members ≠ []
  | .setRemove _ members _ => members ≠ []
  | _ => True

/-- Run a sequence of calls from the empty database. -/
def run (ops : List Op) : Database :=
  ops.foldl apply {}

end Op

section Acts

variable {p : Permits} {key : Bytes} {now : Int} (allowed : p.key key)
include allowed

lemma del_acts : Acts p key now (Database.del key now) := by
  intro db
  rcases findLive_cases db key now with ⟨entry, hf, present, _⟩ | ⟨db', hf, _⟩
  · simp only [Database.del, hf]
    exact .single (.erase present (.inl allowed))
  · simp only [Database.del, hf]
    exact .refl

lemma get_acts : Acts p key now (Database.get key now) := by
  intro db
  rcases findLive_cases db key now with ⟨entry, hf, _⟩ | ⟨db', hf, _⟩
  · simp only [Database.get, hf]
    split
    · exact .tail (.single (.count _)) (.touch allowed)
    · exact .refl
  · simp only [Database.get, hf]
    exact .single (.count _)

lemma expireAtMs_acts {unixTimeMs now' : Int} (future : now' < unixTimeMs → p.deadline unixTimeMs) :
    Acts p key now (Database.expireAtMs key unixTimeMs now now') := by
  intro db
  rcases findLive_cases db key now with ⟨entry, hf, present, _⟩ | ⟨db', hf, _⟩
  · simp only [Database.expireAtMs, hf]
    split
    · exact .single (.erase present (.inl allowed))
    · exact .single (.setExpiry present allowed (future (by omega)))
  · simp only [Database.expireAtMs, hf]
    exact .refl

lemma persist_acts : Acts p key now (Database.persist key now) := by
  intro db
  rcases findLive_cases db key now with ⟨entry, hf, present, _⟩ | ⟨db', hf, _⟩
  · simp only [Database.persist, hf]
    split
    · exact .refl
    · exact .single (.clearExpiry present allowed)
  · simp only [Database.persist, hf]
    exact .refl

lemma listPop_acts {side : ListSide} : Acts p key now (Database.listPop key side now) := by
  intro db
  rcases findLive_cases db key now with ⟨entry, hf, present, _⟩ | ⟨db', hf, _⟩
  · simp only [Database.listPop, hf]
    split
    · rename_i list e
      split
      · exact .refl
      · rename_i value rest popped
        have size := payloadMemory_popElement popped
        dsimp only
        rw [assign_removeMemory present]
        have shrink : Mutation p db (db.rewrite key (.list rest) (elementCost value) 0) := by
          refine .rewrite present allowed ?_ ?_ (.inr rfl)
          · rw [e]
            omega
          · rw [e, size, Nat.add_zero]
        split
        · exact .trans (.single shrink) (erase_mutates (.inl allowed) _)
        · exact .tail (.single shrink) (.touch allowed)
    · exact .refl
  · simp only [Database.listPop, hf]
    exact .refl

lemma hashDelete_acts {fields : List Bytes} :
    Acts p key now (Database.hashDelete key fields now) := by
  intro db
  rcases findLive_cases db key now with ⟨entry, hf, _⟩ | ⟨db', hf, _⟩
  · simp only [Database.hashDelete, hf]
    have loop : Mutations p db (hashDeleteLoop key fields 0 db).2 :=
      hashDeleteLoop_mutates allowed fields 0 db
    split
    · dsimp only
      split
      · exact .trans loop (erase_mutates (.inl allowed) _)
      · exact loop
    · exact .refl
  · simp only [Database.hashDelete, hf]
    exact .refl

lemma setRemove_acts {members : List Bytes} :
    Acts p key now (Database.setRemove key members now) := by
  intro db
  rcases findLive_cases db key now with ⟨entry, hf, _⟩ | ⟨db', hf, _⟩
  · simp only [Database.setRemove, hf]
    have loop : Mutations p db (setRemoveLoop key members 0 db).2 :=
      setRemoveLoop_mutates allowed members 0 db
    split
    · dsimp only
      split
      · exact .trans loop (erase_mutates (.inl allowed) _)
      · exact loop
    · exact .refl
  · simp only [Database.setRemove, hf]
    exact .refl

variable (grow : p.grow)
include grow

lemma set_acts {value : Bytes} : Acts p key now (Database.set key value now) := by
  intro db
  rcases findLive_cases db key now with ⟨entry, hf, present, _⟩ | ⟨db', hf, absent, _⟩
  · simp only [Database.set, hf, Option.isSome_some, if_true]
    exact .tail (.single (.erase present (.inl allowed))) (.create _ lookup_erase_self allowed grow)
  · simp only [Database.set, hf, Option.isSome_none, Bool.false_eq_true, if_false]
    exact .single (.create _ absent allowed grow)

lemma incrementBy_acts {delta : Int} :
    Acts p key now (Database.incrementBy key delta now) := by
  intro db
  obtain ⟨entry, db', hf, present, steps⟩ :=
    findOrCreate_mutates allowed grow db (.string (ascii "0")) now
  simp only [Database.incrementBy, hf]
  split
  · rename_i text e
    split
    · exact steps
    · split
      · exact steps
      · dsimp only
        rw [removeMemory_assign_addMemory present]
        refine .tail (.tail steps (.rewrite present allowed ?_ ?_ (.inl grow))) (.touch allowed)
        · rw [e, payloadMemory]
        · rw [e, payloadMemory, payloadMemory, Nat.add_comm]
  · exact steps

lemma append_acts {value : Bytes} : Acts p key now (Database.append key value now) := by
  intro db
  rcases findLive_cases db key now with ⟨entry, hf, present, _⟩ | ⟨db', hf, absent, _⟩
  · simp only [Database.append, hf]
    split
    · rename_i text e
      dsimp only
      rw [assign_addMemory present]
      refine .tail (.single (.rewrite present allowed (Nat.zero_le _) ?_ (.inl grow)))
        (.touch allowed)
      rw [e, payloadMemory, payloadMemory, List.length_append, Nat.add_zero]
    · exact .refl
  · simp only [Database.append, hf]
    exact .single (.create _ absent allowed grow)

lemma listPush_acts {values : List Bytes} {side : ListSide} :
    Acts p key now (Database.listPush key values side now) := by
  intro db
  obtain ⟨entry, db', hf, _, steps⟩ := findOrCreate_mutates allowed grow db (.list []) now
  simp only [Database.listPush, hf]
  split
  · exact .tail (.trans steps (listPushLoop_mutates allowed grow side values db')) (.touch allowed)
  · exact steps

lemma hashSet_acts {fields : List (Bytes × Bytes)} :
    Acts p key now (Database.hashSet key fields now) := by
  intro db
  obtain ⟨entry, db', hf, _, steps⟩ := findOrCreate_mutates allowed grow db (.hash ∅) now
  simp only [Database.hashSet, hf]
  split
  · exact .tail (.trans steps (hashSetLoop_mutates allowed grow fields 0 db')) (.touch allowed)
  · exact steps

lemma setAdd_acts {members : List Bytes} :
    Acts p key now (Database.setAdd key members now) := by
  intro db
  obtain ⟨entry, db', hf, _, steps⟩ := findOrCreate_mutates allowed grow db (.set ∅) now
  simp only [Database.setAdd, hf]
  split
  · exact .tail (.trans steps (setAddLoop_mutates allowed grow members 0 db')) (.touch allowed)
  · exact steps

end Acts

section Mutates

variable {p : Permits} {now : Int} {db : Database}

lemma expire_deadline (key : Bytes) (seconds start now now' : Int) :
    Database.expire key seconds start now now' =
      expireAtMs key (expireDeadlineOf seconds start) now now' := by
  unfold Database.expire expireDeadlineOf
  split <;> rfl

lemma activeExpireCycle_mutates {choices : CycleChoices} {samplesPerLoop : Nat} (evict : p.evict) :
    Mutations p db (Database.activeExpireCycle choices samplesPerLoop now db).2 :=
  expireRounds_mutates evict choices samplesPerLoop now (db.volatileKeys.length + 1) 0 0 0 db

lemma evictIfNeeded_mutates (evict : p.evict) :
    Mutations p db (Database.evictIfNeeded db).2 := by
  unfold Database.evictIfNeeded
  split
  · exact .refl
  · exact evictLoop_mutates evict _ db

/-- Every operation, whether it returns or throws, changes the database by mutations that set only
the deadline it asks for, and only if that is after one of the operation's clock readings. -/
lemma Op.mutates_of {D : Int → Prop} (op : Op) (db : Database)
    (future : ∀ d, op.deadline = some d → (∃ now ∈ op.readings, now < d) → D d) :
    Mutations (.any D) db (op.apply db) := by
  cases op with
  | del key => exact (del_acts trivial).mutates trivial db
  | existsKey => exact (existsKey_reads.acts trivial).mutates trivial db
  | type => exact (type_reads.acts trivial).mutates trivial db
  | keys => exact .refl
  | clear => exact .single (.clear trivial)
  | set => exact (set_acts trivial trivial).mutates trivial db
  | get => exact (get_acts trivial).mutates trivial db
  | incrementBy => exact (incrementBy_acts trivial trivial).mutates trivial db
  | append => exact (append_acts trivial trivial).mutates trivial db
  | stringLength => exact (stringLength_reads.acts trivial).mutates trivial db
  | expireAtMs key unixTimeMs now now' =>
    refine Acts.mutates (expireAtMs_acts trivial fun h => ?_) trivial db
    exact future unixTimeMs rfl ⟨now', by simp [Op.readings], h⟩
  | expire key seconds start now now' =>
    have asked := expire_deadline key seconds start now now'
    have same : Op.apply db (.expire key seconds start now now') =
        (Database.expireAtMs key (expireDeadlineOf seconds start) now now' db).2 :=
      congrArg Prod.snd (congrFun asked db)
    rw [same]
    refine Acts.mutates (expireAtMs_acts trivial fun h => ?_) trivial db
    exact future _ rfl ⟨now', by simp [Op.readings], h⟩
  | persist => exact (persist_acts trivial).mutates trivial db
  | ttlMs => exact (ttlMs_reads.acts trivial).mutates trivial db
  | ttl => exact (ttl_reads.acts trivial).mutates trivial db
  | activeExpireCycle => exact activeExpireCycle_mutates trivial
  | listPush => exact (listPush_acts trivial trivial).mutates trivial db
  | listPop => exact (listPop_acts trivial).mutates trivial db
  | listRange => exact (listRange_reads.acts trivial).mutates trivial db
  | listIndex => exact (listIndex_reads.acts trivial).mutates trivial db
  | listLength => exact (listLength_reads.acts trivial).mutates trivial db
  | hashSet => exact (hashSet_acts trivial trivial).mutates trivial db
  | hashGet => exact (hashGet_reads.acts trivial).mutates trivial db
  | hashDelete => exact (hashDelete_acts trivial).mutates trivial db
  | hashGetAll => exact (hashGetAll_reads.acts trivial).mutates trivial db
  | hashLength => exact (hashLength_reads.acts trivial).mutates trivial db
  | hashExists => exact (hashExists_reads.acts trivial).mutates trivial db
  | setAdd => exact (setAdd_acts trivial trivial).mutates trivial db
  | setRemove => exact (setRemove_acts trivial).mutates trivial db
  | setMembers => exact (setMembers_reads.acts trivial).mutates trivial db
  | setIsMember => exact (setIsMember_reads.acts trivial).mutates trivial db
  | setCardinality => exact (setCardinality_reads.acts trivial).mutates trivial db
  | setMaxMemory bytes => exact .single (.settings bytes db.policy trivial)
  | setEvictionPolicy policy => exact .single (.settings db.memoryLimit policy trivial)
  | evictIfNeeded => exact evictIfNeeded_mutates trivial

lemma Op.mutates (op : Op) (db : Database) : Mutations op.permits db (op.apply db) :=
  op.mutates_of db fun _ _ after => after

end Mutates

/-- A property that holds initially and survives every call survives every run. -/
lemma Op.run_invariant {I : Database → Prop} (ok : Op → Prop) (init : I {})
    (step : ∀ op db, ok op → I db → I (op.apply db)) (ops : List Op) (h : ∀ op ∈ ops, ok op) :
    I (Op.run ops) := by
  have all : ∀ (ops : List Op) (db : Database), (∀ op ∈ ops, ok op) → I db →
      I (ops.foldl Op.apply db) := by
    intro ops
    induction ops with
    | nil => exact fun _ _ inv => inv
    | cons op ops ih =>
      intro db h inv
      apply ih (Op.apply db op) fun op' mem => h op' (by simp [mem])
      exact step op db (h op (by simp)) inv
  exact all ops {} h init

/-- A property that holds initially and survives every change survives every run. -/
lemma Op.run_induction {I : Database → Prop} (ok : Op → Prop) (init : I {})
    (step : ∀ op db db', ok op → Mutation op.permits db db' → I db → I db')
    (ops : List Op) (h : ∀ op ∈ ops, ok op) : I (Op.run ops) :=
  Op.run_invariant ok init (fun op db ok inv =>
    (Op.mutates op db).preserves (fun db db' m i => step op db db' ok m i) inv) ops h

end FlashKV
