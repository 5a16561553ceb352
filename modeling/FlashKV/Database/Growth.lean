import FlashKV.Database.Evicted
import FlashKV.Lib.Spends

/-!
# What an operation may add to the memory use

The operations that make values grow add no more to the memory use than their arguments account for:
the overhead of an entry, the key, and what each value costs. All other operations add nothing. After
an eviction that reports success the memory use is within the limit, and with the recency policy an
eviction always succeeds.
-/

namespace FlashKV

open StateAction

namespace Database

/-- The accounting stays exact and the memory use grows by at most `cost`. -/
abbrev Grows (cost : Nat) : Database → Database → Prop :=
  Costs Accounted memoryUsed cost

section Grows

variable {db : Database} {key : Bytes} {entry : Entry} {now : Int}

/-- Changes that make no value grow are free. -/
lemma Mutations.grows {p : Permits} (shrinks : ¬ p.grow) {db db' : Database}
    (steps : Mutations p db db') : Grows 0 db db' :=
  fun inv => ⟨steps.preserves (I := Accounted) (fun _ _ m h => h.mutation m) inv,
    inv.memoryUsed_mutations_le shrinks steps⟩

lemma grows_findLive (key : Bytes) (now : Int) (db : Database) :
    Grows 0 db (db.findLive key now).2 :=
  Mutations.grows (p := { Permits.erasing with key := fun _ => True }) id
    (findLive_mutates trivial db now)

lemma grows_touch (key : Bytes) (db : Database) : Grows 0 db (db.touch key) :=
  Mutations.grows (p := { Permits.erasing with key := fun _ => True }) id (.single (.touch trivial))

lemma grows_erase (key : Bytes) (db : Database) : Grows 0 db (db.erase key) :=
  Mutations.grows (p := .erasing) id (erase_mutates (.inr trivial) db)

/-- A new key costs its entry. -/
lemma grows_create (value : Value) (absent : db.data.lookup key = none) :
    Grows (entryMemory key value) db (db.create key value) :=
  fun inv => ⟨inv.create value absent, le_rfl⟩

/-- Writing a value costs no more than what is added to the counters. -/
lemma grows_rewrite {value : Value} {freed added : Nat} (present : db.data.lookup key = some entry)
    (le : freed ≤ payloadMemory entry.value)
    (exact_ : payloadMemory value + freed = payloadMemory entry.value + added) :
    Grows added db (db.rewrite key value freed added) := by
  intro inv
  have within : freed ≤ db.memoryUsed := by
    refine le.trans (Nat.le_trans ?_ (inv.entry_le present))
    rw [inv.entry key entry present]
    exact Nat.le_add_left _ _
  refine ⟨inv.rewrite present le exact_, ?_⟩
  simp only [Database.rewrite, present]
  rw [subSize_of_le within]
  exact Nat.add_le_add_right (Nat.sub_le _ _) _

/-- The node of a key costs at most a new entry. -/
lemma grows_findOrCreate (key : Bytes) (initial : Value) (now : Int) (db : Database) :
    ∃ entry db', db.findOrCreate key initial now = (entry, db') ∧
      db'.data.lookup key = some entry ∧ Grows (entryMemory key initial) db db' := by
  have looked := grows_findLive key now db
  rcases findLive_cases db key now with ⟨entry, found, present, _⟩ | ⟨db', found, absent, _⟩
  · exact ⟨entry, db, by simp only [findOrCreate, found], present, .mono .refl (Nat.zero_le _)⟩
  · rw [found] at looked
    refine ⟨_, _, by simp only [findOrCreate, found]; rfl, ?_, ?_⟩
    · rw [lookup_create, if_pos rfl]
    · exact (looked.trans (grows_create initial absent)).mono (Nat.zero_add _).le

end Grows

section Operations

variable {key : Bytes} {now : Int}

lemma set_spends (value : Bytes) :
    Spends Accounted memoryUsed (entryMemory key (.string value)) (set key value now) := by
  intro db
  have looked := grows_findLive key now db
  rcases findLive_cases db key now with ⟨entry, found, present, _⟩ | ⟨db', found, absent, _⟩
  · simp only [Database.set, found, Option.isSome_some, if_true]
    exact ((grows_erase key db).trans (grows_create _ lookup_erase_self)).mono (Nat.zero_add _).le
  · rw [found] at looked
    simp only [Database.set, found, Option.isSome_none, Bool.false_eq_true, if_false]
    exact (looked.trans (grows_create _ absent)).mono (Nat.zero_add _).le

lemma append_spends (value : Bytes) :
    Spends Accounted memoryUsed (entryMemory key (.string value)) (append key value now) := by
  intro db
  have looked := grows_findLive key now db
  rcases findLive_cases db key now with ⟨entry, found, present, _⟩ | ⟨db', found, absent, _⟩
  · simp only [Database.append, found]
    split
    · rename_i text e
      dsimp only
      rw [assign_addMemory present]
      have grown : Grows value.length db (db.rewrite key (.string (text ++ value)) 0 value.length) := by
        refine grows_rewrite present (Nat.zero_le _) ?_
        rw [e, payloadMemory, payloadMemory, List.length_append, Nat.add_zero]
      refine (grown.trans (grows_touch key _)).mono ?_
      exact Nat.le_add_left _ _
    · exact .refl
  · rw [found] at looked
    simp only [Database.append, found]
    exact (looked.trans (grows_create _ absent)).mono (Nat.zero_add _).le

/-- The digits of a 64-bit number, with its sign. -/
def numberLength : Nat := 20

lemma length_ofInt_le_numberLength {z : Int} (range : IsInt64 z) :
    (Decimal.ofInt z).length ≤ numberLength := by
  refine Decimal.length_ofInt_le (k := 19) (by decide) ?_
  obtain ⟨least, greatest⟩ := range
  rw [int64Min] at least
  rw [int64Max] at greatest
  omega

lemma incrementBy_spends (delta : Int) :
    Spends Accounted memoryUsed (entryMemory key (.string (ascii "0")) + numberLength)
      (incrementBy key delta now) := by
  intro db
  obtain ⟨entry, db', found, present, created⟩ :=
    grows_findOrCreate key (.string (ascii "0")) now db
  have kept : Grows (entryMemory key (.string (ascii "0")) + numberLength) db db' :=
    created.mono (Nat.le_add_right _ _)
  simp only [incrementBy, found]
  split
  · rename_i text e
    split
    · exact kept
    · split
      · exact kept
      · rename_i result fits
        dsimp only
        rw [removeMemory_assign_addMemory present]
        refine .trans created (.mono ?_
          (length_ofInt_le_numberLength (fit64_eq_some_iff.mp fits).2))
        refine Costs.then_free (grows_rewrite present ?_ ?_) (grows_touch key _)
        · rw [e, payloadMemory]
        · rw [e, payloadMemory, payloadMemory, Nat.add_comm]
  · exact kept

lemma grows_listPushOne (side : ListSide) (db : Database) (value : Bytes) :
    Grows (elementCost value) db (listPushOne key side db value) := by
  unfold listPushOne
  split
  · rename_i list h
    obtain ⟨entry, present, e⟩ := exists_entry_of_valueOf h
    rw [assign_addMemory present]
    refine grows_rewrite present (Nat.zero_le _) ?_
    rw [e, payloadMemory_pushElement, Nat.add_zero]
  · exact .mono .refl (Nat.zero_le _)

lemma listPush_spends (values : List Bytes) (side : ListSide) :
    Spends Accounted memoryUsed (entryMemory key (.list []) + (values.map elementCost).sum)
      (listPush key values side now) := by
  intro db
  obtain ⟨entry, db', found, _, created⟩ := grows_findOrCreate key (.list []) now db
  simp only [listPush, found]
  split
  · refine Costs.trans created ?_
    exact Costs.then_free (.foldl (grows_listPushOne side) values db') (grows_touch key _)
  · exact created.mono (Nat.le_add_right _ _)

/-- What a field and its value cost. -/
def fieldCost (field : Bytes × Bytes) : Nat :=
  elementCost field.1 + field.2.length

lemma grows_hashSetOne (field : Bytes × Bytes) (db : Database) :
    Grows (fieldCost field) db (db.hashSetOne key field.1 field.2).2 := by
  unfold hashSetOne
  split
  · rename_i hash h
    obtain ⟨entry, present, e⟩ := exists_entry_of_valueOf h
    split
    · rename_i new
      dsimp only
      rw [addMemory_assign_addMemory present]
      refine grows_rewrite present (Nat.zero_le _) ?_
      rw [e, payloadMemory_insert_new field.2 new, Nat.add_zero, fieldCost]
    · rename_i old known
      dsimp only
      rw [removeMemory_assign_addMemory present]
      refine .mono (grows_rewrite present ?_ ?_) (Nat.le_add_left _ _)
      · rw [e, payloadMemory_erase_field known]
        exact (Nat.le_add_left _ _).trans (Nat.le_add_left _ _)
      · rw [e, payloadMemory_insert_old field.2 known]
  · exact .mono .refl (Nat.zero_le _)

lemma grows_hashSetLoop (fields : List (Bytes × Bytes)) (added : Nat) (db : Database) :
    Grows (fields.map fieldCost).sum db (hashSetLoop key fields added db).2 := by
  induction fields generalizing added db with
  | nil => exact .refl
  | cons field fields ih => exact .trans (grows_hashSetOne field db) (ih _ _)

lemma hashSet_spends (fields : List (Bytes × Bytes)) :
    Spends Accounted memoryUsed (entryMemory key (.hash ∅) + (fields.map fieldCost).sum)
      (hashSet key fields now) := by
  intro db
  obtain ⟨entry, db', found, _, created⟩ := grows_findOrCreate key (.hash ∅) now db
  simp only [hashSet, found]
  split
  · refine Costs.trans created ?_
    exact Costs.then_free (grows_hashSetLoop fields 0 db') (grows_touch key _)
  · exact created.mono (Nat.le_add_right _ _)

lemma grows_setAddOne (member : Bytes) (db : Database) :
    Grows (elementCost member) db (db.setAddOne key member).2 := by
  unfold setAddOne
  split
  · rename_i set h
    obtain ⟨entry, present, e⟩ := exists_entry_of_valueOf h
    split
    · exact .mono .refl (Nat.zero_le _)
    · rename_i new
      dsimp only
      rw [assign_addMemory present]
      refine grows_rewrite present (Nat.zero_le _) ?_
      rw [e, payloadMemory, payloadMemory, Finset.sum_insert new, Nat.add_zero, Nat.add_comm]
  · exact .mono .refl (Nat.zero_le _)

lemma grows_setAddLoop (members : List Bytes) (added : Nat) (db : Database) :
    Grows (members.map elementCost).sum db (setAddLoop key members added db).2 := by
  induction members generalizing added db with
  | nil => exact .refl
  | cons member members ih => exact .trans (grows_setAddOne member db) (ih _ _)

lemma setAdd_spends (members : List Bytes) :
    Spends Accounted memoryUsed (entryMemory key (.set ∅) + (members.map elementCost).sum)
      (setAdd key members now) := by
  intro db
  obtain ⟨entry, db', found, _, created⟩ := grows_findOrCreate key (.set ∅) now db
  simp only [setAdd, found]
  split
  · refine Costs.trans created ?_
    exact Costs.then_free (grows_setAddLoop members 0 db') (grows_touch key _)
  · exact created.mono (Nat.le_add_right _ _)

end Operations

section Evicting

variable {db : Database}

/-- An eviction that reports success has brought the memory use within the limit. -/
lemma evictLoop_within (fuel : Nat) (db : Database) (within : (evictLoop fuel db).1.1 = true) :
    (evictLoop fuel db).2.memoryUsed ≤ (evictLoop fuel db).2.memoryLimit := by
  induction fuel generalizing db with
  | zero => cases within
  | succ fuel ih =>
    unfold evictLoop at within ⊢
    split
    · rename_i below
      exact below
    · rename_i above
      rw [if_neg above] at within
      split
      · rename_i none_
        rw [if_pos none_] at within
        cases within
      · rename_i evicts
        rw [if_neg evicts] at within
        cases back : db.lru.getLast? with
        | none =>
          rw [back] at within
          cases within
        | some victim =>
          rw [back] at within
          exact ih _ within

lemma memoryUsed_evictAll (limited : db.memoryLimit ≠ 0) (within : db.evictsEnough = true) :
    (db.evictAll db.victims).memoryUsed ≤ db.memoryLimit := by
  have settled : (db.evictAll db.victims).memoryLimit = db.memoryLimit :=
    (evictAll_mutates (p := .erasing) trivial db.victims db).memoryLimit id
  have evicted := evictIfNeeded_eq db
  have loop : evictIfNeeded db = (.ok (evictLoop (db.lru.length + 1) db).1,
      (evictLoop (db.lru.length + 1) db).2) := by
    unfold evictIfNeeded
    rw [if_neg limited]
  rw [loop] at evicted
  have state : (evictLoop (db.lru.length + 1) db).2 = db.evictAll db.victims :=
    congrArg Prod.snd evicted
  have result := Except.ok.inj (congrArg Prod.fst evicted)
  rw [← settled, ← state]
  exact evictLoop_within _ db ((congrArg Prod.fst result).trans within)

/-- With an eviction policy an eviction succeeds. -/
lemma evictsEnough_of_evicts (linked : db.Linked) (accounted : db.Accounted)
    (evicts : db.policy ≠ .noEviction) : db.evictsEnough = true := by
  by_cases unlimited : db.memoryLimit = 0
  · exact evictsEnough_of_unlimited unlimited
  · have ends := evictLoop_ends linked (Nat.lt_succ_self db.lru.length)
    unfold evictsEnough evictIfNeeded
    rw [if_neg unlimited]
    exact (ends.evicts (.refl linked accounted) evicts).1

end Evicting

end Database

end FlashKV
