import FlashKV.Database.Reachable

/-!
# Evictions

`evictIfNeeded` evicts its victims one after the other; without a limit, or when no eviction is due,
it has none.
-/

namespace FlashKV

namespace Database

/-- Evict keys, one after the other. -/
def evictAll (victims : List Bytes) (db : Database) : Database :=
  victims.foldl (fun db victim => db.evictOne victim) db

/-- The keys that `evictIfNeeded` evicts, in order. -/
def victims (db : Database) : List Bytes :=
  match (evictIfNeeded db).1 with
  | .ok (_, evicted) => evicted
  | .error _ => []

/-- Is usage within the limit after `evictIfNeeded`? -/
def evictsEnough (db : Database) : Bool :=
  match (evictIfNeeded db).1 with
  | .ok (within, _) => within
  | .error _ => false

lemma evictLoop_evictAll (fuel : Nat) (db : Database) :
    (evictLoop fuel db).2 = db.evictAll (evictLoop fuel db).1.2 := by
  induction fuel generalizing db with
  | zero => rfl
  | succ fuel ih =>
    unfold evictLoop
    split
    · rfl
    · split
      · rfl
      · split
        · rfl
        · exact ih _

/-- `evictIfNeeded` evicts its victims one after the other. -/
lemma evictIfNeeded_eq (db : Database) :
    evictIfNeeded db = (.ok (db.evictsEnough, db.victims), db.evictAll db.victims) := by
  unfold evictsEnough victims evictIfNeeded
  split
  · rfl
  · simp only [evictLoop_evictAll]

/-- Without a limit nothing is evicted. -/
lemma victims_of_unlimited {db : Database} (unlimited : db.memoryLimit = 0) : db.victims = [] := by
  unfold victims evictIfNeeded
  rw [if_pos unlimited]

lemma evictsEnough_of_unlimited {db : Database} (unlimited : db.memoryLimit = 0) :
    db.evictsEnough = true := by
  unfold evictsEnough evictIfNeeded
  rw [if_pos unlimited]

lemma evictOne_mutates {p : Permits} (evict : p.evict) (victim : Bytes) (db : Database) :
    Mutations p db (db.evictOne victim) :=
  .tail (erase_mutates (.inr evict) db) (.count _)

lemma evictAll_mutates {p : Permits} (evict : p.evict) (victims : List Bytes) (db : Database) :
    Mutations p db (db.evictAll victims) := by
  induction victims generalizing db with
  | nil => exact .refl
  | cons victim victims ih => exact .trans (evictOne_mutates evict victim db) (ih _)

/-- Would a write command evict? -/
def EvictionDue (db : Database) : Prop :=
  db.memoryLimit ≠ 0 ∧ db.memoryLimit < db.memoryUsed ∧ db.policy ≠ .noEviction

instance (db : Database) : Decidable db.EvictionDue :=
  inferInstanceAs (Decidable (_ ∧ _ ∧ _))

lemma evictLoop_idle {db : Database} (limited : db.memoryLimit ≠ 0)
    (idle : ¬ db.EvictionDue) (fuel : Nat) :
    ∃ within, evictLoop (fuel + 1) db = ((within, []), db) := by
  unfold evictLoop
  split
  · exact ⟨true, rfl⟩
  · rename_i large
    split
    · exact ⟨false, rfl⟩
    · rename_i evicts
      exact absurd ⟨limited, Nat.lt_of_not_le large, evicts⟩ idle

lemma victims_of_idle {db : Database} (idle : ¬ db.EvictionDue) : db.victims = [] := by
  by_cases unlimited : db.memoryLimit = 0
  · exact victims_of_unlimited unlimited
  · obtain ⟨within, e⟩ := evictLoop_idle unlimited idle db.lru.length
    unfold victims evictIfNeeded
    rw [if_neg unlimited, e]

end Database

end FlashKV
