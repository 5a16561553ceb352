import FlashKV.Database.Frame

/-!
# Removing keys

Expiration and eviction erase keys one after the other. `Removed` says what a sequence of erasures
does as a whole: the keys are gone, and the others hold what they held, in the same order of recency.
-/

namespace FlashKV

namespace Database

/-- The second database is the first one without the victims. -/
structure Removed (victims : List Bytes) (db db' : Database) : Prop where
  nodup : victims.Nodup
  stored : ∀ key ∈ victims, key ∈ db.data
  gone : ∀ key ∈ victims, key ∉ db'.data
  kept : ∀ key, key ∉ victims → db'.holding key = db.holding key
  order : db'.keysByRecency = db.keysByRecency.filter (· ∉ victims)

section Statistics

variable {db : Database} {key : Bytes}

lemma statistics_update (f : Entry → Entry) : (db.update key f).statistics = db.statistics := by
  unfold Database.update
  split <;> rfl

lemma statistics_clearExpiry : (db.clearExpiry key).statistics = db.statistics := by
  unfold Database.clearExpiry
  split
  · rfl
  · dsimp only
    split
    · rw [statistics_update]
      exact statistics_update _
    · rw [statistics_update]

/-- Erasing counts nothing. -/
lemma statistics_erase : (db.erase key).statistics = db.statistics := by
  unfold Database.erase
  dsimp only
  split <;> exact statistics_clearExpiry

end Statistics

section Removed

variable {victims : List Bytes} {db db' : Database} {key : Bytes} {entry : Entry}

lemma Removed.refl (db : Database) : Removed [] db db where
  nodup := .nil
  stored _ mem := absurd mem List.not_mem_nil
  gone _ mem := absurd mem List.not_mem_nil
  kept _ _ := rfl
  order := by simp

/-- A key that is still there has not been removed. -/
lemma Removed.spared (h : Removed victims db db') (present : db'.data.lookup key = some entry) :
    key ∉ victims :=
  fun mem => h.gone key mem (AList.lookup_isSome.mp (by rw [present]; rfl))

/-- One more key is erased. -/
lemma Removed.erase (h : Removed victims db db') (linked : db'.Linked)
    (present : db'.data.lookup key = some entry) :
    Removed (victims ++ [key]) db (db'.erase key) := by
  have other := h.spared present
  obtain ⟨old, found, _⟩ := exists_of_holding (h.kept key other) present
  have mem : ∀ {a}, a ∉ victims ++ [key] ↔ a ∉ victims ∧ a ≠ key := by
    intro a
    rw [List.mem_append, List.mem_singleton, not_or]
  refine ⟨?_, ?_, ?_, ?_, ?_⟩
  · exact List.nodup_append.mpr ⟨h.nodup, List.nodup_singleton key, fun a first b last => by
      rw [List.mem_singleton.mp last]
      rintro rfl
      exact other first⟩
  · intro a victim
    rcases List.mem_append.mp victim with earlier | last
    · exact h.stored a earlier
    · rw [List.mem_singleton.mp last]
      exact AList.lookup_isSome.mp (by rw [found]; rfl)
  · intro a victim
    rw [← AList.lookup_eq_none]
    by_cases e : a = key
    · rw [e]
      exact lookup_erase_self
    · have earlier : a ∈ victims := by
        rcases List.mem_append.mp victim with earlier | last
        · exact earlier
        · exact absurd (List.mem_singleton.mp last) e
      have absent := AList.lookup_eq_none.mpr (h.gone a earlier)
      have same : _ = (db'.data.lookup a).map _ := lookup_erase_of_ne e
      rw [absent] at same
      exact Option.map_eq_none_iff.mp same
  · intro a spared
    obtain ⟨spared, ne⟩ := mem.mp spared
    exact (holding_congr (lookup_erase_of_ne ne)).trans (h.kept a spared)
  · rw [linked.keysByRecency_erase present, h.order, List.filter_filter]
    refine List.filter_congr fun a _ => ?_
    rw [← Bool.decide_and, decide_eq_decide, mem, and_comm]

/-- The counters of the statistics are no part of what is removed. -/
lemma Removed.count (h : Removed victims db db') (f : DatabaseStats → DatabaseStats) :
    Removed victims db (db'.count f) :=
  ⟨h.nodup, h.stored, h.gone, h.kept, h.order⟩

end Removed

end Database

end FlashKV
