import FlashKV.Database.Eviction
import FlashKV.Database.Memory
import FlashKV.Database.Removal

/-!
# What an eviction removes

`EvictLoop` is the loop of `evictIfNeeded` without a bound on its rounds. With exact accounting it
ends within the limit, and what it has removed is the shortest sequence of least recently used keys
that suffices.
-/

namespace FlashKV

namespace Database

/-- The loop of `evictIfNeeded`, from the state before a round to the result. -/
inductive EvictLoop : Database → (Bool × List Bytes) × Database → Prop where
  | enough {db} :
    db.memoryUsed ≤ db.memoryLimit →
    EvictLoop db ((true, []), db)
  | refused {db} :
    db.memoryLimit < db.memoryUsed →
    db.policy = .noEviction ∨ db.lru = [] →
    EvictLoop db ((false, []), db)
  | evict {db victim within evicted db'} :
    db.memoryLimit < db.memoryUsed →
    db.policy ≠ .noEviction →
    db.lru.getLast? = some victim →
    EvictLoop (db.evictOne victim.key) ((within, evicted), db') →
    EvictLoop db ((within, victim.key :: evicted), db')

/-- The accounted memory of keys. -/
def memoryOf (db : Database) (keys : List Bytes) : Nat :=
  (keys.map fun key => ((db.data.lookup key).map (·.memory)).getD 0).sum

lemma memoryOf_append (db : Database) (keys keys' : List Bytes) :
    db.memoryOf (keys ++ keys') = db.memoryOf keys + db.memoryOf keys' := by
  unfold memoryOf
  rw [List.map_append, List.sum_append]

lemma memoryOf_reverse (db : Database) (keys : List Bytes) :
    db.memoryOf keys.reverse = db.memoryOf keys := by
  unfold memoryOf
  rw [List.map_reverse, List.sum_reverse]

/-- Least recently used keys have been evicted, none of them without need. -/
structure Evicted (victims : List Bytes) (db db' : Database) : Prop extends
    Removed victims db db' where
  linked : db'.Linked
  accounted : db'.Accounted
  settings : db'.memoryLimit = db.memoryLimit ∧ db'.policy = db.policy
  suffix : db.keysByRecency = db'.keysByRecency ++ victims.reverse
  used : db'.memoryUsed + db.memoryOf victims = db.memoryUsed
  needed : ∀ n < victims.length, db.memoryLimit + db.memoryOf (victims.take n) < db.memoryUsed
  counted : db'.statistics =
    { db.statistics with evictedKeys := db.statistics.evictedKeys + victims.length }

section Eviction

variable {db db' : Database} {victims : List Bytes} {victim : LruCell} {key : Bytes} {entry : Entry}

lemma Evicted.refl (linked : db.Linked) (accounted : db.Accounted) : Evicted [] db db where
  toRemoved := .refl db
  linked := linked
  accounted := accounted
  settings := ⟨rfl, rfl⟩
  suffix := (List.append_nil _).symm
  used := rfl
  needed _ short := absurd short (Nat.not_lt_zero _)
  counted := rfl

/-- The key at the back of the recency list is stored. -/
lemma Linked.back_stored (linked : db.Linked) (back : db.lru.getLast? = some victim) :
    ∃ entry, db.data.lookup victim.key = some entry :=
  linked.mem_keysByRecency.mp (List.mem_map_of_mem (List.mem_of_getLast? back))

/-- Without the key at the back, the others keep their places. -/
lemma Linked.keysByRecency_back (linked : db.Linked) (back : db.lru.getLast? = some victim) :
    db.keysByRecency = (db.erase victim.key).keysByRecency ++ [victim.key] := by
  obtain ⟨entry, present⟩ := linked.back_stored back
  obtain ⟨front, e⟩ := List.getLast?_eq_some_iff.mp back
  have keys : db.keysByRecency = front.map (·.key) ++ [victim.key] := by
    rw [keysByRecency, e, List.map_append]
    rfl
  have nodup := linked.nodup
  rw [← keysByRecency, keys] at nodup
  -- every key has one cell
  have other : victim.key ∉ front.map (·.key) := by
    intro mem
    exact (List.nodup_append.mp nodup).2.2 _ mem _ (List.mem_singleton_self _) rfl
  rw [linked.keysByRecency_erase present, keys, List.filter_append, List.filter_eq_self.mpr]
  · simp
  · intro a mem
    rw [decide_eq_true_eq]
    rintro rfl
    exact other mem

/-- What an erasure takes off the counter. -/
lemma Accounted.memoryUsed_erase (accounted : db.Accounted)
    (present : db.data.lookup key = some entry) :
    (db.erase key).memoryUsed + entry.memory = db.memoryUsed := by
  have self := lookup_clearExpiry_self present
  have le := (accounted.clearExpiry key).entry_le self
  rw [memoryUsed_clearExpiry] at le
  simp only [Database.erase, self]
  rw [memoryUsed_clearExpiry, subSize_of_le le]
  exact Nat.sub_add_cancel le

/-- One more key is evicted, since usage is above the limit. -/
lemma Evicted.evictOne (h : Evicted victims db db') (above : db'.memoryLimit < db'.memoryUsed)
    (back : db'.lru.getLast? = some victim) :
    Evicted (victims ++ [victim.key]) db (db'.evictOne victim.key) := by
  obtain ⟨entry, present⟩ := h.linked.back_stored back
  have spared := h.spared present
  have memory : db.memoryOf [victim.key] = entry.memory := by
    have same := h.kept victim.key spared
    rw [holding, present] at same
    obtain ⟨old, found, holds⟩ := Option.map_eq_some_iff.mp same.symm
    simp only [memoryOf, List.map_singleton, List.sum_singleton, found, Option.map_some,
      Option.getD_some]
    exact congrArg Holding.memory holds
  have steps : Mutations .erasing db' (db'.evictOne victim.key) := evictOne_mutates trivial _ _
  have settings := steps.settings_eq id
  have used := h.accounted.memoryUsed_erase present
  exact {
    toRemoved := (h.toRemoved.erase h.linked present).count _
    linked := (h.linked.erase present).congr rfl rfl rfl
    accounted := ⟨(h.accounted.erase present).entry, (h.accounted.erase present).total,
      (h.accounted.erase present).underflows⟩
    settings := ⟨(congrArg Prod.fst settings).trans h.settings.1,
      (congrArg Prod.snd settings).trans h.settings.2⟩
    suffix := by
      rw [h.suffix, h.linked.keysByRecency_back back, List.append_assoc, List.reverse_append]
      rfl
    used := by
      rw [memoryOf_append, memory]
      show (db'.erase victim.key).memoryUsed + _ = _
      have := h.used
      omega
    needed := by
      intro n short
      rw [List.length_append, List.length_singleton] at short
      rw [List.take_append_of_le_length (by omega)]
      -- before this round usage was above the limit; before the others `h` says so
      by_cases last : n = victims.length
      · rw [last, List.take_length, ← h.used, ← h.settings.1]
        omega
      · exact h.needed n (by omega)
    counted := by
      show { (db'.erase victim.key).statistics with
        evictedKeys := (db'.erase victim.key).statistics.evictedKeys + 1 } = _
      rw [statistics_erase, h.counted, List.length_append]
      rfl }

/-- With more rounds allowed than there are keys, the loop comes to its end. -/
lemma evictLoop_ends (linked : db.Linked) {fuel : Nat} (enough : db.lru.length < fuel) :
    EvictLoop db (evictLoop fuel db) := by
  induction fuel generalizing db with
  | zero => omega
  | succ fuel ih =>
    unfold evictLoop
    split
    · rename_i within
      exact .enough within
    · rename_i above
      split
      · rename_i none_
        exact .refused (by omega) (.inl none_)
      · rename_i evicts
        split
        · rename_i back
          exact .refused (by omega) (.inr (List.getLast?_eq_none_iff.mp back))
        · rename_i victim back
          obtain ⟨entry, present⟩ := linked.back_stored back
          refine .evict (by omega) evicts back (ih ((linked.erase present).congr rfl rfl rfl) ?_)
          -- the back cell is gone, and no other
          have shorter := congrArg List.length (linked.keysByRecency_back back)
          simp only [keysByRecency, List.length_append, List.length_map, List.length_singleton]
            at shorter
          show (db.erase victim.key).lru.length < fuel
          omega

/-- With an eviction policy the loop ends within the limit. -/
lemma EvictLoop.evicts {result : (Bool × List Bytes) × Database} (run : EvictLoop db' result)
    (h : Evicted victims db db') (policy : db.policy ≠ .noEviction) :
    result.1.1 = true ∧ result.2.memoryUsed ≤ result.2.memoryLimit ∧
      Evicted (victims ++ result.1.2) db result.2 := by
  induction run generalizing victims with
  | enough within =>
    refine ⟨rfl, within, ?_⟩
    rw [List.append_nil]
    exact h
  | @refused db' above stuck =>
    rcases stuck with none_ | empty
    · exact absurd (h.settings.2.symm.trans none_) policy
    · -- an empty list leaves no memory to account for
      have nothing : db'.data = ∅ := by
        apply AList.ext
        rw [AList.empty_entries, List.eq_nil_iff_forall_not_mem]
        rintro ⟨key, entry⟩ mem
        have listed := h.linked.mem_keysByRecency.mpr ⟨entry, AList.mem_lookup_iff.mpr mem⟩
        rw [keysByRecency, empty] at listed
        cases listed
      rw [h.accounted.exact.zero.mpr nothing] at above
      omega
  | evict above _ back _ ih =>
    obtain ⟨within, below, evicted⟩ := ih (h.evictOne above back)
    refine ⟨within, below, ?_⟩
    rw [← List.append_cons] at evicted
    exact evicted

/-- No shorter part of the back of the recency list would have been enough. -/
lemma Evicted.shortest (h : Evicted victims db db') {back : List Bytes}
    (part : back <:+ db.keysByRecency)
    (sufficient : db.memoryUsed ≤ db.memoryLimit + db.memoryOf back) :
    victims.length ≤ back.length := by
  by_contra shorter
  have evicted : victims.reverse <:+ db.keysByRecency := ⟨_, h.suffix.symm⟩
  have inside : back <:+ victims.reverse :=
    List.suffix_of_suffix_length_le part evicted (by rw [List.length_reverse]; omega)
  have first : back.reverse <+: victims := by
    rw [← List.reverse_suffix, List.reverse_reverse]
    exact inside
  -- the shorter part has been evicted on the way, and usage was still above the limit
  have above := h.needed back.length (by omega)
  rw [← List.length_reverse, ← List.prefix_iff_eq_take.mp first, memoryOf_reverse] at above
  omega

/-- `evictIfNeeded` with a limit and an eviction policy. -/
lemma evictIfNeeded_evicts (linked : db.Linked) (accounted : db.Accounted)
    (limited : db.memoryLimit ≠ 0) (policy : db.policy ≠ .noEviction) :
    ∃ evicted db', evictIfNeeded db = (.ok (true, evicted), db') ∧
      EvictLoop db ((true, evicted), db') ∧ db'.memoryUsed ≤ db'.memoryLimit ∧
      Evicted evicted db db' := by
  have run := evictLoop_ends linked (Nat.lt_succ_self db.lru.length)
  obtain ⟨within, below, evicted⟩ := run.evicts (.refl linked accounted) policy
  unfold evictIfNeeded
  rw [if_neg limited]
  rcases e : evictLoop (db.lru.length + 1) db with ⟨⟨_, victims⟩, db'⟩
  rw [e] at run within below evicted
  cases within
  exact ⟨victims, db', rfl, run, below, evicted⟩

/-- `evictIfNeeded` with a limit and no eviction policy. -/
lemma evictIfNeeded_refuses (limited : db.memoryLimit ≠ 0) (policy : db.policy = .noEviction) :
    evictIfNeeded db = (.ok (decide (db.memoryUsed ≤ db.memoryLimit), []), db) := by
  unfold evictIfNeeded evictLoop
  rw [if_neg limited]
  by_cases within : db.memoryUsed ≤ db.memoryLimit
  · rw [if_pos within, decide_eq_true within]
  · rw [if_neg within, if_pos policy, decide_eq_false within]

end Eviction

end Database

end FlashKV
