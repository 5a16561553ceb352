import FlashKV.Database.Index
import FlashKV.Lib.Recency

/-!
# What a change leaves alone

Operations on one key rewrite shared structures: the recency list, the vector of volatile keys with
the index of another key, the memory counter. `Mutation.frame` says that a permitted change leaves
the value, the deadline and the accounted memory of every other key alone, and `Mutation.disturbs`
that it keeps the other keys in their order of recency.
-/

namespace FlashKV

/-- What an entry holds besides its places in the shared structures. -/
structure Holding where
  value : Value
  expiresAtMs : Int
  memory : Nat
  deriving DecidableEq

def Entry.holding (entry : Entry) : Holding :=
  ⟨entry.value, entry.expiresAtMs, entry.memory⟩

namespace Database

/-- What is stored for a key. -/
def holding (db : Database) (key : Bytes) : Option Holding :=
  (db.data.lookup key).map Entry.holding

section Recency

variable {db : Database} {key : Bytes} {entry : Entry}

/-- The recency list holds the stored keys. -/
lemma Linked.mem_keysByRecency (h : db.Linked) :
    key ∈ db.keysByRecency ↔ ∃ entry, db.data.lookup key = some entry := by
  unfold keysByRecency
  rw [List.mem_map]
  constructor
  · rintro ⟨c, mem, rfl⟩
    obtain ⟨entry, present, _⟩ := Option.map_eq_some_iff.mp ((h.mem_lru c).mp mem)
    exact ⟨entry, present⟩
  · rintro ⟨entry, present⟩
    exact ⟨⟨entry.lruPosition, key⟩, (h.mem_lru _).mpr (by simp [position, present]), rfl⟩

/-- A key's iterator denotes its cell. -/
lemma Linked.cell_iff (h : db.Linked) (present : db.data.lookup key = some entry) {c : LruCell}
    (mem : c ∈ db.lru) : c.cell = entry.lruPosition ↔ c.key = key := by
  have self : ⟨entry.lruPosition, key⟩ ∈ db.lru := (h.mem_lru _).mpr (by simp [position, present])
  constructor
  · intro e
    rw [List.inj_on_of_nodup_map h.cells_nodup mem self e]
  · intro e
    rw [h.cell_unique mem self e]

lemma Linked.filter_cells (h : db.Linked) (present : db.data.lookup key = some entry) :
    (db.lru.filter (·.cell ≠ entry.lruPosition)).map (·.key) =
      db.keysByRecency.filter (· ≠ key) := by
  rw [keysByRecency, List.filter_map]
  refine congrArg _ (List.filter_congr fun c mem => ?_)
  simp [h.cell_iff present mem]

/-- An erased key leaves the list. -/
lemma Linked.keysByRecency_erase (h : db.Linked) (present : db.data.lookup key = some entry) :
    (db.erase key).keysByRecency = db.keysByRecency.filter (· ≠ key) := by
  rw [keysByRecency, lru_erase present, h.filter_cells present]

/-- A touched key moves to the front. -/
lemma Linked.keysByRecency_touch (h : db.Linked) (present : db.data.lookup key = some entry) :
    (db.touch key).keysByRecency = db.keysByRecency.toFront key := by
  have self : ⟨entry.lruPosition, key⟩ ∈ db.lru := (h.mem_lru _).mpr (by simp [position, present])
  have cells : db.lru.filter (·.cell = entry.lruPosition) = [⟨entry.lruPosition, key⟩] := by
    have same : db.lru.filter (·.cell = entry.lruPosition) =
        db.lru.filter (· = ⟨entry.lruPosition, key⟩) := by
      refine List.filter_congr fun c mem => decide_eq_decide.mpr ?_
      rw [h.cell_iff present mem]
      exact ⟨fun e => h.cell_unique mem self e, fun e => by rw [e]⟩
    have once := List.count_eq_one_of_mem (List.Nodup.of_map _ h.cells_nodup) self
    rw [same, List.filter_eq, once]
    rfl
  unfold Database.touch
  rw [present, keysByRecency]
  dsimp only
  rw [List.map_append, cells, h.filter_cells present]
  rfl

/-- A created key enters in front. -/
lemma Linked.keysByRecency_create (h : db.Linked) (value : Value)
    (absent : db.data.lookup key = none) :
    (db.create key value).keysByRecency = db.keysByRecency.toFront key := by
  refine (List.toFront_of_notMem fun mem => ?_).symm
  obtain ⟨entry, present⟩ := h.mem_keysByRecency.mp mem
  rw [absent] at present
  cases present

/-- An absent key cannot be touched. -/
lemma touch_of_absent (absent : db.data.lookup key = none) : db.touch key = db := by
  unfold Database.touch
  rw [absent]

end Recency

section Frame

variable {db : Database} {key a : Bytes}

/-- Entries that agree up to their place in `volatileKeys` hold the same. -/
lemma holding_congr {db' : Database}
    (h : (db'.data.lookup a).map (fun e => { e with volatileIndex := none }) =
      (db.data.lookup a).map (fun e => { e with volatileIndex := none })) :
    db'.holding a = db.holding a := by
  have h := congrArg (Option.map Entry.holding) h
  rw [Option.map_map, Option.map_map] at h
  exact h

lemma exists_of_holding {db' : Database} {entry : Entry} (same : db'.holding key = db.holding key)
    (present : db'.data.lookup key = some entry) :
    ∃ old, db.data.lookup key = some old ∧ old.value = entry.value ∧
      old.expiresAtMs = entry.expiresAtMs := by
  rw [holding, present] at same
  obtain ⟨old, found, e⟩ := Option.map_eq_some_iff.mp same.symm
  exact ⟨old, found, congrArg Holding.value e, congrArg Holding.expiresAtMs e⟩

/-- Where a deadline comes from: it is set by the change, or the key had it before. -/
lemma Mutation.deadline_of {p : Permits} {db' : Database} {entry : Entry} (m : Mutation p db db')
    (present : db'.data.lookup a = some entry) :
    entry.expiresAtMs = noExpiry ∨ p.deadline entry.expiresAtMs ∨
      ∃ old, db.data.lookup a = some old ∧ old.expiresAtMs = entry.expiresAtMs := by
  have same : db'.holding a = db.holding a → entry.expiresAtMs = noExpiry ∨
      p.deadline entry.expiresAtMs ∨
      ∃ old, db.data.lookup a = some old ∧ old.expiresAtMs = entry.expiresAtMs := by
    intro e
    obtain ⟨old, found, _, expires⟩ := exists_of_holding e present
    exact .inr (.inr ⟨old, found, expires⟩)
  cases m with
  | create value absent _ _ =>
    rw [lookup_create] at present
    split at present
    · rw [newEntry_of_absent absent] at present
      cases present
      exact .inl rfl
    · exact .inr (.inr ⟨entry, present, rfl⟩)
  | @erase erased _ _ _ =>
    by_cases e : a = erased
    · subst e
      rw [lookup_erase_self] at present
      cases present
    · exact same (holding_congr (lookup_erase_of_ne e))
  | touch =>
    rw [data_touch] at present
    exact .inr (.inr ⟨entry, present, rfl⟩)
  | @setExpiry changed old deadline found _ may =>
    by_cases e : a = changed
    · subst e
      have expires : entry.expiresAtMs = deadline := by
        unfold Database.setExpiry at present
        rw [found] at present
        dsimp only at present
        split at present
        · rw [lookup_update, if_pos rfl, found] at present
          cases present
          rfl
        · rw [lookup_update, if_pos rfl, found] at present
          cases present
          rfl
      rw [expires]
      exact .inr (.inl may)
    · rw [lookup_setExpiry _ e] at present
      exact .inr (.inr ⟨entry, present, rfl⟩)
  | @clearExpiry changed old found _ =>
    by_cases e : a = changed
    · subst e
      rw [lookup_clearExpiry_self found] at present
      cases present
      exact .inl rfl
    · exact same (holding_congr (lookup_clearExpiry_of_ne e))
  | @rewrite changed old _ _ _ found _ _ _ _ =>
    simp only [Database.rewrite, found, AList.lookup_insert_ite] at present
    split at present
    · rename_i e
      subst e
      cases present
      exact .inr (.inr ⟨old, found, rfl⟩)
    · exact .inr (.inr ⟨entry, present, rfl⟩)
  | count | settings => exact .inr (.inr ⟨entry, present, rfl⟩)
  | clear => cases present

/-- A permitted change leaves the other keys alone. -/
lemma Mutation.frame {p : Permits} {db' : Database} (m : Mutation p db db') (keeps : ¬ p.evict)
    (kept : ¬ p.clear) (other : ¬ p.key a) : db'.holding a = db.holding a := by
  have ne : ∀ {key}, p.key key → a ≠ key := fun may e => other (e ▸ may)
  cases m with
  | create value absent may _ => rw [holding, holding, lookup_create, if_neg (ne may)]
  | erase present may =>
    rcases may with may | evict
    · exact holding_congr (lookup_erase_of_ne (ne may))
    · exact absurd evict keeps
  | touch => rw [holding, holding, data_touch]
  | setExpiry present may _ => rw [holding, holding, lookup_setExpiry _ (ne may)]
  | clearExpiry present may => exact holding_congr (lookup_clearExpiry_of_ne (ne may))
  | rewrite present may _ _ _ =>
    simp only [Database.rewrite, present, holding, AList.lookup_insert_ne (ne may)]
  | count | settings => rfl
  | clear may => exact absurd may kept

/-- A permitted change keeps the order of the other keys. -/
lemma Mutation.disturbs {p : Permits} {K : Bytes → Prop} [DecidablePred K]
    (keys : ∀ key, p.key key → K key) {db' : Database} (linked : db.Linked) (m : Mutation p db db')
    (keeps : ¬ p.evict) (kept : ¬ p.clear) :
    List.Disturbs K db.keysByRecency db'.keysByRecency := by
  have same : ∀ {db'' : Database}, db''.lru = db.lru →
      List.Disturbs K db.keysByRecency db''.keysByRecency := by
    intro db'' lru
    have keys : db''.keysByRecency = db.keysByRecency := congrArg (List.map _) lru
    rw [keys]
    exact .refl _
  cases m with
  | create value absent may _ =>
    rw [linked.keysByRecency_create value absent]
    exact .toFront (keys _ may) _
  | erase present may =>
    rcases may with may | evict
    · rw [linked.keysByRecency_erase present]
      exact .drop (keys _ may) _
    · exact absurd evict keeps
  | @touch key may =>
    cases found : db.data.lookup key with
    | none =>
      rw [touch_of_absent found]
      exact .refl _
    | some entry =>
      rw [linked.keysByRecency_touch found]
      exact .toFront (keys _ may) _
  | setExpiry present may _ =>
    refine same ?_
    unfold Database.setExpiry
    rw [present]
    dsimp only
    split <;> exact lru_update _
  | clearExpiry present may => exact same lru_clearExpiry
  | rewrite present may _ _ _ =>
    refine same ?_
    simp only [Database.rewrite, present]
  | count | settings => exact .refl _
  | clear may => exact absurd may kept

/-- So does a sequence of them. -/
lemma Mutations.disturbs {p : Permits} {K : Bytes → Prop} [DecidablePred K]
    (keys : ∀ key, p.key key → K key) {db' : Database} (linked : db.Linked)
    (steps : Mutations p db db') (keeps : ¬ p.evict) (kept : ¬ p.clear) :
    List.Disturbs K db.keysByRecency db'.keysByRecency := by
  have both : db'.Linked ∧ List.Disturbs K db.keysByRecency db'.keysByRecency := by
    refine steps.preserves (I := fun db' => db'.Linked ∧
      List.Disturbs K db.keysByRecency db'.keysByRecency) ?_ ⟨linked, .refl _⟩
    rintro db₁ db₂ m ⟨linked, disturbs⟩
    exact ⟨linked.mutation m, disturbs.trans (m.disturbs keys linked keeps kept)⟩
  exact both.2

lemma Mutations.frame {p : Permits} {db' : Database} (steps : Mutations p db db')
    (keeps : ¬ p.evict) (kept : ¬ p.clear) (other : ¬ p.key a) : db'.holding a = db.holding a :=
  steps.preserves (I := fun db' => db'.holding a = db.holding a)
    (fun _ _ m same => (m.frame keeps kept other).trans same) rfl

end Frame

end Database

end FlashKV
