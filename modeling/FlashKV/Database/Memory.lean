import FlashKV.Database.Reachable

/-!
# Exact memory accounting

The memory counters are adjusted by deltas, at every site that changes a value. In every reachable
state they equal what a recomputation from the stored data gives, so no subtraction from them wraps.
-/

namespace FlashKV

namespace Database

/-- The accounted size of an entry, recomputed from its key and value. -/
def entryMemory (key : Bytes) (value : Value) : Nat :=
  entryOverhead + key.length + payloadMemory value

/-- The sum of the entries' memory fields. -/
def totalMemory (db : Database) : Nat :=
  db.data.sumBy fun _ entry => entry.memory

/-- The counters agree with the stored data, and no subtraction has wrapped. -/
structure Accounted (db : Database) : Prop where
  entry : ∀ key entry, db.data.lookup key = some entry → entry.memory = entryMemory key entry.value
  total : db.memoryUsed = db.totalMemory
  underflows : db.underflows = 0

/-- What exact accounting means for the users of the database. -/
structure ExactAccounting (db : Database) : Prop where
  /-- Each entry's memory field equals its size recomputed from scratch. -/
  entry : ∀ key entry, db.data.lookup key = some entry →
    entry.memory = entryOverhead + key.length + payloadMemory entry.value
  /-- Used memory is the sum of the entries' memory fields. -/
  total : db.memoryUsed = db.data.sumBy fun _ entry => entry.memory
  /-- No subtraction from a counter has wrapped. -/
  noUnderflow : db.underflows = 0
  /-- Used memory is zero exactly for the empty database. -/
  zero : db.memoryUsed = 0 ↔ db.data = ∅
  /-- `MEMORY USAGE` of a live key depends on the key and its value only. -/
  usage : ∀ key now info, db.inspect key now = some info →
    info.memory = entryOverhead + key.length + payloadMemory info.value

/-- An empty sum of entry sizes has no entries. -/
lemma data_eq_empty_of_total {db : Database} (h : db.Accounted) (zero : db.totalMemory = 0) :
    db.data = ∅ := by
  apply AList.ext
  rw [AList.empty_entries, List.eq_nil_iff_forall_not_mem]
  rintro ⟨key, entry⟩ mem
  have present : db.data.lookup key = some entry := AList.mem_lookup_iff.mpr mem
  have le := AList.le_sumBy (fun _ entry => entry.memory) present
  have e := h.entry key entry present
  unfold totalMemory at zero
  simp only [entryMemory, entryOverhead] at e
  omega

lemma Accounted.exact {db : Database} (h : db.Accounted) : db.ExactAccounting where
  entry := h.entry
  total := h.total
  noUnderflow := h.underflows
  zero := by
    rw [h.total]
    constructor
    · exact data_eq_empty_of_total h
    · intro e
      rw [totalMemory, e, AList.sumBy_empty]
  usage := by
    intro key now info found
    unfold inspect at found
    split at found
    · cases found
    · rename_i entry present
      dsimp only at found
      split at found
      · cases found
        exact h.entry key entry present
      · split at found
        · cases found
        · cases found
          exact h.entry key entry present

section Accounted

variable {db : Database} {key : Bytes} {entry : Entry}

/-- An update that keeps the memory field keeps the total. -/
lemma totalMemory_update {f : Entry → Entry} (keep : ∀ e, (f e).memory = e.memory) :
    (db.update key f).totalMemory = db.totalMemory := by
  cases h : db.data.lookup key with
  | none => simp only [update, h]
  | some entry =>
    simp only [update, h, totalMemory]
    rw [AList.sumBy_insert, AList.sumBy_erase _ h, keep]

lemma Accounted.update (h : db.Accounted) {f : Entry → Entry}
    (keep : ∀ e, (f e).memory = e.memory ∧ (f e).value = e.value) : (db.update key f).Accounted where
  entry := by
    intro a entry present
    rw [lookup_update] at present
    split at present
    · rename_i e
      subst e
      obtain ⟨entry', present', rfl⟩ := Option.map_eq_some_iff.mp present
      rw [(keep entry').1, (keep entry').2]
      exact h.entry a entry' present'
    · exact h.entry a entry present
  total := by
    rw [totalMemory_update fun e => (keep e).1, ← h.total]
    unfold Database.update
    split <;> rfl
  underflows := by
    rw [← h.underflows]
    unfold Database.update
    split <;> rfl

lemma Accounted.clearExpiry (h : db.Accounted) (key : Bytes) : (db.clearExpiry key).Accounted := by
  unfold Database.clearExpiry
  split
  · exact h
  · split
    · refine Accounted.update (Accounted.update ?_ ?_) ?_
      · exact ⟨h.entry, h.total, h.underflows⟩
      · exact fun _ => ⟨rfl, rfl⟩
      · exact fun _ => ⟨rfl, rfl⟩
    · exact h.update fun _ => ⟨rfl, rfl⟩

lemma Accounted.setExpiry (h : db.Accounted) (key : Bytes) (deadline : Int) :
    (db.setExpiry key deadline).Accounted := by
  unfold Database.setExpiry
  split
  · exact h
  · split
    · refine Accounted.update ?_ ?_
      · exact ⟨h.entry, h.total, h.underflows⟩
      · exact fun _ => ⟨rfl, rfl⟩
    · exact h.update fun _ => ⟨rfl, rfl⟩

lemma Accounted.create (h : db.Accounted) (value : Value) (absent : db.data.lookup key = none) :
    (db.create key value).Accounted where
  entry := by
    intro a entry present
    rw [lookup_create] at present
    split at present
    · rename_i e
      subst e
      rw [newEntry_of_absent absent] at present
      cases present
      rfl
    · exact h.entry a entry present
  total := by
    have e : (db.create key value).totalMemory = entryMemory key value + db.totalMemory := by
      simp only [totalMemory, Database.create, AList.sumBy_insert, AList.sumBy_erase_absent _ absent]
      rfl
    rw [e, ← h.total]
    exact Nat.add_comm _ _
  underflows := h.underflows

/-- A present key accounts for no more than the whole. -/
lemma Accounted.entry_le (h : db.Accounted) (present : db.data.lookup key = some entry) :
    entry.memory ≤ db.memoryUsed := by
  rw [h.total]
  exact AList.le_sumBy (fun _ entry => entry.memory) present

lemma Accounted.erase (h : db.Accounted) (present : db.data.lookup key = some entry) :
    (db.erase key).Accounted := by
  have h' := h.clearExpiry key
  have self := lookup_clearExpiry_self present
  have le := h'.entry_le self
  constructor
  · intro a entry' present'
    rw [data_erase, AList.lookup_erase_ite] at present'
    split at present'
    · cases present'
    · exact h'.entry a entry' present'
  · have split_ := AList.sumBy_erase (fun _ entry => entry.memory) self
    have total := h'.total
    unfold totalMemory at total
    simp only [Database.erase, self, totalMemory]
    rw [subSize_of_le le, total, split_]
    exact Nat.add_sub_cancel_left _ _
  · simp only [Database.erase, self, wraps, le, if_true]
    exact h'.underflows

lemma Accounted.touch (h : db.Accounted) (key : Bytes) : (db.touch key).Accounted := by
  unfold Database.touch
  split
  · exact h
  · exact ⟨h.entry, h.total, h.underflows⟩

/-- A rewriting that adds and removes what the value's size changes by is accounted exactly. -/
lemma Accounted.rewrite (h : db.Accounted) {value : Value} {freed added : Nat}
    (present : db.data.lookup key = some entry) (le : freed ≤ payloadMemory entry.value)
    (exact_ : payloadMemory value + freed = payloadMemory entry.value + added) :
    (db.rewrite key value freed added).Accounted := by
  have self := h.entry key entry present
  have le' : freed ≤ entry.memory := by
    rw [self, entryMemory]
    omega
  have le'' : freed ≤ db.memoryUsed := le'.trans (h.entry_le present)
  constructor
  · intro a entry' present'
    simp only [Database.rewrite, present, AList.lookup_insert_ite] at present'
    split at present'
    · rename_i e
      subst e
      cases present'
      simp only [subSize_of_le le', entryMemory]
      rw [entryMemory] at self
      omega
    · exact h.entry a entry' present'
  · have split_ := AList.sumBy_erase (fun _ entry => entry.memory) present
    have total := h.total
    unfold totalMemory at total
    simp only [Database.rewrite, present, totalMemory, AList.sumBy_insert]
    rw [subSize_of_le le', subSize_of_le le'']
    omega
  · simp only [Database.rewrite, present, wraps, le', le'', if_true]
    exact h.underflows

/-- Every change keeps the accounting exact. -/
lemma Accounted.mutation {p : Permits} {db db' : Database} (m : Mutation p db db')
    (h : db.Accounted) : db'.Accounted := by
  cases m with
  | create value absent _ _ => exact h.create value absent
  | erase present _ => exact h.erase present
  | touch _ => exact h.touch _
  | setExpiry _ _ _ => exact h.setExpiry _ _
  | clearExpiry _ _ => exact h.clearExpiry _
  | rewrite present _ le exact_ _ => exact h.rewrite present le exact_
  | count f => exact ⟨h.entry, h.total, h.underflows⟩
  | settings bytes policy _ => exact ⟨h.entry, h.total, h.underflows⟩
  | clear => exact ⟨(fun _ _ present => by cases present), rfl, h.underflows⟩

lemma memoryUsed_update (f : Entry → Entry) : (db.update key f).memoryUsed = db.memoryUsed := by
  unfold Database.update
  split <;> rfl

lemma memoryUsed_clearExpiry : (db.clearExpiry key).memoryUsed = db.memoryUsed := by
  unfold Database.clearExpiry
  split
  · rfl
  · split
    · rw [memoryUsed_update, memoryUsed_update]
    · rw [memoryUsed_update]

/-- A change that makes no value grow does not raise the memory use. -/
lemma Accounted.memoryUsed_le {p : Permits} (shrinks : ¬ p.grow) {db db' : Database}
    (h : db.Accounted) (m : Mutation p db db') : db'.memoryUsed ≤ db.memoryUsed := by
  cases m with
  | create value absent _ grow => exact absurd grow shrinks
  | erase present _ =>
    have self := lookup_clearExpiry_self present
    have le := (h.clearExpiry _).entry_le self
    simp only [Database.erase, self]
    rw [subSize_of_le le, memoryUsed_clearExpiry]
    exact Nat.sub_le _ _
  | touch =>
    unfold Database.touch
    split <;> exact le_rfl
  | setExpiry present _ _ =>
    unfold Database.setExpiry
    rw [present]
    dsimp only
    split <;> rw [memoryUsed_update]
  | clearExpiry => rw [memoryUsed_clearExpiry]
  | @rewrite key entry value freed added present _ le _ grow =>
    have self := h.entry key entry present
    have le' : freed ≤ entry.memory := by
      rw [self, entryMemory]
      omega
    simp only [Database.rewrite, present]
    rw [subSize_of_le (le'.trans (h.entry_le present)), grow.resolve_left shrinks, Nat.add_zero]
    exact Nat.sub_le _ _
  | count | settings => exact le_rfl
  | clear => exact Nat.zero_le _

/-- So does a sequence of them. -/
lemma Accounted.memoryUsed_mutations_le {p : Permits} (shrinks : ¬ p.grow) {db db' : Database}
    (h : db.Accounted) (steps : Mutations p db db') : db'.memoryUsed ≤ db.memoryUsed := by
  have both : db'.Accounted ∧ db'.memoryUsed ≤ db.memoryUsed := by
    refine steps.preserves (I := fun db' => db'.Accounted ∧ db'.memoryUsed ≤ db.memoryUsed) ?_
      ⟨h, le_rfl⟩
    rintro db₁ db₂ m ⟨h, le⟩
    exact ⟨h.mutation m, (h.memoryUsed_le shrinks m).trans le⟩
  exact both.2

end Accounted

lemma accounted_empty : ({} : Database).Accounted :=
  ⟨(fun _ _ present => by cases present), rfl, rfl⟩

end Database

open Database

/-- Exact accounting in every reachable database: after any sequence of public operations, whether
they return or throw, the memory counters equal what a recomputation from the stored data gives. -/
theorem run_exactAccounting (ops : List Op) (values : ∀ op ∈ ops, op.NonemptyValues) :
    (Op.run ops).ExactAccounting := by
  apply Accounted.exact
  apply Op.run_induction Op.NonemptyValues accounted_empty _ ops values
  intro op db db' _ m h
  exact h.mutation m

/-- A run that overwrites a hash field, pops a list to the end and throws once. -/
theorem run_exactAccounting_overwritten :
    (Op.run [.hashSet [104] [([102], [1, 2, 3]), ([102], [])] 5, .listPush [108] [[1]] .right 5,
      .listPop [108] .left 6, .incrementBy [104] 1 6]).ExactAccounting := by
  apply run_exactAccounting
  simp [Op.NonemptyValues]

end FlashKV
