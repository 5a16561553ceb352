import FlashKV.Database.Reachable

/-!
# Index consistency

The hash table, the recency list with its stored iterators and the vector of volatile keys with its
stored indices describe the same keys in every reachable state. The invariant is kept in two parts,
each a single equivalence between a list and what the entries store: `Linked` for the recency list,
`Indexed` for the volatile keys. `IndexConsistent` spells out what they imply.
-/

namespace FlashKV

namespace Database

/-- The recency-list iterator stored for a key. -/
def position (db : Database) (key : Bytes) : Option Nat :=
  (db.data.lookup key).map (·.lruPosition)

/-- The position in `volatileKeys` stored for a key. -/
def volatileIndexOf (db : Database) (key : Bytes) : Option Nat :=
  (db.data.lookup key).bind (·.volatileIndex)

/-- The recency list holds exactly the cells that the entries point to. -/
structure Linked (db : Database) : Prop where
  mem_lru : ∀ c, c ∈ db.lru ↔ db.position c.key = some c.cell
  cells_nodup : (db.lru.map (·.cell)).Nodup
  fresh : ∀ c ∈ db.lru, c.cell < db.nextCell

/-- The vector of volatile keys holds exactly the keys that point into it, and these are the keys
with a deadline. -/
structure Indexed (db : Database) : Prop where
  getElem? : ∀ i key, db.volatileKeys[i]? = some key ↔ db.volatileIndexOf key = some i
  deadline : ∀ key entry, db.data.lookup key = some entry →
    (entry.volatileIndex = none ↔ entry.expiresAtMs = noExpiry)

/-- Index consistency: the recency list and the vector of volatile keys agree with the entries. -/
structure IndexConsistent (db : Database) : Prop where
  /-- The recency list contains every key once. -/
  lru_nodup : (db.lru.map (·.key)).Nodup
  /-- The recency list contains the keys of the table and nothing else. -/
  mem_lru : ∀ key, key ∈ db.lru.map (·.key) ↔ key ∈ db.data
  /-- No two cells of the recency list are confused by their iterators. -/
  cells_nodup : (db.lru.map (·.cell)).Nodup
  /-- An entry's iterator denotes its own place in the recency list. -/
  lruPosition : ∀ key entry, db.data.lookup key = some entry → ⟨entry.lruPosition, key⟩ ∈ db.lru
  /-- The vector of volatile keys contains every key at most once. -/
  volatile_nodup : db.volatileKeys.Nodup
  /-- The vector of volatile keys contains the keys with a deadline and nothing else. -/
  mem_volatile : ∀ key, key ∈ db.volatileKeys ↔
    ∃ entry, db.data.lookup key = some entry ∧ entry.expiresAtMs ≠ noExpiry
  /-- The index of a key with a deadline is its position in the vector. -/
  volatileIndex : ∀ key entry, db.data.lookup key = some entry → entry.expiresAtMs ≠ noExpiry →
    ∃ i, entry.volatileIndex = some i ∧ db.volatileKeys[i]? = some key
  /-- Exactly the keys without a deadline are marked as not volatile. -/
  notVolatile : ∀ key entry, db.data.lookup key = some entry →
    (entry.volatileIndex = none ↔ entry.expiresAtMs = noExpiry)

/-- Cells of the recency list with the same key are the same cell. -/
lemma Linked.cell_unique {db : Database} (h : db.Linked) {c c' : LruCell} (hc : c ∈ db.lru)
    (hc' : c' ∈ db.lru) (e : c.key = c'.key) : c = c' := by
  have p := (h.mem_lru c).mp hc
  have p' := (h.mem_lru c').mp hc'
  rw [e, p', Option.some.injEq] at p
  cases c
  cases c'
  simp_all

/-- The recency list contains every key at most once. -/
lemma Linked.nodup {db : Database} (h : db.Linked) : (db.lru.map (·.key)).Nodup := by
  have nd := List.Nodup.of_map _ h.cells_nodup
  apply List.Nodup.map_on _ nd
  intro c hc c' hc' e
  exact h.cell_unique hc hc' e

/-- Positions of the vector with the same key are the same position. -/
lemma Indexed.nodup {db : Database} (h : db.Indexed) : db.volatileKeys.Nodup := by
  rw [List.nodup_iff_injective_get]
  rintro ⟨i, hi⟩ ⟨j, hj⟩ e
  simp only [List.get_eq_getElem] at e
  have h₁ := (h.getElem? i _).mp (List.getElem?_eq_getElem hi)
  have h₂ := (h.getElem? j _).mp (List.getElem?_eq_getElem hj)
  rw [e, h₂, Option.some.injEq] at h₁
  exact Fin.ext h₁.symm

/-- The two parts of the invariant give index consistency. -/
lemma indexConsistent_of {db : Database} (linked : db.Linked) (indexed : db.Indexed) :
    db.IndexConsistent where
  lru_nodup := linked.nodup
  mem_lru := by
    intro key
    rw [List.mem_map, AList.mem_iff_lookup]
    constructor
    · rintro ⟨c, hc, rfl⟩
      have h := (linked.mem_lru c).mp hc
      unfold position at h
      obtain ⟨entry, h, _⟩ := Option.map_eq_some_iff.mp h
      exact ⟨entry, h⟩
    · rintro ⟨entry, h⟩
      refine ⟨⟨entry.lruPosition, key⟩, ?_, rfl⟩
      rw [linked.mem_lru]
      simp [position, h]
  cells_nodup := linked.cells_nodup
  lruPosition := by
    intro key entry h
    rw [linked.mem_lru]
    simp [position, h]
  volatile_nodup := indexed.nodup
  mem_volatile := by
    intro key
    rw [List.mem_iff_getElem?]
    constructor
    · rintro ⟨i, hi⟩
      have h := (indexed.getElem? i key).mp hi
      unfold volatileIndexOf at h
      obtain ⟨entry, h, hv⟩ := Option.bind_eq_some_iff.mp h
      refine ⟨entry, h, fun e => ?_⟩
      rw [(indexed.deadline key entry h).mpr e] at hv
      cases hv
    · rintro ⟨entry, h, ne⟩
      rw [ne_eq, ← indexed.deadline key entry h, ← ne_eq, Option.ne_none_iff_exists'] at ne
      obtain ⟨i, hi⟩ := ne
      exact ⟨i, (indexed.getElem? i key).mpr (by simp [volatileIndexOf, h, hi])⟩
  volatileIndex := by
    intro key entry h ne
    rw [ne_eq, ← indexed.deadline key entry h, ← ne_eq, Option.ne_none_iff_exists'] at ne
    obtain ⟨i, hi⟩ := ne
    exact ⟨i, hi, (indexed.getElem? i key).mpr (by simp [volatileIndexOf, h, hi])⟩
  notVolatile := indexed.deadline

section Linked

variable {db : Database} {key : Bytes} {entry : Entry}

/-- The recency part only depends on the stored iterators and the list. -/
lemma Linked.congr {db' : Database} (h : db.Linked) (pos : db'.position = db.position)
    (lru : db'.lru = db.lru) (next : db'.nextCell = db.nextCell) : db'.Linked where
  mem_lru := by
    intro c
    rw [lru, pos, h.mem_lru]
  cells_nodup := by
    rw [lru]
    exact h.cells_nodup
  fresh := by
    rw [lru, next]
    exact h.fresh

lemma position_update {f : Entry → Entry} (keep : ∀ e, (f e).lruPosition = e.lruPosition) :
    (db.update key f).position = db.position := by
  funext a
  unfold position
  rw [lookup_update]
  split
  · rename_i e
    rw [e, Option.map_map]
    exact Option.map_congr fun e _ => keep e
  · rfl

lemma lru_update (f : Entry → Entry) : (db.update key f).lru = db.lru := by
  unfold update
  split <;> rfl

lemma nextCell_update (f : Entry → Entry) : (db.update key f).nextCell = db.nextCell := by
  unfold update
  split <;> rfl

lemma position_clearExpiry : (db.clearExpiry key).position = db.position := by
  unfold clearExpiry
  split
  · rfl
  · split
    · refine (position_update ?_).trans (position_update ?_) <;> exact fun _ => rfl
    · exact position_update fun _ => rfl

lemma lru_clearExpiry : (db.clearExpiry key).lru = db.lru := by
  unfold clearExpiry
  split
  · rfl
  · split
    · rw [lru_update, lru_update]
    · rw [lru_update]

lemma nextCell_clearExpiry : (db.clearExpiry key).nextCell = db.nextCell := by
  unfold clearExpiry
  split
  · rfl
  · split
    · rw [nextCell_update, nextCell_update]
    · rw [nextCell_update]

lemma Linked.clearExpiry (h : db.Linked) (key : Bytes) : (db.clearExpiry key).Linked :=
  h.congr position_clearExpiry lru_clearExpiry nextCell_clearExpiry

lemma Linked.setExpiry (h : db.Linked) (key : Bytes) (deadline : Int) :
    (db.setExpiry key deadline).Linked := by
  unfold Database.setExpiry
  split
  · exact h
  · split
    · refine h.congr ?_ (lru_update _) (nextCell_update _)
      exact position_update fun _ => rfl
    · exact h.congr (position_update fun _ => rfl) (lru_update _) (nextCell_update _)

lemma Linked.create (h : db.Linked) (value : Value) (absent : db.data.lookup key = none) :
    (db.create key value).Linked where
  mem_lru := by
    intro c
    unfold position
    rw [lookup_create]
    show c ∈ (⟨db.nextCell, key⟩ :: db.lru : List LruCell) ↔ _
    rw [List.mem_cons, h.mem_lru, position]
    split
    · rename_i e
      subst e
      rw [absent, newEntry_of_absent absent]
      simp only [Option.map_none, reduceCtorEq, or_false, Option.map_some, Option.some.injEq]
      constructor
      · intro hc
        rw [hc]
      · rintro hc
        rw [hc]
    · rename_i ne
      constructor
      · rintro (rfl | h)
        · exact absurd rfl ne
        · exact h
      · exact .inr
  cells_nodup := by
    show ((⟨db.nextCell, key⟩ :: db.lru : List LruCell).map (·.cell)).Nodup
    rw [List.map_cons, List.nodup_cons]
    refine ⟨fun mem => ?_, h.cells_nodup⟩
    obtain ⟨c, hc, e⟩ := List.mem_map.mp mem
    have lt := h.fresh c hc
    rw [e] at lt
    exact Nat.lt_irrefl _ lt
  fresh := by
    intro c hc
    change c ∈ (⟨db.nextCell, key⟩ :: db.lru : List LruCell) at hc
    show c.cell < db.nextCell + 1
    rcases List.mem_cons.mp hc with rfl | hc
    · exact Nat.lt_succ_self _
    · exact Nat.lt_succ_of_lt (h.fresh c hc)

/-- What an erasure leaves of the recency list. -/
lemma lru_erase (present : db.data.lookup key = some entry) :
    (db.erase key).lru = db.lru.filter (·.cell ≠ entry.lruPosition) := by
  simp only [Database.erase, lookup_clearExpiry_self present, lru_clearExpiry]

lemma nextCell_erase (present : db.data.lookup key = some entry) :
    (db.erase key).nextCell = db.nextCell := by
  simp only [Database.erase, lookup_clearExpiry_self present, nextCell_clearExpiry]

lemma position_erase (a : Bytes) :
    (db.erase key).position a = if a = key then none else db.position a := by
  unfold position
  rw [data_erase, AList.lookup_erase_ite]
  split
  · rfl
  · exact congrFun position_clearExpiry a

lemma Linked.erase (h : db.Linked) (present : db.data.lookup key = some entry) :
    (db.erase key).Linked where
  mem_lru := by
    intro c
    rw [lru_erase present, List.mem_filter, position_erase, h.mem_lru]
    have self : db.position key = some entry.lruPosition := by simp [position, present]
    split
    · rename_i e
      rw [e, self, Option.some.injEq]
      simp only [decide_eq_true_eq, reduceCtorEq, iff_false, not_and, not_not, ne_eq]
      exact Eq.symm
    · rename_i ne
      constructor
      · exact fun h => h.1
      · intro hc
        refine ⟨hc, decide_eq_true fun e => ne ?_⟩
        -- two cells with one iterator are the same cell, so they have the same key
        have mem := (h.mem_lru c).mpr hc
        have mem' := (h.mem_lru ⟨entry.lruPosition, key⟩).mpr self
        have := List.inj_on_of_nodup_map h.cells_nodup mem mem' e
        rw [this]
  cells_nodup := by
    rw [lru_erase present]
    exact h.cells_nodup.sublist (List.filter_sublist.map _)
  fresh := by
    intro c hc
    rw [lru_erase present] at hc
    rw [nextCell_erase present]
    exact h.fresh c (List.mem_filter.mp hc).1

/-- Touching a key permutes the recency list. -/
lemma lru_touch_perm (db : Database) (key : Bytes) : (db.touch key).lru.Perm db.lru := by
  unfold Database.touch
  split
  · exact .refl _
  · rename_i entry h
    have perm := List.filter_append_perm (fun c : LruCell => decide (c.cell = entry.lruPosition))
      db.lru
    simpa using perm

lemma Linked.touch (h : db.Linked) (key : Bytes) : (db.touch key).Linked := by
  have perm := lru_touch_perm db key
  have next : (db.touch key).nextCell = db.nextCell := by
    unfold Database.touch
    split <;> rfl
  constructor
  · intro c
    rw [perm.mem_iff, h.mem_lru, position, position, data_touch]
  · exact (perm.map _).nodup_iff.mpr h.cells_nodup
  · intro c hc
    rw [next]
    exact h.fresh c (perm.mem_iff.mp hc)

lemma Linked.rewrite (h : db.Linked) (key : Bytes) (value : Value) (freed added : Nat) :
    (db.rewrite key value freed added).Linked := by
  unfold Database.rewrite
  split
  · exact h
  · rename_i entry present
    refine h.congr ?_ rfl rfl
    funext a
    simp only [position, AList.lookup_insert_ite]
    split
    · rename_i e
      subst e
      simp [present]
    · rfl

/-- Every change keeps the recency part. -/
lemma Linked.mutation {p : Permits} {db db' : Database} (m : Mutation p db db')
    (h : db.Linked) : db'.Linked := by
  cases m with
  | create value absent _ _ => exact h.create value absent
  | erase present _ => exact h.erase present
  | touch _ => exact h.touch _
  | setExpiry _ _ _ => exact h.setExpiry _ _
  | clearExpiry _ _ => exact h.clearExpiry _
  | rewrite _ _ _ _ _ => exact h.rewrite _ _ _ _
  | count f => exact h.congr rfl rfl rfl
  | settings bytes policy _ => exact h.congr rfl rfl rfl
  | clear =>
    constructor
    · intro c
      simp [position]
    · exact List.nodup_nil
    · intro c hc
      cases hc

/-- The keys of the recency list satisfy `K`. -/
def LruKeys (K : Bytes → Prop) (db : Database) : Prop :=
  ∀ c ∈ db.lru, K c.key

/-- A key enters the recency list when it is created. -/
lemma LruKeys.mutation {p : Permits} {K : Bytes → Prop} (keys : ∀ key, p.key key → K key)
    {db db' : Database} (m : Mutation p db db') (h : db.LruKeys K) : db'.LruKeys K := by
  cases m with
  | create value absent may _ =>
    intro c mem
    rcases List.mem_cons.mp mem with rfl | mem
    · exact keys _ may
    · exact h c mem
  | erase present _ =>
    intro c mem
    rw [lru_erase present] at mem
    exact h c (List.mem_filter.mp mem).1
  | touch _ => exact fun c mem => h c ((lru_touch_perm db _).mem_iff.mp mem)
  | setExpiry =>
    intro c mem
    unfold Database.setExpiry at mem
    split at mem
    · exact h c mem
    · split at mem <;> rw [lru_update] at mem <;> exact h c mem
  | clearExpiry =>
    intro c mem
    rw [lru_clearExpiry] at mem
    exact h c mem
  | rewrite =>
    intro c mem
    unfold Database.rewrite at mem
    split at mem <;> exact h c mem
  | count | settings => exact h
  | clear => exact fun c mem => by cases mem

end Linked

section Indexed

variable {db : Database} {key : Bytes} {entry : Entry}

/-- The volatile part only depends on the vector and the entries' indices and deadlines. -/
lemma Indexed.congr {db' : Database} (h : db.Indexed)
    (data : ∀ a, (db'.data.lookup a).map (fun e => (e.volatileIndex, e.expiresAtMs)) =
      (db.data.lookup a).map (fun e => (e.volatileIndex, e.expiresAtMs)))
    (keys : db'.volatileKeys = db.volatileKeys) : db'.Indexed where
  getElem? := by
    intro i a
    have e := congrArg (fun o => Option.bind o Prod.fst) (data a)
    simp only [Option.bind_map] at e
    rw [keys, h.getElem?, volatileIndexOf, volatileIndexOf]
    exact Eq.congr_left e.symm
  deadline := by
    intro a entry present
    have e := data a
    rw [present, Option.map_some, eq_comm, Option.map_eq_some_iff] at e
    obtain ⟨entry', present', e⟩ := e
    have h := h.deadline a entry' present'
    rw [Prod.mk.injEq] at e
    rwa [e.1, e.2] at h

lemma Indexed.touch (h : db.Indexed) (key : Bytes) : (db.touch key).Indexed := by
  refine h.congr (fun a => by rw [data_touch]) ?_
  unfold Database.touch
  split <;> rfl

lemma Indexed.rewrite (h : db.Indexed) (key : Bytes) (value : Value) (freed added : Nat) :
    (db.rewrite key value freed added).Indexed := by
  unfold Database.rewrite
  split
  · exact h
  · rename_i entry present
    refine h.congr (fun a => ?_) rfl
    simp only [AList.lookup_insert_ite]
    split
    · rename_i e
      subst e
      simp [present]
    · rfl

lemma Indexed.create (h : db.Indexed) (value : Value) (absent : db.data.lookup key = none) :
    (db.create key value).Indexed where
  getElem? := by
    intro i a
    show db.volatileKeys[i]? = some a ↔ _
    rw [h.getElem?, volatileIndexOf, volatileIndexOf, lookup_create]
    split
    · rename_i e
      subst e
      simp [absent, newEntry_of_absent absent]
    · rfl
  deadline := by
    intro a entry present
    rw [lookup_create] at present
    split at present
    · rw [newEntry_of_absent absent] at present
      cases present
      simp
    · exact h.deadline a entry present

lemma volatileKeys_update (f : Entry → Entry) :
    (db.update key f).volatileKeys = db.volatileKeys := by
  unfold update
  split <;> rfl

lemma volatileIndexOf_update (f : Entry → Entry) (a : Bytes) :
    (db.update key f).volatileIndexOf a =
      if a = key then (db.data.lookup key).bind fun e => (f e).volatileIndex
      else db.volatileIndexOf a := by
  unfold volatileIndexOf
  rw [lookup_update]
  split
  · rw [Option.bind_map]
    rfl
  · rfl

/-- A key without a deadline is not in the vector. -/
lemma Indexed.not_mem (h : db.Indexed) (none_ : db.volatileIndexOf key = none) (i : Nat) :
    db.volatileKeys[i]? ≠ some key := by
  rw [ne_eq, h.getElem?, none_]
  simp

lemma Indexed.setExpiry (h : db.Indexed) {deadline : Int} (present : db.data.lookup key = some entry)
    (ne : deadline ≠ noExpiry) : (db.setExpiry key deadline).Indexed := by
  cases hv : entry.volatileIndex with
  | some index =>
    have e : db.setExpiry key deadline =
        db.update key fun entry => { entry with expiresAtMs := deadline } := by
      simp only [Database.setExpiry, present, hv]
    rw [e]
    constructor
    · intro i a
      rw [volatileKeys_update, volatileIndexOf_update, h.getElem?]
      split
      · rename_i e
        subst e
        simp [volatileIndexOf, present]
      · rfl
    · intro a entry' present'
      rw [lookup_update] at present'
      split at present'
      · rw [present, Option.map_some] at present'
        cases present'
        simp [hv, ne]
      · exact h.deadline a entry' present'
  | none =>
    have none_ : db.volatileIndexOf key = none := by simp [volatileIndexOf, present, hv]
    have e : db.setExpiry key deadline =
        ({ db with volatileKeys := db.volatileKeys ++ [key] } : Database).update key fun entry =>
          { entry with volatileIndex := some db.volatileKeys.length, expiresAtMs := deadline } := by
      simp only [Database.setExpiry, present, hv]
    rw [e]
    constructor
    · intro i a
      rw [volatileKeys_update, volatileIndexOf_update]
      show (db.volatileKeys ++ [key])[i]? = some a ↔
        (if a = key then (db.data.lookup key).bind fun e => some db.volatileKeys.length
          else db.volatileIndexOf a) = some i
      rw [present, Option.bind_some]
      rcases Nat.lt_trichotomy i db.volatileKeys.length with lt | eq | gt
      · -- an old position: its key is another one
        rw [List.getElem?_append_left lt]
        split
        · rename_i e
          subst e
          simp [h.not_mem none_, Nat.ne_of_gt lt]
        · exact h.getElem? i a
      · -- the new position
        subst eq
        rw [List.getElem?_concat_length, Option.some.injEq]
        split
        · rename_i e
          simp [e]
        · rename_i ne
          simp only [Ne.symm ne, false_iff]
          rw [← h.getElem?, List.getElem?_eq_none (Nat.le_refl _)]
          simp
      · rw [List.getElem?_eq_none (by simp; omega)]
        split
        · simp only [reduceCtorEq, Option.some.injEq, false_iff]
          omega
        · rw [← h.getElem?, List.getElem?_eq_none (by omega)]
    · intro a entry' present'
      rw [lookup_update] at present'
      split at present'
      · simp only [present, Option.map_some] at present'
        cases present'
        simp [ne]
      · exact h.deadline a entry' present'

/-- The state that clearing the expiry of a volatile key leads to. -/
lemma clearExpiry_of_volatile {index : Nat} {last : Bytes}
    (present : db.data.lookup key = some entry) (hv : entry.volatileIndex = some index)
    (hl : db.volatileKeys.getLast? = some last) :
    (db.clearExpiry key).volatileKeys = db.volatileKeys.swapPop index last ∧
      ∀ a, a ≠ key → (db.clearExpiry key).data.lookup a =
        if a = last then (db.data.lookup last).map fun e => { e with volatileIndex := some index }
        else db.data.lookup a := by
  simp only [Database.clearExpiry, present, hv, hl]
  refine ⟨by rw [volatileKeys_update, volatileKeys_update], fun a ne => ?_⟩
  rw [lookup_update, if_neg ne, lookup_update]

lemma Indexed.clearExpiry (h : db.Indexed) (present : db.data.lookup key = some entry) :
    (db.clearExpiry key).Indexed := by
  have self := lookup_clearExpiry_self present
  cases hv : entry.volatileIndex with
  | none =>
    -- nothing to clear: the entry is written back unchanged
    have he := (h.deadline key entry present).mp hv
    have e : db.clearExpiry key = db.update key fun entry =>
        { entry with volatileIndex := none, expiresAtMs := noExpiry } := by
      simp only [Database.clearExpiry, present, hv]
    rw [e]
    refine h.congr (fun a => ?_) (volatileKeys_update _)
    rw [lookup_update]
    split
    · rename_i e
      subst e
      simp [present, hv, he]
    · rfl
  | some index =>
    have hk : db.volatileKeys[index]? = some key :=
      (h.getElem? index key).mpr (by simp [volatileIndexOf, present, hv])
    obtain ⟨last, hl⟩ : ∃ last, db.volatileKeys.getLast? = some last := by
      rw [← Option.isSome_iff_exists, List.getLast?_isSome]
      exact List.ne_nil_of_mem (List.mem_of_getElem? hk)
    have hlast : db.volatileKeys[db.volatileKeys.length - 1]? = some last := by
      rw [← List.getLast?_eq_getElem?, hl]
    obtain ⟨keys, others⟩ := clearExpiry_of_volatile present hv hl
    have lastIndex := (h.getElem? _ last).mp hlast
    constructor
    · intro i a
      rw [keys]
      by_cases ak : a = key
      · -- the cleared key is gone from the vector
        subst ak
        have gone : (db.clearExpiry a).volatileIndexOf a = none := by
          simp [volatileIndexOf, self]
        rw [gone]
        simp only [reduceCtorEq, iff_false]
        intro hi
        have mem := (List.mem_swapPop h.nodup hk hl a).mp (List.mem_of_getElem? hi)
        exact mem.2 rfl
      · rw [volatileIndexOf, others a ak]
        by_cases al : a = last
        · -- the last key has moved to the freed position
          subst al
          obtain ⟨e, he, _⟩ := Option.bind_eq_some_iff.mp lastIndex
          rw [List.getElem?_swapPop_last h.nodup hk hl ak, if_pos rfl, he]
          simp only [Option.map_some, Option.bind_some, Option.some.injEq]
          exact eq_comm
        · -- every other key keeps its position
          rw [List.getElem?_swapPop_other hk hl al ak, if_neg al]
          exact h.getElem? i a
    · intro a entry' present'
      by_cases ak : a = key
      · subst ak
        rw [self] at present'
        cases present'
        simp
      · rw [others a ak] at present'
        split at present'
        · obtain ⟨e, he, rfl⟩ := Option.map_eq_some_iff.mp present'
          obtain ⟨e', he', hi⟩ := Option.bind_eq_some_iff.mp lastIndex
          rw [he, Option.some.injEq] at he'
          subst he'
          have := h.deadline last e he
          rw [hi] at this
          simpa using this
        · exact h.deadline a entry' present'

/-- Removing the entry of a key without a deadline keeps the volatile part. -/
lemma Indexed.remove {db' : Database} (h : db.Indexed) (none_ : db.volatileIndexOf key = none)
    (data : db'.data = db.data.erase key) (keys : db'.volatileKeys = db.volatileKeys) :
    db'.Indexed where
  getElem? := by
    intro i a
    rw [keys, h.getElem?]
    by_cases e : a = key
    · subst e
      rw [none_, volatileIndexOf, data, AList.lookup_erase]
      rfl
    · rw [volatileIndexOf, volatileIndexOf, data, AList.lookup_erase_ne e]
  deadline := by
    intro a entry present
    rw [data, AList.lookup_erase_ite] at present
    split at present
    · cases present
    · exact h.deadline a entry present

lemma Indexed.erase (h : db.Indexed) (present : db.data.lookup key = some entry) :
    (db.erase key).Indexed := by
  have self := lookup_clearExpiry_self present
  have gone : (db.clearExpiry key).volatileIndexOf key = none := by simp [volatileIndexOf, self]
  exact (h.clearExpiry present).remove gone data_erase (by simp only [Database.erase, self])

/-- Every change that sets only proper deadlines keeps the volatile part. -/
lemma Indexed.mutation {p : Permits} (proper : ∀ d, p.deadline d → d ≠ noExpiry)
    {db db' : Database} (m : Mutation p db db') (h : db.Indexed) : db'.Indexed := by
  cases m with
  | create value absent _ _ => exact h.create value absent
  | erase present _ => exact h.erase present
  | touch _ => exact h.touch _
  | setExpiry present _ may => exact h.setExpiry present (proper _ may)
  | clearExpiry present _ => exact h.clearExpiry present
  | rewrite _ _ _ _ _ => exact h.rewrite _ _ _ _
  | count f => exact h.congr (fun _ => rfl) rfl
  | settings bytes policy _ => exact h.congr (fun _ => rfl) rfl
  | clear =>
    constructor
    · intro i a
      simp [volatileIndexOf]
    · intro a entry present
      cases present

end Indexed

/-- The empty database satisfies both parts of the invariant. -/
lemma linked_empty : ({} : Database).Linked where
  mem_lru := by
    intro c
    simp [position]
  cells_nodup := List.nodup_nil
  fresh := by
    intro c hc
    cases hc

lemma indexed_empty : ({} : Database).Indexed where
  getElem? := by
    intro i a
    simp [volatileIndexOf]
  deadline := by
    intro a entry present
    cases present

end Database

open Database

/-- The two parts of the invariant hold in every reachable database. -/
lemma run_linked_indexed {ok : Op → Prop} (clock : ∀ op, ok op → ∀ now ∈ op.readings, 0 ≤ now)
    (ops : List Op) (valid : ∀ op ∈ ops, ok op) :
    (Op.run ops).Linked ∧ (Op.run ops).Indexed := by
  apply Op.run_induction ok (I := fun db => db.Linked ∧ db.Indexed) ⟨linked_empty, indexed_empty⟩ ?_
    ops valid
  rintro op db db' valid m ⟨linked, indexed⟩
  refine ⟨linked.mutation m, indexed.mutation ?_ m⟩
  rintro d ⟨now, mem, lt⟩ e
  have := clock op valid now mem
  rw [e] at lt
  simp only [noExpiry] at lt
  omega

/-- Index consistency of every reachable database: after any sequence of public operations with
non-negative clock readings, whether they return or throw, the recency list and the vector of
volatile keys agree with the entries. -/
theorem run_indexConsistent (ops : List Op)
    (clock : ∀ op ∈ ops, ∀ now ∈ op.readings, 0 ≤ now)
    (values : ∀ op ∈ ops, op.NonemptyValues) :
    (Op.run ops).IndexConsistent := by
  have valid : ∀ op ∈ ops, (∀ now ∈ op.readings, 0 ≤ now) ∧ op.NonemptyValues :=
    fun op mem => ⟨clock op mem, values op mem⟩
  obtain ⟨linked, indexed⟩ := run_linked_indexed (fun _ => And.left) ops valid
  exact indexConsistent_of linked indexed

/-- A run that removes a volatile key from the middle of the vector and throws once. -/
theorem run_indexConsistent_swapped :
    (Op.run [.set [97] [1] 0, .expireAtMs [97] 9 0 0, .listPush [98] [[1]] .left 1,
      .expireAtMs [98] 8 1 1, .incrementBy [98] 1 2, .del [97] 3]).IndexConsistent := by
  apply run_indexConsistent
  · decide
  · simp [Op.NonemptyValues]

end FlashKV
