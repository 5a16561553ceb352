import FlashKV.Database.Operations

/-!
# The live view of a database

`Database.view db t` maps each key that is not expired at time `t` to its typed value and deadline.
It is what a client can observe of the stored data at time `t`, and it is all that later behaviour
depends on. The lemmas say how each internal helper changes the stored entries and the view.
-/

namespace FlashKV

/-- What a client can observe of a key: its typed value and its deadline, if it has one. -/
structure Slot where
  value : Value
  deadline : Option Int
  deriving DecidableEq

/-- Has the slot's deadline not been reached at time `t`? -/
def Slot.liveAt (slot : Slot) (t : Int) : Bool :=
  match slot.deadline with
  | none => true
  | some d => t < d

/-- The deadline that an expiry field stands for. -/
def deadlineOf (expiresAtMs : Int) : Option Int :=
  if expiresAtMs = noExpiry then none else some expiresAtMs

/-- The observable part of an entry. -/
def Entry.slot (entry : Entry) : Slot :=
  ⟨entry.value, deadlineOf entry.expiresAtMs⟩

/-- An entry is expired exactly when its slot is dead. -/
lemma Entry.liveAt_slot (entry : Entry) (t : Int) : entry.slot.liveAt t = !entry.expired t := by
  unfold Slot.liveAt Entry.slot deadlineOf Entry.expired
  split
  · rename_i h
    split at h
    · simp_all
    · cases h
  · rename_i d h
    split at h
    · cases h
    · cases h
      rename_i ne
      simp only [ne, ne_eq, not_false_eq_true, decide_true, Bool.true_and]
      rw [← decide_not, decide_eq_decide]
      exact lt_iff_not_ge

/-- A slot whose deadline is in the future is live. -/
lemma Slot.liveAt_of_future {value : Value} {deadline t : Int} (future : t < deadline) :
    Slot.liveAt ⟨value, deadlineOf deadline⟩ t = true := by
  unfold Slot.liveAt deadlineOf
  split
  · rfl
  · rename_i d h
    split at h
    · cases h
    · cases h
      exact decide_eq_true future

/-- What is live later is live now. -/
lemma Slot.liveAt_of_le {slot : Slot} {t t' : Int} (le : t ≤ t') (live : slot.liveAt t' = true) :
    slot.liveAt t = true := by
  unfold Slot.liveAt at *
  split
  · rfl
  · rename_i d h
    rw [h] at live
    simp only [decide_eq_true_eq] at live ⊢
    omega

lemma Slot.filter_live {slot : Slot} {t : Int} (live : slot.liveAt t = true) :
    (some slot).filter (·.liveAt t) = some slot := by
  simp [live]

lemma Slot.filter_dead {slot : Slot} {t : Int} (dead : slot.liveAt t = false) :
    (some slot).filter (·.liveAt t) = none := by
  simp [dead]

/-- Entries that agree up to their place in `volatileKeys` show the same slot. -/
lemma map_slot_congr {x y : Option Entry}
    (h : x.map (fun e => { e with volatileIndex := none }) =
      y.map (fun e => { e with volatileIndex := none })) : x.map Entry.slot = y.map Entry.slot := by
  have h := congrArg (Option.map Entry.slot) h
  rw [Option.map_map, Option.map_map] at h
  exact h

namespace Database

/-- The live view at time `t`. -/
def view (db : Database) (t : Int) (key : Bytes) : Option Slot :=
  ((db.data.lookup key).map Entry.slot).filter (·.liveAt t)

/-- A key with a live entry shows its slot. -/
lemma view_of_live {db : Database} {t : Int} {key : Bytes} {entry : Entry}
    (h : db.data.lookup key = some entry) (live : entry.expired t = false) :
    db.view t key = some entry.slot := by
  simp [view, h, Entry.liveAt_slot, live]

/-- A key with an expired entry shows nothing. -/
lemma view_of_expired {db : Database} {t : Int} {key : Bytes} {entry : Entry}
    (h : db.data.lookup key = some entry) (dead : entry.expired t = true) : db.view t key = none := by
  simp [view, h, Entry.liveAt_slot, dead]

/-- An absent key shows nothing. -/
lemma view_of_absent {db : Database} {t : Int} {key : Bytes} (h : db.data.lookup key = none) :
    db.view t key = none := by
  simp [view, h]

/-- The view only depends on the observable part of the entries. -/
lemma view_congr {db db' : Database} {key : Bytes}
    (h : (db'.data.lookup key).map Entry.slot = (db.data.lookup key).map Entry.slot) (t : Int) :
    db'.view t key = db.view t key := by
  rw [view, view, h]

section Lookup

variable {db : Database} {key a : Bytes} {entry : Entry}

lemma lookup_update (f : Entry → Entry) :
    (db.update key f).data.lookup a =
      if a = key then (db.data.lookup key).map f else db.data.lookup a := by
  cases h : db.data.lookup key with
  | none =>
    simp only [update, h, Option.map_none]
    by_cases e : a = key
    · rw [if_pos e, e, h]
    · rw [if_neg e]
  | some entry =>
    simp only [update, h]
    exact AList.lookup_insert_ite a key (f entry) db.data

/-- Clearing an expiry may move one other key inside `volatileKeys`, and nothing else. -/
lemma lookup_clearExpiry_of_ne (ne : a ≠ key) :
    ((db.clearExpiry key).data.lookup a).map (fun e => { e with volatileIndex := none }) =
      (db.data.lookup a).map (fun e => { e with volatileIndex := none }) := by
  unfold clearExpiry
  cases h : db.data.lookup key with
  | none => rfl
  | some entry =>
    dsimp only
    split
    · rw [lookup_update, if_neg ne, lookup_update]
      split
      · rename_i e
        subst e
        rw [Option.map_map]
        rfl
      · rfl
    · rw [lookup_update, if_neg ne]

/-- A key whose expiry is cleared has none and is not volatile. -/
lemma lookup_clearExpiry_self (h : db.data.lookup key = some entry) :
    (db.clearExpiry key).data.lookup key =
      some { entry with volatileIndex := none, expiresAtMs := noExpiry } := by
  unfold clearExpiry
  rw [h]
  dsimp only
  split
  · rw [lookup_update, if_pos rfl, lookup_update]
    split
    · rename_i e
      rw [← e, h]
      rfl
    · rw [h]
      rfl
  · rw [lookup_update, if_pos rfl, h]
    rfl

lemma clearExpiry_of_absent (h : db.data.lookup key = none) : db.clearExpiry key = db := by
  simp [clearExpiry, h]

/-- The stored data after an erasure. -/
lemma data_erase : (db.erase key).data = (db.clearExpiry key).data.erase key := by
  cases h : (db.clearExpiry key).data.lookup key with
  | none =>
    simp only [erase, h]
    apply AList.ext
    exact (List.kerase_of_notMem_keys (AList.lookup_eq_none.mp h)).symm
  | some entry => simp only [erase, h]

/-- An erased key is gone. -/
lemma lookup_erase_self : (db.erase key).data.lookup key = none := by
  rw [data_erase, AList.lookup_erase]

/-- Erasing a key keeps every other entry, up to its place in `volatileKeys`. -/
lemma lookup_erase_of_ne (ne : a ≠ key) :
    ((db.erase key).data.lookup a).map (fun e => { e with volatileIndex := none }) =
      (db.data.lookup a).map (fun e => { e with volatileIndex := none }) := by
  rw [data_erase, AList.lookup_erase_ne ne, lookup_clearExpiry_of_ne ne]

lemma lookup_setExpiry (unixTimeMs : Int) (ne : a ≠ key) :
    (db.setExpiry key unixTimeMs).data.lookup a = db.data.lookup a := by
  unfold setExpiry
  cases db.data.lookup key with
  | none => rfl
  | some entry =>
    dsimp only
    split <;> rw [lookup_update, if_neg ne]

lemma lookup_create (value : Value) :
    (db.create key value).data.lookup a =
      if a = key then some (db.newEntry key value) else db.data.lookup a := by
  exact AList.lookup_insert_ite a key _ db.data

/-- A new entry has no deadline. -/
lemma newEntry_of_absent {value : Value} (h : db.data.lookup key = none) :
    db.newEntry key value =
      { value := value, memory := entryOverhead + key.length + payloadMemory value,
        lruPosition := db.nextCell } := by
  simp [newEntry, h]

@[simp]
lemma data_touch : (db.touch key).data = db.data := by
  unfold touch
  split <;> rfl

@[simp]
lemma data_count (f : DatabaseStats → DatabaseStats) : (db.count f).data = db.data := rfl

lemma lookup_addMemory (bytes : Nat) :
    (db.addMemory key bytes).data.lookup a =
      if a = key then (db.data.lookup key).map fun e => { e with memory := e.memory + bytes }
      else db.data.lookup a :=
  lookup_update _

lemma lookup_removeMemory (bytes : Nat) :
    (db.removeMemory key bytes).data.lookup a =
      if a = key then (db.data.lookup key).map fun e => { e with memory := subSize e.memory bytes }
      else db.data.lookup a := by
  cases h : db.data.lookup key with
  | none =>
    simp only [removeMemory, h, Option.map_none]
    by_cases e : a = key
    · rw [if_pos e, e, h]
    · rw [if_neg e]
  | some entry =>
    simp only [removeMemory, h]
    exact AList.lookup_insert_ite a key _ db.data

end Lookup

section View

variable {db : Database} {t : Int} {key a : Bytes} {entry : Entry}

@[simp]
lemma view_touch : (db.touch key).view t = db.view t := by
  funext a
  simp [view]

@[simp]
lemma view_count (f : DatabaseStats → DatabaseStats) : (db.count f).view t = db.view t := rfl

@[simp]
lemma view_addMemory (bytes : Nat) : (db.addMemory key bytes).view t = db.view t := by
  funext a
  apply view_congr
  rw [lookup_addMemory]
  split
  · rename_i e
    rw [e, Option.map_map]
    rfl
  · rfl

@[simp]
lemma view_removeMemory (bytes : Nat) : (db.removeMemory key bytes).view t = db.view t := by
  funext a
  apply view_congr
  rw [lookup_removeMemory]
  split
  · rename_i e
    rw [e, Option.map_map]
    rfl
  · rfl

/-- Erasing a key removes it from the view and nothing else. -/
lemma view_erase : (db.erase key).view t = Function.update (db.view t) key none := by
  funext a
  by_cases e : a = key
  · subst e
    rw [Function.update_self, view_of_absent lookup_erase_self]
  · rw [Function.update_of_ne e]
    exact view_congr (map_slot_congr (lookup_erase_of_ne e)) t

/-- Clearing the expiry of a live key drops its deadline from the view and nothing else. -/
lemma view_clearExpiry (h : db.data.lookup key = some entry) :
    (db.clearExpiry key).view t = Function.update (db.view t) key (some ⟨entry.value, none⟩) := by
  funext a
  by_cases e : a = key
  · subst e
    rw [Function.update_self, view, lookup_clearExpiry_self h]
    simp [Entry.slot, deadlineOf, Slot.liveAt]
  · rw [Function.update_of_ne e]
    exact view_congr (map_slot_congr (lookup_clearExpiry_of_ne e)) t

/-- Setting a future expiry shows in the view of that key and nowhere else. -/
lemma view_setExpiry {deadline : Int} (h : db.data.lookup key = some entry) (future : t < deadline) :
    (db.setExpiry key deadline).view t =
      Function.update (db.view t) key (some ⟨entry.value, deadlineOf deadline⟩) := by
  funext a
  by_cases e : a = key
  · subst e
    have slot : ((db.setExpiry a deadline).data.lookup a).map Entry.slot =
        some ⟨entry.value, deadlineOf deadline⟩ := by
      unfold setExpiry
      rw [h]
      dsimp only
      split <;> rw [lookup_update, if_pos rfl] <;> simp [h, Entry.slot]
    rw [Function.update_self, view, slot]
    exact Option.filter_eq_some_iff.mpr ⟨rfl, Slot.liveAt_of_future future⟩
  · rw [Function.update_of_ne e]
    exact view_congr (by rw [lookup_setExpiry _ e]) t

/-- Creating a key shows its value without a deadline, and nothing else. -/
lemma view_create {value : Value} (h : db.data.lookup key = none) :
    (db.create key value).view t = Function.update (db.view t) key (some ⟨value, none⟩) := by
  funext a
  by_cases e : a = key
  · subst e
    rw [Function.update_self, view, lookup_create, if_pos rfl, newEntry_of_absent h]
    simp [Entry.slot, deadlineOf, Slot.liveAt]
  · rw [Function.update_of_ne e]
    exact view_congr (by rw [lookup_create, if_neg e]) t

end View

/-- A later view is what is left of an earlier one. -/
lemma view_later {db : Database} {t t' : Int} (le : t ≤ t') (key : Bytes) :
    db.view t' key = (db.view t key).filter (·.liveAt t') := by
  rw [view, view, Option.filter_filter]
  congr 1
  funext slot
  cases live : slot.liveAt t' with
  | false => rw [Bool.and_false]
  | true => rw [Slot.liveAt_of_le le live, Bool.and_true]

/-- Databases that look alike now look alike later. -/
lemma view_eq_later {db db' : Database} {t t' : Int} (le : t ≤ t') (same : db.view t = db'.view t) :
    db.view t' = db'.view t' := by
  funext key
  rw [view_later le, view_later le, same]

/-- What `findLive` does: it finds the live entry and changes nothing, or it finds none, and then
the key is gone and the view is what it was. -/
lemma findLive_cases (db : Database) (key : Bytes) (now : Int) :
    (∃ entry, db.findLive key now = (some entry, db) ∧ db.data.lookup key = some entry ∧
      entry.expired now = false ∧ db.view now key = some entry.slot) ∨
    (∃ db', db.findLive key now = (none, db') ∧ db'.data.lookup key = none ∧
      db'.view now = db.view now ∧ db.view now key = none) := by
  unfold findLive
  cases h : db.data.lookup key with
  | none => exact .inr ⟨db, rfl, h, rfl, view_of_absent h⟩
  | some entry =>
    dsimp only
    cases dead : entry.expired now with
    | true =>
      refine .inr ⟨_, rfl, lookup_erase_self, ?_, view_of_expired h dead⟩
      rw [view_count, view_erase, ← view_of_expired h dead, Function.update_eq_self]
    | false => exact .inl ⟨entry, rfl, rfl, dead, view_of_live h dead⟩

end Database

end FlashKV
