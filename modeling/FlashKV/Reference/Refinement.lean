import FlashKV.Command.Simulation
import FlashKV.Reference.Engine

/-!
# The storage engine refines the reference

Two steps. `Database` simulates the typed map with the source's own conventions, for every command
and every clock reading (`database_simulates`); the relation is that both show the same live
entries. The typed map with the source's conventions simulates the plain one as long as the clock
has passed the sentinel and the stored deadlines are `long long`s (`native_simulates`); only `TTL`
differs.
-/

namespace FlashKV

open StateAction

/-- Engine and map show the same live entries at time `now`. -/
def Shows {c : Conventions} (now : Int) (db : Database) (m : TypedMap c) : Prop :=
  db.view now = (m.purge now).find

/-- What looks alike now looks alike later. -/
lemma Shows.later {c : Conventions} {db : Database} {m : TypedMap c} {t t' : Int} (le : t ≤ t')
    (shows : Shows t db m) : Shows t' db m := by
  funext key
  rw [Database.view_later le, congrFun shows key, ← TypedMap.purge_purge le]
  rfl

section Engine

variable {α : Type} {c : Conventions} {now : Int}

/-- An operation that performs a slot operation simulates it. -/
lemma Database.Performs.simulates {key : Bytes} {act : DbAction α} {op : SlotOp α}
    (h : Performs key now act op) :
    Simulates (Shows (c := c) now) act (TypedMap.onKey key now op) := by
  intro db m shows
  obtain ⟨result, view⟩ := h db
  rw [Shows] at shows
  rw [shows] at result view
  refine ⟨result, ?_⟩
  -- what the engine shows is live, so purging the stored slot keeps it
  have live : (op ((m.purge now).find key)).2.filter (·.liveAt now) =
      (op ((m.purge now).find key)).2 := by
    have shown := congrFun view key
    rw [Function.update_self] at shown
    rw [← shown, Database.view, Option.filter_filter]
    simp
  rw [Shows, view, TypedMap.onKey, TypedMap.purge_put, TypedMap.purge_purge le_rfl, live]
  rfl

/-- The keys that `Database.keys` collects, before sorting. -/
lemma mem_matched {db : Database} {pattern key : Bytes} :
    key ∈ (db.data.entries.filter fun e => !e.2.expired now && globMatch pattern e.1).map (·.1) ↔
      (db.view now key).isSome ∧ globMatch pattern key = true := by
  constructor
  · intro mem
    obtain ⟨⟨key', entry⟩, kept, rfl⟩ := List.mem_map.mp mem
    obtain ⟨stored, passes⟩ := List.mem_filter.mp kept
    simp only [Bool.and_eq_true, Bool.not_eq_true'] at passes
    have found : db.data.lookup key' = some entry := AList.mem_lookup_iff.mpr stored
    exact ⟨by rw [Database.view_of_live found passes.1]; rfl, passes.2⟩
  · rintro ⟨shown, matched⟩
    cases found : db.data.lookup key with
    | none =>
      rw [Database.view_of_absent found] at shown
      cases shown
    | some entry =>
      cases dead : entry.expired now with
      | true =>
        rw [Database.view_of_expired found dead] at shown
        cases shown
      | false =>
        refine List.mem_map.mpr ⟨⟨key, entry⟩, List.mem_filter.mpr ⟨?_, ?_⟩, rfl⟩
        · exact AList.mem_lookup_iff.mp found
        · simp [dead, matched]

/-- The live keys, in order. -/
lemma keys_simulates (pattern : Bytes) :
    Simulates (Shows (c := c) now) (Database.keys pattern now) (TypedMap.keys pattern now) := by
  classical
  intro db m shows
  refine ⟨?_, ?_⟩
  · -- two sorted lists without duplicates that have the same elements
    refine congrArg Except.ok (List.Perm.eq_of_pairwise' ?_ (Finset.pairwise_sort _ _) ?_)
    · exact List.pairwise_insertionSort _ _
    · refine (List.perm_insertionSort _ _).trans ?_
      refine (List.perm_ext_iff_of_nodup ?_ (Finset.sort_nodup _ _)).mpr fun key => ?_
      · exact db.data.keys_nodup.sublist (List.filter_sublist.map _)
      · rw [mem_matched, Finset.mem_sort, Finset.mem_filter, Set.Finite.mem_toFinset,
          congrFun shows key]
        rfl
  · rw [Shows, TypedMap.keys, TypedMap.purge_purge le_rfl]
    exact shows

lemma clear_simulates : Simulates (Shows (c := c) now) Database.clear
    (Storage.clear : StateAction DbError (TypedMap c) Unit) := by
  intro db m _
  refine ⟨rfl, ?_⟩
  funext key
  rfl

open Database in
/-- The engine simulates the typed map with the source's conventions. -/
lemma database_simulates (now : Int) :
    StorageSimulates (σ := Database) (τ := TypedMap .native) (fun _ => True) (fun _ => True) now
      (Shows now) where
  del _ _ := del_performs.simulates
  existsKey _ _ := existsKey_performs.simulates
  type _ _ := type_performs.simulates
  keys := keys_simulates
  clear := clear_simulates
  set _ _ _ := set_performs.simulates
  get _ _ := get_performs.simulates
  incrementBy _ _ _ range := (incrementBy_performs range).simulates
  append _ _ _ := append_performs.simulates
  stringLength _ _ := stringLength_performs.simulates
  expireAtMs _ _ _ _ := expireAtMs_performs.simulates
  persist _ _ := persist_performs.simulates
  ttlMs _ _ := ttlMs_performs.simulates
  listPush _ _ _ _ := listPush_performs.simulates
  listPop _ _ _ := listPop_performs.simulates
  listRange _ _ _ _ := listRange_performs.simulates
  listIndex _ _ _ := listIndex_performs.simulates
  listLength _ _ := listLength_performs.simulates
  hashSet _ _ _ := hashSet_performs.simulates
  hashGet _ _ _ := hashGet_performs.simulates
  hashDelete _ _ _ := hashDelete_performs.simulates
  hashGetAll _ _ := hashGetAll_performs.simulates
  hashLength _ _ := hashLength_performs.simulates
  hashExists _ _ _ := hashExists_performs.simulates
  setAdd _ _ _ := setAdd_performs.simulates
  setRemove _ _ _ := setRemove_performs.simulates
  setMembers _ _ := setMembers_performs.simulates
  setIsMember _ _ _ := setIsMember_performs.simulates
  setCardinality _ _ := setCardinality_performs.simulates

lemma ttl_simulates (now : Int) (key : Bytes) :
    Simulates (Shows now) (Storage.ttl key now : DbAction Int)
      (Storage.ttl key now : StateAction DbError (TypedMap .native) Int) :=
  Database.ttl_performs.simulates

end Engine

section Conventions

/-- The two maps hold the same entries, and every deadline is a `long long`. -/
structure SameEntries (m : TypedMap .native) (m' : TypedMap .exact) : Prop where
  find : m.find = m'.find
  range : ∀ key slot deadline, m.find key = some slot → slot.deadline = some deadline →
    deadline ≤ int64Max

variable {α : Type} {now : Int} {key : Bytes}

lemma SameEntries.purge {m : TypedMap .native} {m' : TypedMap .exact} (h : SameEntries m m')
    (now : Int) :
    SameEntries (m.purge now) (m'.purge now) := by
  refine ⟨?_, fun key slot deadline found => ?_⟩
  · simp only [TypedMap.purge, h.find]
  · exact h.range key slot deadline (Option.filter_eq_some_iff.mp found).1

/-- A live slot whose deadline is a `long long`. -/
def SoundSlot (now : Int) (slot : Option Slot) : Prop :=
  ∀ s, slot = some s → s.liveAt now = true ∧ ∀ d, s.deadline = some d → d ≤ int64Max

/-- Slot operations that agree and keep deadlines in range keep the entries the same. -/
lemma onKey_simulates {op op' : SlotOp α} (same : ∀ slot, SoundSlot now slot → op slot = op' slot)
    (range : ∀ slot, SoundSlot now slot → ∀ s d, (op slot).2 = some s → s.deadline = some d →
      d ≤ int64Max) :
    Simulates SameEntries (TypedMap.onKey key now op : StateAction DbError (TypedMap .native) α)
      (TypedMap.onKey key now op') := by
  intro m m' h
  have purged := h.purge now
  have sound : SoundSlot now ((m.purge now).find key) := by
    intro s found
    exact ⟨(Option.filter_eq_some_iff.mp found).2, fun d => purged.range key s d found⟩
  have agree := same _ sound
  unfold TypedMap.onKey
  rw [← purged.find, ← agree]
  refine ⟨rfl, ?_, ?_⟩
  · simp only [TypedMap.find_put, purged.find]
  · intro a slot deadline found given
    simp only [TypedMap.find_put] at found
    by_cases e : a = key
    · subst e
      rw [Function.update_self] at found
      exact range _ sound slot deadline found given
    · rw [Function.update_of_ne e] at found
      exact purged.range a slot deadline found given

/-- An operation that stores the slot it sees. -/
lemma keeps_simulates {op : SlotOp α} (keeps : ∀ slot, (op slot).2 = slot) :
    Simulates SameEntries (TypedMap.onKey key now op : StateAction DbError (TypedMap .native) α)
      (TypedMap.onKey key now op) := by
  refine onKey_simulates (fun _ _ => rfl) fun slot sound s d stored given => ?_
  rw [keeps] at stored
  exact (sound s stored).2 d given

/-- A write keeps the deadline it finds. -/
lemma write_simulates {β : Type} {as : Value → Option β} {wrap : β → Value}
    {f : Option β → Except DbError (α × Option β)} :
    Simulates SameEntries
      (TypedMap.onKey key now (SlotOp.write as wrap f) : StateAction DbError (TypedMap .native) α)
      (TypedMap.onKey key now (SlotOp.write as wrap f)) := by
  refine onKey_simulates (fun _ _ => rfl) fun slot sound s d stored given => ?_
  cases slot with
  | none =>
    unfold SlotOp.write at stored
    dsimp only at stored
    split at stored
    · cases stored
    · obtain ⟨value, _, rfl⟩ := Option.map_eq_some_iff.mp stored
      cases given
  | some slot =>
    refine (sound slot rfl).2 d ?_
    unfold SlotOp.write at stored
    dsimp only at stored
    split at stored
    · cases stored
      exact given
    · split at stored
      · cases stored
        exact given
      · obtain ⟨value, _, rfl⟩ := Option.map_eq_some_iff.mp stored
        exact given

/-- Storing a requested deadline: past the sentinel, both conventions store it as it is. -/
lemma expireAtMs_simulates {unixTimeMs : Int} (past : -1 ≤ now) (range : unixTimeMs ≤ int64Max) :
    Simulates SameEntries
      (TypedMap.onKey key now (SlotOp.expireAtMs .native unixTimeMs now) :
        StateAction DbError (TypedMap .native) Bool)
      (TypedMap.onKey key now (SlotOp.expireAtMs .exact unixTimeMs now)) := by
  have stored : now < unixTimeMs → deadlineOf unixTimeMs = some unixTimeMs := by
    intro future
    rw [deadlineOf, noExpiry, if_neg (by omega)]
  refine onKey_simulates ?_ ?_
  · intro slot _
    cases slot with
    | none => rfl
    | some slot =>
      unfold SlotOp.expireAtMs Conventions.native Conventions.exact
      dsimp only
      split
      · rfl
      · rw [stored (by omega)]
  · intro slot _ s d found given
    cases slot with
    | none => cases found
    | some slot =>
      unfold SlotOp.expireAtMs Conventions.native at found
      dsimp only at found
      split at found
      · cases found
      · rw [stored (by omega)] at found
        cases found
        cases given
        exact range

/-- From the sentinel's time on, the remaining milliseconds do not wrap. -/
lemma wrap64_remaining {deadline : Int} (nonneg : 0 ≤ now) (future : now < deadline)
    (range : deadline ≤ int64Max) : wrap64 (deadline - now) = deadline - now := by
  refine wrap64_of_fits ?_ (by omega)
  rw [int64Min]
  omega

lemma ttlMs_simulates (nonneg : 0 ≤ now) :
    Simulates SameEntries
      (TypedMap.onKey key now (SlotOp.ttlMs .native now) : StateAction DbError (TypedMap .native) Int)
      (TypedMap.onKey key now (SlotOp.ttlMs .exact now)) := by
  refine onKey_simulates ?_ fun slot sound s d stored given => ?_
  · intro slot sound
    cases slot with
    | none => rfl
    | some slot =>
      obtain ⟨live, range⟩ := sound slot rfl
      unfold SlotOp.ttlMs SlotOp.ttlWith
      cases deadline : slot.deadline with
      | none => simp only [deadline]
      | some d =>
        rw [Slot.liveAt, deadline] at live
        simp only [deadline, Conventions.native, Conventions.exact,
          wrap64_remaining nonneg (of_decide_eq_true live) (range d deadline)]
  · rw [SlotOp.ttlMs, SlotOp.ttlWith_keeps] at stored
    exact (sound s stored).2 d given

open SlotOp in
/-- The typed map with the source's conventions simulates the plain one, at every non-negative clock
reading. -/
lemma native_simulates (nonneg : 0 ≤ now) :
    StorageSimulates (σ := TypedMap .native) (τ := TypedMap .exact) (fun _ => True)
      (fun deadline => int64Min ≤ deadline ∧ deadline ≤ int64Max) now SameEntries where
  del key _ := onKey_simulates (fun _ _ => rfl) fun _ _ _ _ stored => by cases stored
  existsKey key _ := keeps_simulates fun _ => rfl
  type key _ := keeps_simulates fun _ => rfl
  keys pattern := by
    classical
    intro m m' h
    refine ⟨?_, h.purge now⟩
    have keys : (m.purge now).finite.toFinset = (m'.purge now).finite.toFinset := by
      ext key
      simp [(h.purge now).find]
    show Except.ok (Finset.sort _ _) = Except.ok (Finset.sort _ _)
    rw [keys]
  clear m m' _ := ⟨rfl, rfl, fun _ _ _ found => by cases found⟩
  set key value _ := onKey_simulates (fun _ _ => rfl) fun _ _ _ _ stored given => by
    cases stored
    cases given
  get key _ := keeps_simulates read_keeps
  incrementBy key delta _ _ := write_simulates
  append key value _ := write_simulates
  stringLength key _ := keeps_simulates read_keeps
  expireAtMs key unixTimeMs _ range := expireAtMs_simulates (by omega) range.2
  persist key _ := by
    refine onKey_simulates (fun _ _ => rfl) fun slot sound s d stored given => ?_
    cases slot with
    | none => cases stored
    | some slot =>
      unfold persist at stored
      dsimp only at stored
      split at stored
      · cases stored
        exact (sound _ rfl).2 d given
      · cases stored
        cases given
  ttlMs key _ := ttlMs_simulates nonneg
  listPush key values side _ := write_simulates
  listPop key side _ := write_simulates
  listRange key start stop _ := keeps_simulates read_keeps
  listIndex key index _ := keeps_simulates read_keeps
  listLength key _ := keeps_simulates read_keeps
  hashSet key fields _ := write_simulates
  hashGet key field _ := keeps_simulates read_keeps
  hashDelete key fields _ := write_simulates
  hashGetAll key _ := keeps_simulates read_keeps
  hashLength key _ := keeps_simulates read_keeps
  hashExists key field _ := keeps_simulates read_keeps
  setAdd key members _ := write_simulates
  setRemove key members _ := write_simulates
  setMembers key _ := keeps_simulates read_keeps
  setIsMember key member _ := keeps_simulates read_keeps
  setCardinality key _ := keeps_simulates read_keeps

end Conventions

end FlashKV
