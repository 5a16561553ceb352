import FlashKV.Command.Reachable
import FlashKV.Database.Frame
import FlashKV.Persistence.Replay

/-!
# No empty aggregate is stored

A list, a hash or a set is created empty and filled afterwards, and it is erased when its last
element is removed. In every reachable state all stored aggregates have an element. For the keys
that are live at the time of a command this is part of what `DataHandler.reproduces` says; a key
that is stored and expired at that time has not been touched.
-/

namespace FlashKV

open StateAction Database

namespace Database

/-- No stored aggregate is empty, whether its key is live or not. -/
def NoneEmpty (db : Database) : Prop :=
  ∀ key entry, db.data.lookup key = some entry → entry.value.isEmpty = false

/-- What is stored and expired at time `now` was stored before with the same value. -/
def KeepsExpired (now : Int) (start db : Database) : Prop :=
  ∀ key entry, db.data.lookup key = some entry → entry.expired now = true →
    ∃ old, start.data.lookup key = some old ∧ old.value = entry.value

section Changes

variable {db db' : Database} {key : Bytes} {now : Int}

/-- Erasing keys leaves no empty aggregate. -/
lemma NoneEmpty.erasing (h : db.NoneEmpty) (steps : Mutations .erasing db db') : db'.NoneEmpty := by
  refine steps.preserves (fun db db' m h => ?_) h
  intro key entry present
  cases m with
  | create | setExpiry | clearExpiry | rewrite => contradiction
  | @erase erased _ _ _ =>
    by_cases e : key = erased
    · subst e
      rw [lookup_erase_self] at present
      cases present
    · obtain ⟨old, found, same, _⟩ := exists_of_holding (holding_congr (lookup_erase_of_ne e)) present
      rw [← same]
      exact h key old found
  | touch => contradiction
  | count => exact h key entry present
  | settings _ _ may => exact absurd may id
  | clear may => exact absurd may id

/-- The key is absent or not expired. -/
def FreshAt (now : Int) (key : Bytes) (db : Database) : Prop :=
  ∀ entry, db.data.lookup key = some entry → entry.expired now = false

lemma freshAt_findLive (db : Database) (key : Bytes) (now : Int) :
    FreshAt now key (db.findLive key now).2 := by
  intro entry present
  rcases findLive_cases db key now with ⟨live, hf, found, notExpired, _⟩ | ⟨db', hf, absent, _⟩
  · rw [hf] at present
    cases found.symm.trans present
    exact notExpired
  · rw [hf] at present
    cases absent.symm.trans present

/-- The key stays so. -/
lemma FreshAt.mutation {p : Permits} (future : ∀ d, p.deadline d → now < d) (m : Mutation p db db')
    (h : FreshAt now key db) : FreshAt now key db' := by
  intro entry present
  rcases m.deadline_of present with none_ | new | ⟨old, found, same⟩
  · rw [Entry.expired, none_]
    rfl
  · have later := future _ new
    rw [Entry.expired, Bool.and_eq_false_iff, decide_eq_false_iff_not]
    exact .inr (by simpa using later)
  · have fresh := h old found
    rw [Entry.expired, same] at fresh
    exact fresh

/-- An operation on one key keeps what is expired or drops it. -/
lemma KeepsExpired.survives {p : Permits} (future : ∀ d, p.deadline d → now < d) (keeps : ¬ p.evict)
    (kept : ¬ p.clear) {start : Database} (h : KeepsExpired now start db)
    (steps : Mutations (p.only key) (db.findLive key now).2 db') : KeepsExpired now start db' := by
  intro a entry present dead
  by_cases named : a = key
  · -- the key itself is fresh from the first lookup on
    subst named
    have fresh : FreshAt now a db' :=
      steps.preserves (fun _ _ m fresh => fresh.mutation (p := p.only a) future m)
        (freshAt_findLive db a now)
    rw [fresh entry present] at dead
    cases dead
  · have found : db'.holding a = (db.findLive key now).2.holding a :=
      steps.frame keeps kept named
    have looked : (db.findLive key now).2.holding a = db.holding a :=
      (findLive_mutates (p := p.only key) rfl db now).frame keeps kept named
    obtain ⟨old, stored, value, expires⟩ := exists_of_holding (found.trans looked) present
    rw [Entry.expired, ← expires] at dead
    obtain ⟨first, known, same⟩ := h a old stored dead
    exact ⟨first, known, same.trans value⟩

end Changes

end Database

section Handlers

variable {db : Database} {now : Int} {arguments : List Bytes}

/-- A data handler does the same to the database whether a log is attached or not. -/
lemma DataHandler.run_attached (handler : DataHandler) (arguments : List Bytes) (now : Int)
    (db : Database) (attached attached' : Bool) :
    (handler.run arguments now ⟨db, attached, []⟩).2.store =
      (handler.run arguments now ⟨db, attached', []⟩).2.store := by
  have propagates : Propagates arguments Eq fun s t : Session Database => s.store = t.store := by
    refine ⟨⟨id, fun _ related => related⟩, fun _ => .modify fun s t rel => ?_⟩
    cases s.attached <;> cases t.attached <;> exact rel
  exact ((handler.run_simulates propagates (storageSimulates_eq now) (fun _ _ => trivial)
    (fun _ _ _ => by rintro s _ rfl; exact ⟨rfl, rfl⟩) fun _ _ => trivial)
    ⟨db, attached, []⟩ ⟨db, attached', []⟩ rfl).2

/-- A data handler keeps what is expired or drops it. -/
lemma DataHandler.run_keepsExpired (handler : DataHandler) (arguments : List Bytes) (now : Int)
    (attached : Bool) (db : Database) :
    KeepsExpired now db (handler.run arguments now ⟨db, attached, []⟩).2.store := by
  by_cases flush : handler = .flushall
  · subst flush
    have dropped : (DataHandler.flushall.run arguments now ⟨db, attached, []⟩).2.store.data = ∅ := by
      cases attached <;> rfl
    intro key entry present
    rw [dropped] at present
    cases present
  · refine handler.run_keeps (K := fun _ => True) (Q := KeepsExpired now db) arguments now ?_ ?_
      (fun _ _ => trivial) fun key entry present _ => ⟨entry, present, rfl⟩
    · intro key _ db₁ db₂ steps h
      exact h.survives (fun _ => And.left) id flush steps
    · exact fun e => absurd e flush

/-- A data handler leaves no empty aggregate. -/
lemma DataHandler.run_noneEmpty {spec : CommandSpec} {handler : DataHandler}
    (found : resolve arguments = .dispatch spec) (data : spec.handler = .data handler)
    (h : db.NoneEmpty) (attached : Bool) :
    (handler.run arguments now ⟨db, attached, []⟩).2.store.NoneEmpty := by
  have sound : db.Sound now := by
    intro key slot shown
    obtain ⟨entry, present, rfl⟩ := Option.map_eq_some_iff.mp (Option.filter_eq_some_iff.mp shown).1
    exact h key entry present
  have sound' := (DataHandler.reproduces found data le_rfl sound (handler.safe_of_now
    fun _ _ shown => (Option.filter_eq_some_iff.mp shown).2)).2.1
  rw [handler.run_attached arguments now db true attached] at sound'
  intro key entry present
  cases dead : entry.expired now with
  | false => exact sound' key entry.slot (view_of_live present dead)
  | true =>
    obtain ⟨old, stored, same⟩ :=
      handler.run_keepsExpired arguments now attached db key entry present dead
    rw [← same]
    exact h key old stored

end Handlers

namespace Processor

/-- No command leaves an empty aggregate. -/
lemma noneEmpty_execute {processor : Processor} (h : processor.database.NoneEmpty) (aof : AofStatus)
    (now : Int) (arguments : List Bytes) :
    (processor.execute aof now arguments).2.2.database.NoneEmpty := by
  rcases processor.execute_database aof now arguments with same | ⟨status, healthy, same⟩
  · rw [same]
    exact h
  · have evicted : (processor.evicted arguments).NoneEmpty := by
      have start : (processor.evicting arguments).1.NoneEmpty := by
        unfold evicting
        split
        · split <;> exact h
        · exact h
      exact start.erasing (evictAll_mutates trivial _ _)
    rw [same]
    obtain ⟨_, policy, _, database⟩ | ⟨handler, ran, _, _, database⟩ :=
      processor.execute_cases healthy now arguments
    · rw [database]
      exact evicted
    · obtain ⟨spec, found, data⟩ := Processor.resolve_of_dispatched ran
      rw [database]
      exact DataHandler.run_noneEmpty found data evicted status.attached

lemma Reachable.noneEmpty {processor : Processor} (h : processor.Reachable) :
    processor.database.NoneEmpty := by
  induction h with
  | start => exact fun _ _ present => by cases present
  | @next processor aof event _ ih =>
    cases event with
    | command now arguments => exact noneEmpty_execute ih aof now arguments
    | cycle choices samplesPerLoop now => exact ih.erasing (activeExpireCycle_mutates trivial)

end Processor

namespace Database

variable {db : Database} {key : Bytes} {now : Int}

/-- `KEYS` lists live keys only. -/
lemma live_of_mem_keys {pattern : Bytes} {matched : List Bytes}
    (listed : (keys pattern now db).1 = .ok matched) (mem : key ∈ matched) :
    ∃ entry, db.data.lookup key = some entry ∧ entry.expired now = false := by
  cases listed
  rw [List.mem_insertionSort, List.mem_map] at mem
  obtain ⟨⟨_, entry⟩, kept, rfl⟩ := mem
  obtain ⟨stored, shown⟩ := List.mem_filter.mp kept
  refine ⟨entry, AList.mem_lookup_iff.mpr stored, ?_⟩
  simpa using (Bool.and_eq_true_iff.mp shown).1

/-- A live aggregate has a size other than zero. -/
lemma NoneEmpty.absent (h : db.NoneEmpty)
    (zero : (listLength key now db).1 = .ok 0 ∨ (hashLength key now db).1 = .ok 0 ∨
      (setCardinality key now db).1 = .ok 0) :
    ∃ db', db.findLive key now = (none, db') ∧ db.view now key = none := by
  rcases findLive_cases db key now with ⟨entry, hf, present, _⟩ | ⟨db', hf, _, _, hidden⟩
  · have full := h key entry present
    simp only [listLength, hashLength, setCardinality, hf] at zero
    cases value : entry.value with
    | string text =>
      rw [value] at zero
      simp at zero
    | list list =>
      rw [value] at zero full
      simp_all [Value.isEmpty]
    | hash hash =>
      rw [value] at zero full
      simp_all [Value.isEmpty]
    | set set =>
      rw [value] at zero full
      simp_all [Value.isEmpty]
  · exact ⟨db', hf, hidden⟩

end Database

/-- No empty aggregate is stored in any reachable state; so a list that is popped has a first and a
last element, and a key whose `LLEN`, `HLEN` or `SCARD` is zero is not reported by `EXISTS`, `TYPE`
or `KEYS`. -/
theorem reachable_noneEmpty {processor : Processor} (reachable : processor.Reachable) :
    let db := processor.database
    (∀ key entry, db.data.lookup key = some entry → entry.value.isEmpty = false) ∧
    (∀ key now entry db' list, db.findLive key now = (some entry, db') → entry.value = .list list →
      ∀ side, (popElement side list).isSome) ∧
    (∀ key now, (listLength key now db).1 = .ok 0 ∨ (hashLength key now db).1 = .ok 0 ∨
        (setCardinality key now db).1 = .ok 0 →
      (existsKey key now db).1 = .ok false ∧ (type key now db).1 = .ok none ∧
      ∀ pattern matched, (keys pattern now db).1 = .ok matched → key ∉ matched) := by
  intro db
  have full : db.NoneEmpty := reachable.noneEmpty
  refine ⟨full, ?_, ?_⟩
  · intro key now entry db' list hf value side
    rcases findLive_cases db key now with ⟨found, hf', present, _⟩ | ⟨_, hf', _⟩
    · cases hf.symm.trans hf'
      have nonempty := full key entry present
      rw [value, Value.isEmpty] at nonempty
      cases side <;> cases list <;> simp_all [popElement]
    · cases hf.symm.trans hf'
  · intro key now zero
    obtain ⟨db', hf, hidden⟩ := full.absent zero
    refine ⟨by simp [existsKey, hf], by simp [type, hf], fun pattern matched listed mem => ?_⟩
    obtain ⟨entry, present, live⟩ := live_of_mem_keys listed mem
    rw [view_of_live present live] at hidden
    cases hidden

/-- A list that has been popped once, and a set and a hash that have been emptied. -/
theorem reachable_noneEmpty_popped :
    let db := ((emptyProcessor 0 .noEviction).after
      [(.healthy, .command 0 [ascii "RPUSH", ascii "l", ascii "a", ascii "b"]),
        (.healthy, .command 0 [ascii "LPOP", ascii "l"]),
        (.healthy, .command 0 [ascii "SADD", ascii "s", ascii "m"]),
        (.healthy, .command 0 [ascii "SREM", ascii "s", ascii "m", ascii "m"]),
        (.healthy, .command 0 [ascii "HSET", ascii "h", ascii "f", ascii "v"]),
        (.healthy, .command 0 [ascii "HDEL", ascii "h", ascii "f"])]).database
    db.data.entries.map (fun e => (e.1, e.2.value)) = [(ascii "l", .list [ascii "b"])] ∧
    (∀ key entry, db.data.lookup key = some entry → entry.value.isEmpty = false) ∧
    (∀ key now entry db' list, db.findLive key now = (some entry, db') → entry.value = .list list →
      ∀ side, (popElement side list).isSome) ∧
    (∀ key now, (listLength key now db).1 = .ok 0 ∨ (hashLength key now db).1 = .ok 0 ∨
        (setCardinality key now db).1 = .ok 0 →
      (existsKey key now db).1 = .ok false ∧ (type key now db).1 = .ok none ∧
      ∀ pattern matched, (keys pattern now db).1 = .ok matched → key ∉ matched) :=
  ⟨by decide +kernel, reachable_noneEmpty (Processor.Reachable.after (.start {} 0 .noEviction) _)⟩

end FlashKV
