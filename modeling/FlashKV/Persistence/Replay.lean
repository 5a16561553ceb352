import FlashKV.Persistence.Load
import FlashKV.Persistence.Rewritten

/-!
# Replaying the log of a command

From the typed map to the engine: what the records of one command do when they are replayed, through
a processor without a log, into a database without a memory limit. `Processor.execute_replays` is
the step of every result about the log of a run.
-/

namespace FlashKV

open StateAction Database

/-- Replay records, each at its own clock reading, through a processor without a log: the replies
and the processor afterwards. -/
def replayLog : List (Int × List Bytes) → Processor → List CommandReply × Processor
  | [], processor => ([], processor)
  | (now, record) :: log, processor =>
    let (reply, _, processor) := processor.execute .detached now record
    let (replies, processor) := replayLog log processor
    (reply :: replies, processor)

/-- No reply to the replayed records is an error. -/
def ReplaysCleanly (log : List (Int × List Bytes)) (processor : Processor) : Prop :=
  ∀ reply ∈ (replayLog log processor).1, isErrorReply reply.payload = false

lemma replayLog_append (first second : List (Int × List Bytes)) (processor : Processor) :
    replayLog (first ++ second) processor =
      ((replayLog first processor).1 ++ (replayLog second (replayLog first processor).2).1,
        (replayLog second (replayLog first processor).2).2) := by
  induction first generalizing processor with
  | nil => rfl
  | cons entry first ih =>
    obtain ⟨now, record⟩ := entry
    simp only [List.cons_append, replayLog, ih]

section View

variable {db : Database} {t t' : Int}

/-- The entries that a database shows, as a map. -/
def Database.shown (t : Int) (db : Database) : TypedMap .native where
  find := db.view t
  finite := by
    refine db.data.keys.finite_toSet.subset fun key h => ?_
    rw [Set.mem_ofPred_eq] at h
    by_contra absent
    rw [view_of_absent (AList.lookup_eq_none.mpr absent)] at h
    cases h

lemma Database.shows_shown (t : Int) (db : Database) : Shows t db (db.shown t) := by
  funext key
  show db.view t key = (db.view t key).filter (·.liveAt t)
  exact view_later le_rfl key

/-- Maps that a database shows look alike. -/
lemma Shows.purge_eq {m m' : TypedMap .native} (h : Shows t db m) (h' : Shows t db m') :
    m.purge t = m'.purge t := by
  ext1
  exact h.symm.trans h'

end View

section Unlimited

variable {arguments : List Bytes} {spec : CommandSpec} {handler : DataHandler} {processor : Processor}

/-- A record that the map takes is taken by a database that shows the same entries. -/
lemma Accepted.execute {t : Int} {record : List Bytes} {m m' : TypedMap .native}
    (accepted : Accepted t record m m') (unlimited : processor.database.memoryLimit = 0)
    (shows : Shows t processor.database m) :
    isErrorReply (processor.execute .detached t record).1.payload = false ∧
    (processor.execute .detached t record).2.2.database.memoryLimit = 0 ∧
    Shows t (processor.execute .detached t record).2.2.database m' := by
  obtain ⟨spec, handler, found, data, fine, rfl⟩ := accepted
  obtain ⟨ran, same⟩ := Processor.unlimited found data unlimited
  have steps := processor.execute_cases (show AofStatus.detached ≠ .failed by decide) t record
  rw [ran, same] at steps
  obtain ⟨none_, _⟩ | ⟨handler', some_, payload, _, database⟩ := steps
  · cases none_
  · cases some_
    have run : Simulates (SessionRel [] (Shows t)) (handler.run (σ := Database) record t)
        (handler.run (σ := TypedMap .native) record t) :=
      handler.run_simulates SessionRel.propagates (database_simulates t) (fun _ _ => trivial)
        (fun _ key _ => ttl_simulates t key) fun _ _ => trivial
    obtain ⟨outcome, rel⟩ := run ⟨processor.database, false, []⟩ ⟨m, false, []⟩ ⟨shows, rfl, rfl⟩
    have limit := (handler.run_mutates (K := fun _ => True) record t (fun _ _ => trivial)
      ⟨processor.database, false, []⟩).memoryLimit id
    refine ⟨?_, ?_, ?_⟩
    · rw [payload]
      exact (congrArg (fun outcome => isErrorReply (payloadOf outcome)) outcome).trans fine
    · rw [database]
      exact limit.trans unlimited
    · rw [database]
      exact rel.store

/-- Records that reproduce what led from `m` to `m'`, replayed in a database that shows what `m`
shows. -/
lemma Replays.replayLog {t : Int} {records : List (List Bytes)} {m m' : TypedMap .native}
    (replays : Replays t records m m') (unlimited : processor.database.memoryLimit = 0)
    (shows : Shows t processor.database m) :
    ReplaysCleanly (records.map fun record => (t, record)) processor ∧
    (replayLog (records.map fun record => (t, record)) processor).2.database.memoryLimit = 0 ∧
    Shows t (replayLog (records.map fun record => (t, record)) processor).2.database m' := by
  induction replays generalizing processor with
  | nil same =>
    refine ⟨(fun _ mem => by cases mem), unlimited, ?_⟩
    rw [Shows, ← same]
    exact shows
  | @cons record records m m₁ m' step _ ih =>
    obtain ⟨copy, accepted, same⟩ := step (processor.database.shown t)
      ((shows_shown t _).purge_eq shows)
    obtain ⟨fine, unlimited', shows'⟩ := accepted.execute unlimited (shows_shown t _)
    have shows' : Shows t (processor.execute .detached t record).2.2.database m₁ := by
      rw [Shows, ← same]
      exact shows'
    obtain ⟨clean, rest⟩ := ih unlimited' shows'
    refine ⟨fun reply mem => ?_, rest⟩
    rcases List.mem_cons.mp mem with rfl | mem
    · exact fine
    · exact clean reply mem

end Unlimited

/-! ### One command -/

/-- The records, replayed at time `t`, reproduce what led from `db` to `db'`. -/
def Reproduces (t : Int) (records : List (List Bytes)) (db db' : Database) : Prop :=
  ∃ m m', Shows t db m ∧ Replays t records m m' ∧ Shows t db' m'

/-- No live aggregate of the database is empty. -/
def Database.Sound (t : Int) (db : Database) : Prop :=
  ∀ key slot, db.view t key = some slot → slot.value.isEmpty = false

/-- Can the command be replayed at time `restart`? -/
def Processor.SafeAt (restart now : Int) (arguments : List Bytes) (processor : Processor) : Prop :=
  ∀ handler, processor.dispatched arguments = some handler →
    handler.Safe restart now arguments ((processor.evicted arguments).view now)

section Reproduces

variable {t t' : Int} {records records' : List (List Bytes)} {db db₁ db' : Database}
  {processor : Processor} {arguments : List Bytes}

lemma Reproduces.replayLog (h : Reproduces t records db db')
    (unlimited : processor.database.memoryLimit = 0)
    (same : processor.database.view t = db.view t) :
    ReplaysCleanly (records.map fun record => (t, record)) processor ∧
    (replayLog (records.map fun record => (t, record)) processor).2.database.memoryLimit = 0 ∧
    (replayLog (records.map fun record => (t, record)) processor).2.database.view t =
      db'.view t := by
  obtain ⟨m, m', shows, replays, shows'⟩ := h
  obtain ⟨clean, limit, final⟩ := replays.replayLog unlimited (same.trans shows)
  exact ⟨clean, limit, final.trans shows'.symm⟩

lemma Reproduces.of_view (same : db.view t = db'.view t) : Reproduces t [] db db' :=
  ⟨db.shown t, db.shown t, shows_shown t db, .nil rfl, same.symm.trans (shows_shown t db)⟩

lemma Reproduces.trans (h : Reproduces t records db db₁) (h' : Reproduces t records' db₁ db') :
    Reproduces t (records ++ records') db db' := by
  obtain ⟨m, m₁, shows, replays, shows₁⟩ := h
  obtain ⟨m₁', m', shows₁', replays', shows'⟩ := h'
  have meet : Replays t [] m₁ m₁' := .nil (shows₁.purge_eq shows₁')
  exact ⟨m, m', shows, replays.append (meet.append replays'), shows'⟩

lemma evictOne_reproduces (victim : Bytes) (db : Database) :
    Reproduces t [delRecord victim] db (db.evictOne victim) := by
  refine ⟨db.shown t, (db.shown t).put victim none, shows_shown t db, .one ?_, ?_⟩
  · exact delRecord_replays TypedMap.purge_put
  · rw [Shows, TypedMap.purge_put, TypedMap.find_put, evictOne, view_count, view_erase]
    congr 1
    exact shows_shown t db

/-- Evictions are reproduced by their records. -/
lemma evictAll_reproduces (victims : List Bytes) (db : Database) :
    Reproduces t (victims.map delRecord) db (db.evictAll victims) := by
  induction victims generalizing db with
  | nil => exact .of_view rfl
  | cons victim victims ih => exact (evictOne_reproduces victim db).trans (ih _)

lemma Database.Sound.evictAll (victims : List Bytes) {db : Database} (sound : db.Sound t) :
    (db.evictAll victims).Sound t := by
  induction victims generalizing db with
  | nil => exact sound
  | cons victim victims ih =>
    refine ih fun key slot shown => ?_
    change (db.evictOne victim).view t key = some slot at shown
    rw [evictOne, view_count, view_erase] at shown
    by_cases e : key = victim
    · subst e
      rw [Function.update_self] at shown
      cases shown
    · rw [Function.update_of_ne e] at shown
      exact sound key slot shown

lemma Database.Sound.later (le : t ≤ t') (sound : db.Sound t) : db.Sound t' := by
  intro key slot shown
  rw [view_later le] at shown
  exact sound key slot (Option.filter_eq_some_iff.mp shown).1

/-- A safe data handler, run against the database. -/
lemma DataHandler.reproduces {spec : CommandSpec} {handler : DataHandler}
    (found : resolve arguments = .dispatch spec) (data : spec.handler = .data handler)
    (le : t ≤ t') (sound : db.Sound t) (safe : handler.Safe t' t arguments (db.view t)) :
    Reproduces t' (handler.run arguments t ⟨db, true, []⟩).2.records db
      (handler.run arguments t ⟨db, true, []⟩).2.store ∧
    (handler.run arguments t ⟨db, true, []⟩).2.store.Sound t ∧
    (¬ handler.SetsDeadline t arguments (db.view t) →
      (handler.run arguments t ⟨db, true, []⟩).2.records.length ≤ 1) := by
  have shows := shows_shown t db
  have logs : handler.Logs t t' arguments (db.shown t) := by
    refine DataHandler.logs found data le ?_ ?_
    · intro key slot shown
      exact sound key slot ((congrFun shows key).trans shown)
    · rwa [← show db.view t = ((db.shown t).purge t).find from shows]
  have run : Simulates (SessionRel [] (Shows t)) (handler.run (σ := Database) arguments t)
      (handler.run (σ := TypedMap .native) arguments t) :=
    handler.run_simulates SessionRel.propagates (database_simulates t) (fun _ _ => trivial)
      (fun _ key _ => ttl_simulates t key) fun _ _ => trivial
  obtain ⟨_, rel⟩ := run ⟨db, true, []⟩ ⟨db.shown t, true, []⟩ ⟨shows, rfl, rfl⟩
  have recorded := rel.records
  rw [List.nil_append] at recorded
  refine ⟨⟨db.shown t, _, shows.later le, recorded ▸ logs.replays, rel.store.later le⟩, ?_, ?_⟩
  · intro key slot shown
    exact logs.sound key slot ((congrFun rel.store key).symm.trans shown)
  · intro other
    rw [recorded]
    exact logs.single (by rwa [← show db.view t = ((db.shown t).purge t).find from shows])

/-- Changing the memory limit and evicting. -/
lemma Processor.evicted_view (processor : Processor) (arguments : List Bytes) :
    (processor.evicting arguments).1.view t = processor.database.view t := by
  unfold Processor.evicting
  split
  · split <;> rfl
  · rfl

/-- The records of any evictions of a command. -/
lemma Processor.evictions_reproduce (processor : Processor) (arguments victims : List Bytes) :
    Reproduces t (victims.map delRecord) processor.database
      ((processor.evicting arguments).1.evictAll victims) :=
  Reproduces.trans (.of_view (processor.evicted_view arguments).symm) (evictAll_reproduces _ _)

lemma Processor.evicted_sound (processor : Processor) (arguments : List Bytes)
    (sound : processor.database.Sound t) : (processor.evicted arguments).Sound t := by
  refine Database.Sound.evictAll _ fun key slot shown => ?_
  rw [processor.evicted_view arguments] at shown
  exact sound key slot shown

/-- The records of a safe command reproduce what the command did, evictions included. -/
lemma Processor.execute_reproduces (le : t ≤ t') (sound : processor.database.Sound t)
    (safe : processor.SafeAt t' t arguments) :
    Reproduces t' (processor.execute .healthy t arguments).2.1 processor.database
      (processor.execute .healthy t arguments).2.2.database ∧
    (processor.execute .healthy t arguments).2.2.database.Sound t := by
  have evictions : Reproduces t' (processor.evictionRecords .healthy arguments) processor.database
      (processor.evicted arguments) :=
    processor.evictions_reproduce arguments (processor.evicting arguments).2
  have left := processor.evicted_sound arguments sound
  obtain ⟨_, policy, records, database⟩ | ⟨handler, ran, _, records, database⟩ :=
    processor.execute_cases (show AofStatus.healthy ≠ .failed by decide) t arguments
  · rw [records, database]
    exact ⟨evictions, left⟩
  · obtain ⟨spec, found, data⟩ := Processor.resolve_of_dispatched ran
    obtain ⟨reproduces, sound', _⟩ := DataHandler.reproduces found data le left (safe handler ran)
    rw [records, database]
    exact ⟨evictions.trans reproduces, sound'⟩

end Reproduces

end FlashKV
