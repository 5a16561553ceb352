import FlashKV.Command.Simulation
import FlashKV.Database.Eviction

/-!
# What a command does to the database

A command does at most three things, in this order: it changes the memory settings, it evicts keys,
and it runs one data handler. `Processor.execute_cases` says so once, with the records that are
propagated on the way; what a data handler may change is bounded by `DataHandler.run_mutates`.
-/

namespace FlashKV

open StateAction Database

/-! ### Data handlers -/

/-- Both sides are one database, which has a property. -/
def Sharing (Q : Database → Prop) (s t : Database) : Prop :=
  s = t ∧ Q s

/-- The property survives what an operation on a permitted key can do. -/
def Survives (p : Permits) (now : Int) (Q : Database → Prop) : Prop :=
  ∀ {key : Bytes}, p.key key → ∀ {db db' : Database},
    Mutations (p.only key) (db.findLive key now).2 db' → Q db → Q db'

section Survives

variable {α : Type} {p : Permits} {D : Int → Prop} {now : Int} {Q : Database → Prop}

lemma Survives.simulates (survives : Survives p now Q) {key : Bytes} {act : DbAction α}
    (ok : p.key key) (acts : Acts (p.only key) key now act) : Simulates (Sharing Q) act act := by
  rintro s _ ⟨rfl, holds⟩
  exact ⟨rfl, rfl, survives ok (acts s) holds⟩

lemma Survives.shrinks (survives : Survives p now Q) (future : ∀ d, D d → now < d → p.deadline d) :
    StorageShrinks (σ := Database) (τ := Database) p.key D now (Sharing Q) where
  existsKey _ ok := survives.simulates ok (existsKey_reads.acts rfl)
  type _ ok := survives.simulates ok (type_reads.acts rfl)
  keys _ := by rintro s _ ⟨rfl, holds⟩; exact ⟨rfl, rfl, holds⟩
  get _ ok := survives.simulates ok (get_acts rfl)
  stringLength _ ok := survives.simulates ok (stringLength_reads.acts rfl)
  ttlMs _ ok := survives.simulates ok (ttlMs_reads.acts rfl)
  listRange _ _ _ ok := survives.simulates ok (listRange_reads.acts rfl)
  listIndex _ _ ok := survives.simulates ok (listIndex_reads.acts rfl)
  listLength _ ok := survives.simulates ok (listLength_reads.acts rfl)
  hashGet _ _ ok := survives.simulates ok (hashGet_reads.acts rfl)
  hashGetAll _ ok := survives.simulates ok (hashGetAll_reads.acts rfl)
  hashLength _ ok := survives.simulates ok (hashLength_reads.acts rfl)
  hashExists _ _ ok := survives.simulates ok (hashExists_reads.acts rfl)
  setMembers _ ok := survives.simulates ok (setMembers_reads.acts rfl)
  setIsMember _ _ ok := survives.simulates ok (setIsMember_reads.acts rfl)
  setCardinality _ ok := survives.simulates ok (setCardinality_reads.acts rfl)
  del _ ok := survives.simulates ok (del_acts rfl)
  expireAtMs _ _ ok asked := survives.simulates ok (expireAtMs_acts rfl (future _ asked))
  persist _ ok := survives.simulates ok (persist_acts rfl)
  listPop _ _ ok := survives.simulates ok (listPop_acts rfl)
  hashDelete _ _ ok := survives.simulates ok (hashDelete_acts rfl)
  setRemove _ _ ok := survives.simulates ok (setRemove_acts rfl)

lemma Survives.changes (survives : Survives p now Q) (future : ∀ d, D d → now < d → p.deadline d)
    (grow : p.grow) : StorageChanges (σ := Database) (τ := Database) p.key D now (Sharing Q) where
  toStorageShrinks := survives.shrinks future
  set _ _ ok := survives.simulates ok (set_acts (p := p.only _) rfl grow)
  incrementBy _ _ ok _ := survives.simulates ok (incrementBy_acts (p := p.only _) rfl grow)
  append _ _ ok := survives.simulates ok (append_acts (p := p.only _) rfl grow)
  listPush _ _ _ ok := survives.simulates ok (listPush_acts (p := p.only _) rfl grow)
  hashSet _ _ ok := survives.simulates ok (hashSet_acts (p := p.only _) rfl grow)
  setAdd _ _ ok := survives.simulates ok (setAdd_acts (p := p.only _) rfl grow)

end Survives

/-- What a data handler may do: change keys with `K`, set deadlines in the future that its arguments
ask for, make values grow if it is one of those that can, and drop everything if it is `flushall`. -/
def dataPermits (handler : DataHandler) (arguments : List Bytes) (K : Bytes → Prop) (now : Int) :
    Permits where
  deadline d := now < d ∧ handler.Asks arguments now d
  key := K
  evict := False
  grow := handler.grows = true
  clear := handler = .flushall
  settings := False

section Run

variable {K : Bytes → Prop}

/-- A data handler keeps what survives the operations that it may call. -/
lemma DataHandler.run_keeps (handler : DataHandler) (arguments : List Bytes) (now : Int)
    {Q : Database → Prop} (survives : Survives (dataPermits handler arguments K now) now Q)
    (clear : handler = .flushall → ∀ db, Q db → Q (Database.clear db).2)
    (allowed : ∀ argument ∈ arguments.drop 1, K argument) {session : Session Database}
    (holds : Q session.store) : Q (handler.run arguments now session).2.store := by
  have future : ∀ d, handler.Asks arguments now d → now < d →
      (dataPermits handler arguments K now).deadline d := fun _ asked later => ⟨later, asked⟩
  have lift : Propagates arguments (Sharing Q) (SessionRel [] (Sharing Q)) := SessionRel.propagates
  have ttl : handler = .ttl → ∀ key, K key → Simulates (Sharing Q) (Database.ttl key now now)
      (Database.ttl key now now) :=
    fun _ key ok => survives.simulates ok (ttl_reads.acts rfl)
  have sim : Simulates (SessionRel [] (Sharing Q)) (handler.run arguments now)
      (handler.run arguments now) := by
    by_cases flush : handler = .flushall
    · subst flush
      refine .bind (Handler.call_simulates lift.toLifts ?_) fun _ =>
        .bind (lift.propagate .flushall) fun _ => .pure _
      rintro s _ ⟨rfl, holds⟩
      exact ⟨rfl, rfl, clear rfl s holds⟩
    · cases grows : handler.grows with
      | true =>
        exact handler.change_simulates flush lift (survives.changes future grows) (fun _ => id) ttl
          allowed
      | false =>
        exact handler.shrink_simulates grows flush lift (survives.shrinks future) (fun _ => id) ttl
          allowed
  exact (sim session session ⟨⟨rfl, holds⟩, rfl, rfl⟩).2.store.2

/-- A data handler changes the database by permitted changes only, whatever its outcome. -/
lemma DataHandler.run_mutates (handler : DataHandler) (arguments : List Bytes) (now : Int)
    (allowed : ∀ argument ∈ arguments.drop 1, K argument) (session : Session Database) :
    Mutations (dataPermits handler arguments K now) session.store
      (handler.run arguments now session).2.store := by
  refine handler.run_keeps (Q := Mutations (dataPermits handler arguments K now) session.store) arguments now
    ?_ ?_ allowed .refl
  · intro key ok db db' more steps
    exact steps.trans (.trans (findLive_mutates ok db now) (more.mono (Permits.only_le ok)))
  · exact fun flush db steps => .tail steps (.clear flush)

end Run

/-- Every operation simulates itself on equal states. -/
lemma storageSimulates_eq {σ : Type} [Storage σ] (now : Int) :
    StorageSimulates (σ := σ) (τ := σ) (fun _ => True) (fun _ => True) now Eq := by
  have same : ∀ {α : Type} (act : StateAction DbError σ α), Simulates Eq act act := by
    rintro α act s _ rfl
    exact ⟨rfl, rfl⟩
  constructor
  · constructor
    · constructor
      · constructor <;> intros <;> exact same _
      all_goals intros; exact same _
    all_goals intros; exact same _
  · exact same _

/-- A handler propagates nothing but the records of its command. -/
lemma DataHandler.run_written {σ : Type} [Storage σ] (handler : DataHandler) (arguments : List Bytes)
    (now : Int) (store : σ) (attached : Bool) :
    ∀ record ∈ (handler.run arguments now ⟨store, attached, []⟩).2.records,
      Written arguments record := by
  have propagates : Propagates arguments Eq fun s t : Session σ =>
      s = t ∧ ∀ record ∈ s.records, Written arguments record := by
    refine ⟨⟨?_, ?_⟩, ?_⟩
    · rintro s _ ⟨rfl, _⟩
      rfl
    · rintro s _ s' _ ⟨rfl, written⟩ rfl
      exact ⟨rfl, written⟩
    · rintro record new s _ ⟨rfl, written⟩
      refine ⟨rfl, rfl, fun r mem => ?_⟩
      rw [Handler.propagate, modify_apply] at mem
      dsimp only at mem
      split at mem
      · rcases List.mem_append.mp mem with mem | mem
        · exact written r mem
        · rw [List.mem_singleton.mp mem]
          exact new
      · exact written r mem
  have run := handler.run_simulates propagates (storageSimulates_eq now) (fun _ _ => trivial)
    (fun _ _ _ => by rintro s _ rfl; exact ⟨rfl, rfl⟩) fun _ _ => trivial
  exact (run ⟨store, attached, []⟩ ⟨store, attached, []⟩ ⟨rfl, by simp⟩).2.2

/-- Earlier records do not matter to a handler. -/
lemma DataHandler.run_records {σ : Type} [Storage σ] (handler : DataHandler) (arguments : List Bytes)
    (now : Int) (store : σ) (attached : Bool) (records : List (List Bytes)) :
    (handler.run arguments now ⟨store, attached, records⟩).1 =
      (handler.run arguments now ⟨store, attached, []⟩).1 ∧
    (handler.run arguments now ⟨store, attached, records⟩).2.store =
      (handler.run arguments now ⟨store, attached, []⟩).2.store ∧
    (handler.run arguments now ⟨store, attached, records⟩).2.records =
      records ++ (handler.run arguments now ⟨store, attached, []⟩).2.records := by
  have run : Simulates (SessionRel records Eq) (handler.run (σ := σ) arguments now)
      (handler.run arguments now) :=
    handler.run_simulates SessionRel.propagates (storageSimulates_eq now) (fun _ _ => trivial)
      (fun _ _ _ => by rintro s _ rfl; exact ⟨rfl, rfl⟩) fun _ _ => trivial
  obtain ⟨outcome, rel⟩ := run ⟨store, attached, records⟩ ⟨store, attached, []⟩
    ⟨rfl, rfl, by simp⟩
  exact ⟨outcome, rel.store, rel.records⟩

/-! ### Evictions -/

/-- The record of an eviction. -/
def delRecord (key : Bytes) : List Bytes :=
  [ascii "DEL", key]

/-- Each evicted key is propagated, in order. -/
lemma propagateEvicted_apply {σ : Type} (victims : List Bytes) (session : Session σ) :
    Handler.propagateEvicted victims session = (.ok (), { session with
      records := session.records ++ if session.attached then victims.map delRecord else [] }) := by
  induction victims generalizing session with
  | nil =>
    cases session
    simp [Handler.propagateEvicted]
  | cons victim victims ih =>
    rw [Handler.propagateEvicted, Handler.propagate, modify_bind_apply, ih]
    cases attached : session.attached with
    | false => simp [attached]
    | true => simp [delRecord]

/-! ### Execution -/

/-- The memory limit that the arguments `CONFIG SET maxmemory` give. -/
def configLimit : List Bytes → Option Nat
  | [_, subcommand, parameter, value] =>
    if uppercase subcommand = ascii "SET" ∧ lowercase parameter = ascii "maxmemory" then
      parseMemorySize value
    else none
  | _ => none

/-- The deadlines that a request asks the engine for. -/
def AsksDeadline (arguments : List Bytes) (now deadline : Int) : Prop :=
  ∃ spec handler, resolve arguments = .dispatch spec ∧ spec.handler = .data handler ∧
    handler.Asks arguments now deadline

namespace Processor

/-- The database in which a command evicts, and the keys that it evicts. -/
def evicting (arguments : List Bytes) (processor : Processor) : Database × List Bytes :=
  match resolve arguments with
  | .dispatch spec =>
    match spec.handler, configLimit arguments with
    | .server .config, some bytes =>
      let db := { processor.database with memoryLimit := bytes }
      (db, db.victims)
    | _, _ => (processor.database, if spec.write then processor.database.victims else [])
  | _ => (processor.database, [])

/-- The database after the evictions of a command. -/
def evicted (arguments : List Bytes) (processor : Processor) : Database :=
  (processor.evicting arguments).1.evictAll (processor.evicting arguments).2

/-- The data handler that a command runs after its evictions, if it runs one. -/
def dispatched (arguments : List Bytes) (processor : Processor) : Option DataHandler :=
  match resolve arguments with
  | .dispatch spec =>
    match spec.handler with
    | .data handler =>
      if spec.write ∧ spec.denyOom ∧ ¬ processor.database.evictsEnough then none else some handler
    | .server _ => none
  | _ => none

end Processor

section Cases

variable {stats : ServerStats} {aof : AofStatus} {arguments : List Bytes} {now : Int}

lemma call_evictIfNeeded (session : Session Database) :
    Handler.call evictIfNeeded session =
      (.ok (session.store.evictsEnough, session.store.victims),
        { session with store := session.store.evictAll session.store.victims }) := by
  rw [Handler.call, evictIfNeeded_eq]

/-- The evictions of a write command. -/
lemma evictBefore_apply (session : Session Database) :
    evictBefore session = (.ok session.store.evictsEnough,
      { session with
        store := session.store.evictAll session.store.victims
        records := session.records ++
          if session.attached then session.store.victims.map delRecord else [] }) := by
  rw [evictBefore, bind_of_ok (call_evictIfNeeded session)]
  dsimp only
  rw [bind_of_ok (propagateEvicted_apply _ _)]
  rfl

/-- `CONFIG SET maxmemory` sets the limit and evicts. -/
lemma configSet_limit {parameter value : Bytes} {bytes : Nat}
    (named : lowercase parameter = ascii "maxmemory") (parsed : parseMemorySize value = some bytes)
    (session : Session Database) :
    Handler.configSet parameter value session =
      (.ok (respSimpleString (ascii "OK")),
        let db := { session.store with memoryLimit := bytes }
        { session with
          store := db.evictAll db.victims
          records := session.records ++
            if session.attached then db.victims.map delRecord else [] }) := by
  unfold Handler.configSet
  rw [if_pos named, parsed]
  dsimp only
  have set : Handler.call (setMaxMemory bytes) session =
      (.ok (), { session with store := { session.store with memoryLimit := bytes } }) := rfl
  rw [bind_of_ok set, bind_of_ok (call_evictIfNeeded _)]
  dsimp only
  rw [bind_of_ok (propagateEvicted_apply _ _)]
  rfl

/-- The other parameters of `CONFIG SET`: only the policy may change. -/
lemma configSet_other {parameter value : Bytes}
    (other : ¬ (lowercase parameter = ascii "maxmemory" ∧ (parseMemorySize value).isSome))
    (session : Session Database) :
    ∃ policy, (Handler.configSet parameter value session).2 =
      { session with store := { session.store with policy := policy } } := by
  unfold Handler.configSet
  split
  · rename_i named
    cases parsed : parseMemorySize value with
    | none => exact ⟨session.store.policy, rfl⟩
    | some bytes => exact absurd ⟨named, by simp [parsed]⟩ other
  · split
    · cases parseEvictionPolicy (lowercase value) with
      | none => exact ⟨session.store.policy, rfl⟩
      | some policy => exact ⟨policy, rfl⟩
    · exact ⟨session.store.policy, rfl⟩

/-- `CONFIG` with four arguments. -/
lemma config_four (name subcommand parameter value : Bytes) (session : Session Database) :
    (Handler.config stats aof [name, subcommand, parameter, value] session).2 =
      if uppercase subcommand = ascii "SET" then (Handler.configSet parameter value session).2
      else session := by
  show ((if uppercase subcommand = ascii "GET" ∧ 4 = 3 then Handler.configGet stats aof parameter
    else if uppercase subcommand = ascii "SET" ∧ 4 = 4 then Handler.configSet parameter value
    else pure _ : Handling Database Bytes) session).2 = _
  rw [if_neg (by omega)]
  by_cases set : uppercase subcommand = ascii "SET"
  · rw [if_pos ⟨set, rfl⟩, if_pos set]
  · rw [if_neg fun h => set h.1, if_neg set]
    rfl

/-- `CONFIG` with a memory size sets the limit and evicts. -/
lemma config_limit {bytes : Nat} (limit : configLimit arguments = some bytes)
    (session : Session Database) :
    (Handler.config stats aof arguments session).2 =
      let db := { session.store with memoryLimit := bytes }
      { session with
        store := db.evictAll db.victims
        records := session.records ++
          if session.attached then db.victims.map delRecord else [] } := by
  unfold configLimit at limit
  split at limit
  · split at limit
    · rename_i named
      rw [config_four, if_pos named.1, configSet_limit named.2 limit]
    · cases limit
  · cases limit

/-- `CONFIG` without a memory size changes at most the policy. -/
lemma config_other (limit : configLimit arguments = none) (session : Session Database) :
    ∃ policy, (Handler.config stats aof arguments session).2 =
      { session with store := { session.store with policy := policy } } := by
  by_cases four : ∃ name subcommand parameter value, arguments = [name, subcommand, parameter, value]
  · obtain ⟨name, subcommand, parameter, value, rfl⟩ := four
    rw [config_four]
    split
    · rename_i set
      refine configSet_other (fun sized => ?_) session
      simp only [configLimit, set, sized.1, and_self, if_true] at limit
      simp [limit] at sized
    · exact ⟨session.store.policy, rfl⟩
  · -- the branch of `SET` asks for four arguments
    have short : arguments.length ≠ 4 := fun len => four (List.length_eq_four.mp len)
    refine ⟨session.store.policy, ?_⟩
    unfold Handler.config Handler.argument
    cases arguments[1]? with
    | none => rfl
    | some subcommand =>
      show ((if uppercase subcommand = ascii "GET" ∧ arguments.length = 3 then _
        else if uppercase subcommand = ascii "SET" ∧ arguments.length = 4 then _
        else pure _ : Handling Database Bytes) session).2 = session
      rw [if_neg fun h : _ ∧ arguments.length = 4 => short h.2]
      split
      · cases arguments[2]? with
        | none => rfl
        | some pattern => rfl
      · rfl

lemma argument_bind_keeps {σ α : Type} {index : Nat} {rest : Bytes → Handling σ α}
    {session : Session σ} (keeps : ∀ value, (rest value session).2 = session) :
    ((Handler.argument arguments index >>= rest) session).2 = session := by
  unfold Handler.argument
  cases arguments[index]? with
  | none => rfl
  | some value => exact keeps value

/-- `MEMORY` only looks. -/
lemma memory_keeps (session : Session Database) :
    (Handler.memory arguments now session).2 = session := by
  refine argument_bind_keeps fun subcommand => ?_
  split
  · rfl
  · refine argument_bind_keeps fun key => ?_
    cases session.store.inspect key now <;> rfl

/-- Only data commands are write commands. -/
lemma write_of_server {spec : CommandSpec} {handler : ServerHandler}
    (found : resolve arguments = .dispatch spec) (server : spec.handler = .server handler) :
    spec.write = false := by
  have table : ∀ entry ∈ commandTable, ∀ h ∈ [ServerHandler.dbsize, .info, .config, .memory],
      entry.2.handler = .server h → entry.2.write = false := by decide
  exact table _ (mem_of_lookup (resolve_dispatch found).1) handler (by cases handler <;> decide) server

/-- A command of a data handler: evictions first if it writes, then the handler unless memory is
short. -/
lemma CommandSpec.execute_data {spec : CommandSpec} {handler : DataHandler} (healthy : aof ≠ .failed)
    (data : spec.handler = .data handler) (db : Database) :
    spec.execute stats aof arguments now ⟨db, aof.attached, []⟩ =
      if spec.write then
        if spec.denyOom ∧ ¬ db.evictsEnough then
          (.ok (respErrorWithCode (ascii "OOM")
              (ascii "command not allowed when used memory > 'maxmemory'.")),
            ⟨db.evictAll db.victims, aof.attached,
              if aof.attached then db.victims.map delRecord else []⟩)
        else handler.run arguments now ⟨db.evictAll db.victims, aof.attached,
          if aof.attached then db.victims.map delRecord else []⟩
      else handler.run arguments now ⟨db, aof.attached, []⟩ := by
  unfold CommandSpec.execute
  split
  · rw [bind_of_ok (evictBefore_apply _)]
    simp only [List.nil_append, CommandSpec.run, data, and_comm]
    split
    · rfl
    · rfl
  · simp only [CommandSpec.run, data]

/-- A command of another handler: `CONFIG` with a memory size evicts, and no other changes entries. -/
lemma CommandSpec.execute_server {spec : CommandSpec} {handler : ServerHandler}
    (found : resolve arguments = .dispatch spec) (server : spec.handler = .server handler)
    (session : Session Database) :
    (handler = .config ∧ ∃ bytes, configLimit arguments = some bytes ∧
      (spec.execute stats aof arguments now session).2 =
        let db := { session.store with memoryLimit := bytes }
        { session with
          store := db.evictAll db.victims
          records := session.records ++
            if session.attached then db.victims.map delRecord else [] }) ∨
    ((handler = .config → configLimit arguments = none) ∧
      ∃ policy, (spec.execute stats aof arguments now session).2 =
        { session with store := { session.store with policy := policy } }) := by
  have run : spec.execute stats aof arguments now session =
      handler.run stats aof arguments now session := by
    simp only [CommandSpec.execute, write_of_server found server, CommandSpec.run, server,
      Bool.false_eq_true, if_false]
  rw [run]
  cases handler with
  | dbsize => exact .inr ⟨(fun h => by cases h), session.store.policy, rfl⟩
  | info => exact .inr ⟨(fun h => by cases h), session.store.policy, rfl⟩
  | config =>
    cases limit : configLimit arguments with
    | none => exact .inr ⟨fun _ => rfl, config_other limit session⟩
    | some bytes => exact .inl ⟨rfl, bytes, rfl, config_limit limit session⟩
  | memory =>
    exact .inr ⟨(fun h => by cases h), session.store.policy, memory_keeps session⟩

namespace Processor

/-- The records of a command's evictions. -/
def evictionRecords (aof : AofStatus) (arguments : List Bytes) (processor : Processor) :
    List (List Bytes) :=
  if aof.attached then (processor.evicting arguments).2.map delRecord else []

lemma evicting_of_limit {spec : CommandSpec} {bytes : Nat} {processor : Processor}
    (found : resolve arguments = .dispatch spec) (config : spec.handler = .server .config)
    (limit : configLimit arguments = some bytes) :
    processor.evicting arguments =
      ({ processor.database with memoryLimit := bytes },
        ({ processor.database with memoryLimit := bytes } : Database).victims) := by
  simp only [evicting, found, config, limit]

lemma evicting_of_other {spec : CommandSpec} {processor : Processor}
    (found : resolve arguments = .dispatch spec)
    (other : spec.handler = .server .config → configLimit arguments = none) :
    processor.evicting arguments =
      (processor.database, if spec.write then processor.database.victims else []) := by
  unfold evicting
  rw [found]
  dsimp only
  split
  · rename_i config limit
    rw [other config] at limit
    cases limit
  · rfl

/-- What a command does to the database and propagates: after its evictions it runs a data handler,
or it is over but for a change of the policy. -/
lemma execute_cases (healthy : aof ≠ .failed) (now : Int) (arguments : List Bytes)
    (processor : Processor) :
    (processor.dispatched arguments = none ∧ ∃ policy,
      (processor.execute aof now arguments).2.1 = processor.evictionRecords aof arguments ∧
      (processor.execute aof now arguments).2.2.database =
        { processor.evicted arguments with policy := policy }) ∨
    (∃ handler, processor.dispatched arguments = some handler ∧
      let run := handler.run arguments now ⟨processor.evicted arguments, aof.attached, []⟩
      (processor.execute aof now arguments).1.payload = payloadOf run.1 ∧
      (processor.execute aof now arguments).2.1 =
        processor.evictionRecords aof arguments ++ run.2.records ∧
      (processor.execute aof now arguments).2.2.database = run.2.store) := by
  by_cases empty : arguments = []
  · subst empty
    refine .inl ⟨rfl, processor.database.policy, ?_, rfl⟩
    unfold evictionRecords
    cases aof.attached <;> rfl
  · unfold execute dispatched evictionRecords evicted
    rw [if_neg empty]
    cases found : resolve arguments with
    | quit | unknown | wrongArity =>
      have nothing : processor.evicting arguments = (processor.database, []) := by
        simp only [evicting, found]
      rw [nothing]
      exact .inl ⟨rfl, processor.database.policy, by simp, rfl⟩
    | dispatch spec =>
      dsimp only
      cases name : spec.handler with
      | server handler =>
        refine .inl ⟨rfl, ?_⟩
        rcases CommandSpec.execute_server found name ⟨processor.database, aof.attached, []⟩ with
          ⟨rfl, bytes, limit, done⟩ | ⟨unlimited, policy, done⟩
        · rw [evicting_of_limit found name limit, done]
          exact ⟨Database.policy _, List.nil_append _, rfl⟩
        · have other : spec.handler = .server .config → configLimit arguments = none := by
            intro config
            rw [name] at config
            cases config
            exact unlimited rfl
          rw [evicting_of_other found other, done, write_of_server found name]
          exact ⟨policy, by simp, rfl⟩
      | data handler =>
        have other : spec.handler = .server .config → configLimit arguments = none := by
          rw [name]
          exact HandlerName.noConfusion
        rw [CommandSpec.execute_data healthy name, evicting_of_other found other]
        cases spec.write with
        | false => exact .inr ⟨handler, by simp, rfl, by simp [evictAll], rfl⟩
        | true =>
          simp only [if_true, true_and]
          by_cases short : spec.denyOom ∧ ¬ processor.database.evictsEnough
          · rw [if_pos short, if_pos short]
            exact .inl ⟨rfl, Database.policy _, rfl, rfl⟩
          · rw [if_neg short, if_neg short]
            obtain ⟨outcome, store, records⟩ := handler.run_records arguments now
              (processor.database.evictAll processor.database.victims) aof.attached
              (if aof.attached then processor.database.victims.map delRecord else [])
            exact .inr ⟨handler, rfl, by rw [outcome], records, store⟩

/-- A command propagates its evictions and the records of its handler. -/
lemma execute_written (healthy : aof ≠ .failed) (processor : Processor) :
    ∀ record ∈ (processor.execute aof now arguments).2.1, Written arguments record ∨
      ∃ victim ∈ (processor.evicting arguments).2, record = delRecord victim := by
  have evictions : ∀ record ∈ processor.evictionRecords aof arguments,
      ∃ victim ∈ (processor.evicting arguments).2, record = delRecord victim := by
    intro record mem
    unfold evictionRecords at mem
    split at mem
    · obtain ⟨victim, evicted, rfl⟩ := List.mem_map.mp mem
      exact ⟨victim, evicted, rfl⟩
    · cases mem
  intro record mem
  obtain ⟨_, policy, records, _⟩ | ⟨handler, _, _, records, _⟩ :=
    processor.execute_cases healthy now arguments
  · rw [records] at mem
    exact .inr (evictions record mem)
  · rw [records] at mem
    rcases List.mem_append.mp mem with mem | mem
    · exact .inr (evictions record mem)
    · exact .inl (handler.run_written arguments now _ _ record mem)

/-- The handler that a command runs is the one of its table entry. -/
lemma resolve_of_dispatched {handler : DataHandler} {processor : Processor}
    (h : processor.dispatched arguments = some handler) :
    ∃ spec, resolve arguments = .dispatch spec ∧ spec.handler = .data handler := by
  unfold dispatched at h
  split at h
  · rename_i spec found
    split at h
    · rename_i handler' data
      split at h
      · cases h
      · cases h
        exact ⟨spec, found, data⟩
    · cases h
  · cases h

/-- What a command may do: change keys with `K`, set deadlines in the future that it asks for, and
anything else. -/
def permits (arguments : List Bytes) (K : Bytes → Prop) (now : Int) : Permits where
  deadline d := now < d ∧ AsksDeadline arguments now d
  key := K
  evict := True
  grow := True
  clear := True
  settings := True

/-- A command changes the database by permitted changes. -/
lemma execute_mutates {K : Bytes → Prop} (healthy : aof ≠ .failed) (now : Int)
    (arguments : List Bytes) (allowed : ∀ argument ∈ arguments.drop 1, K argument)
    (processor : Processor) :
    Mutations (permits arguments K now) processor.database
      (processor.execute aof now arguments).2.2.database := by
  have evictions : Mutations (permits arguments K now) processor.database (processor.evicted arguments) := by
    refine .trans ?_ (evictAll_mutates trivial _ _)
    unfold evicting
    split
    · split
      · exact .single (.settings _ processor.database.policy trivial)
      · exact .refl
    · exact .refl
  obtain ⟨_, policy, _, database⟩ | ⟨handler, ran, _, _, database⟩ :=
    processor.execute_cases healthy now arguments
  · rw [database]
    exact .tail evictions (.settings (processor.evicted arguments).memoryLimit policy trivial)
  · rw [database]
    obtain ⟨spec, found, data⟩ := resolve_of_dispatched ran
    have le : (dataPermits handler arguments K now).Le (permits arguments K now) :=
      ⟨fun later => ⟨later.1, spec, handler, found, data, later.2⟩, id, fun _ => trivial, fun _ => trivial, fun _ => trivial, fun _ => trivial⟩
    have steps : Mutations (permits arguments K now) (processor.evicted arguments)
        (handler.run arguments now ⟨processor.evicted arguments, aof.attached, []⟩).2.store :=
      (handler.run_mutates arguments now allowed ⟨_, _, _⟩).mono le
    exact .trans evictions steps

/-- Without a memory limit a data command evicts nothing and is always run. -/
lemma unlimited {spec : CommandSpec} {handler : DataHandler} {processor : Processor}
    (found : resolve arguments = .dispatch spec) (data : spec.handler = .data handler)
    (unlimited : processor.database.memoryLimit = 0) :
    processor.dispatched arguments = some handler ∧
      processor.evicted arguments = processor.database := by
  have other : spec.handler = .server .config → configLimit arguments = none := by
    rw [data]
    exact HandlerName.noConfusion
  constructor
  · simp [dispatched, found, data, evictsEnough_of_unlimited unlimited]
  · rw [evicted, evicting_of_other found other]
    dsimp only
    rw [victims_of_unlimited unlimited, ite_self]
    rfl

end Processor

end Cases

end FlashKV
