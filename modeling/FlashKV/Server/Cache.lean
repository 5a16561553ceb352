import FlashKV.Command.Growth
import FlashKV.Persistence.Rewritten
import FlashKV.Reference.Run
import FlashKV.Server.History

/-!
# The server is a cache

What the server is for, with all that can come between a client and the typed map: a memory limit
lets it forget entries, a log that has failed or memory that cannot be freed lets it refuse a write.
Otherwise the data commands are answered by the map; what the commands answer that look into the engine
(`DBSIZE`, `INFO`, `CONFIG`, `MEMORY`) is left open. `CacheRun` says so for a sequence of exchanges.
Every run of the event loop is such a run, whatever the clients, the interleaving, the settings and the
log do. It is assumed that the clock is read once for each request.
-/

namespace FlashKV

open StateAction Database

/-! ### The cache -/

section Cache

variable {c : Conventions}

/-- Nothing but some entries may be gone, and only if `may`. -/
def TypedMap.Forgets (may : Prop) (m kept : TypedMap c) : Prop :=
  kept = m ∨ may ∧ ∀ key slot, kept.find key = some slot → m.find key = some slot

/-- The answer to a write command while the log has failed. -/
def misconfPayload : Bytes :=
  respErrorWithCode (ascii "MISCONF")
    (ascii "Errors writing to the AOF file. Write commands are disabled.")

/-- One command on a cache that holds `m`: the payload, and what it holds afterwards. Its memory may be
limited, and its log may be failing. -/
inductive CacheAnswer (limited failing : Prop) (now : Int) (arguments : List Bytes) (m : TypedMap c) :
    Bytes → TypedMap c → Prop where
  /-- The answer of the typed map, after some entries have been forgotten. -/
  | answers {kept reply m'} :
    m.Forgets limited kept →
    kept.execute now arguments = (some reply, m') →
    CacheAnswer limited failing now arguments m reply.payload m'
  /-- A command that looks into the engine itself; any answer is allowed. -/
  | reports {kept} (payload : Bytes) :
    m.Forgets limited kept →
    kept.execute now arguments = (none, kept) →
    CacheAnswer limited failing now arguments m payload kept
  /-- A write command that is refused has no effect. -/
  | refuses {payload} :
    IsWrite arguments →
    payload = misconfPayload ∧ failing ∨ payload = oomPayload ∧ limited →
    CacheAnswer limited failing now arguments m payload m

/-- A request of a client and the payload of its reply. -/
structure Exchange where
  client : Nat
  now : Int
  arguments : List Bytes
  payload : Bytes
  deriving DecidableEq

/-- Exchanges with a cache, one after the other. -/
inductive CacheRun (limited failing : Prop) (start : TypedMap c) :
    List Exchange → TypedMap c → Prop where
  | nil :
    CacheRun limited failing start [] start
  | concat {exchanges exchange m m'} :
    CacheRun limited failing start exchanges m →
    CacheAnswer limited failing exchange.now exchange.arguments m exchange.payload m' →
    CacheRun limited failing start (exchanges ++ [exchange]) m'

lemma TypedMap.find_without (keys : List Bytes) {m : TypedMap .native} {a : Bytes} {slot : Slot}
    (found : (m.without keys).find a = some slot) : m.find a = some slot := by
  induction keys generalizing m with
  | nil => exact found
  | cons key keys ih =>
    have found := ih (m := m.put key none) found
    rw [TypedMap.find_put] at found
    by_cases same : a = key
    · rw [same, Function.update_self] at found
      cases found
    · rwa [Function.update_of_ne same] at found

lemma TypedMap.forgets_without {may : Prop} (keys : List Bytes) (m : TypedMap .native)
    (h : keys ≠ [] → may) : m.Forgets may (m.without keys) := by
  by_cases none_ : keys = []
  · subst none_
    exact .inl rfl
  · exact .inr ⟨h none_, fun _ _ => find_without keys⟩

end Cache

/-! ### One command -/

section Command

variable {limited failing : Prop} {now : Int} {arguments : List Bytes} {db : Database}
  {m : TypedMap .native} {processor : Processor}

/-- A database that has evicted keys shows a map without them. -/
lemma Shows.evictAll (victims : List Bytes) (shows : Shows now db m) :
    Shows now (db.evictAll victims) (m.without victims) := by
  induction victims generalizing db m with
  | nil => exact shows
  | cons victim victims ih =>
    have next : Shows now (db.evictOne victim) (m.put victim none) := by
      show (db.evictOne victim).view now = ((m.put victim none).purge now).find
      rw [evictOne, view_count, view_erase, TypedMap.purge_put, shows]
      rfl
    exact ih next

/-- A data handler answers as on the map that the database shows. -/
lemma DataHandler.run_shows (handler : DataHandler) (arguments : List Bytes)
    {session : Session Database} (shows : Shows now session.store m) :
    let engine := handler.run arguments now session
    let reference := handler.run arguments now ⟨m, false, []⟩
    engine.1 = reference.1 ∧ Shows now engine.2.store reference.2.store := by
  have sim : Simulates (fun (s : Session Database) t => Shows now s.store t.store)
      (handler.run arguments now) (handler.run (σ := TypedMap .native) arguments now) :=
    handler.run_simulates propagates_store (database_simulates now) (fun _ _ => trivial)
      (fun _ key _ => ttl_simulates now key) fun _ _ => trivial
  exact sim session ⟨m, false, []⟩ shows

/-- What the reference makes of a data command. -/
lemma TypedMap.execute_data {spec : CommandSpec} {handler : DataHandler}
    (found : resolve arguments = .dispatch spec) (data : spec.handler = .data handler)
    (m : TypedMap .native) :
    m.execute now arguments =
      (some ⟨payloadOf (handler.run arguments now ⟨m, false, []⟩).1, false⟩,
        (handler.run arguments now ⟨m, false, []⟩).2.store) := by
  have given : arguments ≠ [] := by
    rintro rfl
    cases found
  simp only [TypedMap.execute, if_neg given, found, data]

lemma TypedMap.execute_server {spec : CommandSpec} {handler : ServerHandler}
    (found : resolve arguments = .dispatch spec) (server : spec.handler = .server handler)
    (m : TypedMap .native) : m.execute now arguments = (none, m) := by
  have given : arguments ≠ [] := by
    rintro rfl
    cases found
  simp only [TypedMap.execute, if_neg given, found, server]

/-- Only `CONFIG` has this handler. -/
lemma name_of_config {spec : CommandSpec} (found : resolve arguments = .dispatch spec)
    (name : spec.handler = .server .config) : uppercase (arguments.headD []) = ascii "CONFIG" := by
  have table : ∀ entry ∈ commandTable, entry.2.handler = .server .config →
    entry.1 = ascii "CONFIG" := by decide
  exact table _ (mem_of_lookup (resolve_dispatch found).1) name

/-- A data command that is handed to its handler, after some entries have been forgotten. -/
lemma DataHandler.run_forgetful {spec : CommandSpec} {handler : DataHandler}
    (found : resolve arguments = .dispatch spec) (data : spec.handler = .data handler)
    {kept : TypedMap .native} (forgets : m.Forgets limited kept) {session : Session Database}
    (shows : Shows now session.store kept) :
    let run := handler.run arguments now session
    ∃ m', CacheAnswer limited failing now arguments m (payloadOf run.1) m' ∧ Shows now run.2.store m' := by
  intro run
  obtain ⟨outcome, shows'⟩ := handler.run_shows arguments shows
  refine ⟨_, ?_, shows'⟩
  rw [show run.1 = _ from outcome]
  exact .answers forgets (TypedMap.execute_data found data kept)

/-- What happens to a write command, after its evictions. -/
lemma CommandSpec.execute_caches {spec : CommandSpec} {handler : DataHandler} {aof : AofStatus}
    {stats : ServerStats} (found : resolve arguments = .dispatch spec)
    (data : spec.handler = .data handler) (linked : db.Linked) (accounted : db.Accounted)
    (shows : Shows now db m) (limit : db.memoryLimit ≠ 0 → limited)
    (fails : aof = .failed → failing) :
    let run := spec.execute stats aof arguments now ⟨db, aof.attached, []⟩
    ∃ m', CacheAnswer limited failing now arguments m (payloadOf run.1) m' ∧ Shows now run.2.store m' := by
  have forgets : m.Forgets limited (m.without db.victims) := by
    refine TypedMap.forgets_without _ m fun some_ => limit fun unlimited => ?_
    exact some_ (victims_of_unlimited unlimited)
  have evicted := shows.evictAll db.victims
  by_cases failed : spec.write = true ∧ aof = .failed
  · obtain ⟨write, rfl⟩ := failed
    refine ⟨m, ?_, ?_⟩
    · simp only [CommandSpec.execute, write, if_true]
      exact .refuses ⟨spec, found, write⟩ (.inl ⟨rfl, fails rfl⟩)
    · simp only [CommandSpec.execute, write, if_true]
      exact shows
  · cases write : spec.write with
    | false =>
      have run : spec.execute stats aof arguments now = handler.run arguments now := by
        simp only [CommandSpec.execute, write, CommandSpec.run, data, Bool.false_eq_true, if_false]
      rw [run]
      exact DataHandler.run_forgetful found data (.inl rfl) shows
    | true =>
      have healthy : aof ≠ .failed := fun e => failed ⟨write, e⟩
      rw [CommandSpec.execute_data healthy data, if_pos write]
      split
      · rename_i short
        -- with an eviction policy memory is never short, and without one nothing is evicted
        have policy : db.policy = .noEviction := by
          by_contra evicts
          exact short.2 (evictsEnough_of_evicts linked accounted evicts)
        have none_ : db.victims = [] := victims_of_idle fun due => due.2.2 policy
        have above : db.memoryLimit ≠ 0 :=
          fun unlimited => short.2 (evictsEnough_of_unlimited unlimited)
        refine ⟨m, .refuses ⟨spec, found, write⟩ (.inr ⟨rfl, limit above⟩), ?_⟩
        rw [none_]
        exact shows
      · exact DataHandler.run_forgetful found data forgets evicted

/-- A command is an exchange with the cache that the database shows. -/
lemma Processor.execute_caches (aof : AofStatus) (linked : processor.database.Linked)
    (accounted : processor.database.Accounted) (shows : Shows now processor.database m)
    (limit : processor.database.memoryLimit ≠ 0 → limited)
    (sets : setsLimit arguments = true → limited) (fails : aof = .failed → failing) :
    ∃ m', CacheAnswer limited failing now arguments m (processor.execute aof now arguments).1.payload m' ∧
      Shows now (processor.execute aof now arguments).2.2.database m' := by
  by_cases given : arguments = []
  · subst given
    exact ⟨m, .answers (.inl rfl) rfl, shows⟩
  · cases found : resolve arguments with
    | quit | unknown | wrongArity =>
      have answer : m.execute now arguments = (some (processor.execute aof now arguments).1, m) := by
        simp only [TypedMap.execute, execute, if_neg given, found]
      refine ⟨m, .answers (.inl rfl) answer, ?_⟩
      simp only [execute, if_neg given, found]
      exact shows
    | dispatch spec =>
      rw [execute_of_dispatch found]
      cases name : spec.handler with
      | data handler =>
        exact CommandSpec.execute_caches found name linked accounted shows limit fails
      | server handler =>
        rcases @CommandSpec.execute_server processor.counted.stats aof arguments now spec handler
          found name ⟨processor.database, aof.attached, []⟩ with
          ⟨rfl, bytes, configured, done⟩ | ⟨_, policy, done⟩
        · have isSet : setsLimit arguments = true := by
            rw [setsLimit, decide_eq_true_eq, configured]
            exact ⟨name_of_config found name, rfl⟩
          let db : Database := { processor.database with memoryLimit := bytes }
          refine ⟨m.without db.victims, ?_, ?_⟩
          · exact .reports _ (TypedMap.forgets_without _ m fun _ => sets isSet)
              (TypedMap.execute_server found name _)
          · dsimp only
            rw [done]
            have limited : Shows now db m := shows
            exact limited.evictAll db.victims
        · refine ⟨m, .reports _ (.inl rfl) (TypedMap.execute_server found name m), ?_⟩
          dsimp only
          rw [done]
          exact shows

/-- Only `CONFIG SET maxmemory` changes the limit. -/
lemma Processor.memoryLimit_execute (aof : AofStatus) (unset : ¬ setsLimit arguments = true) :
    (processor.execute aof now arguments).2.2.database.memoryLimit =
      processor.database.memoryLimit := by
  have evicted : (processor.evicted arguments).memoryLimit = processor.database.memoryLimit := by
    have start : (processor.evicting arguments).1 = processor.database := by
      cases found : resolve arguments with
      | quit | unknown | wrongArity => simp only [evicting, found]
      | dispatch spec =>
        rw [evicting_of_other found]
        intro config
        by_contra given
        have named := name_of_config found config
        exact unset (decide_eq_true ⟨named, Option.isSome_iff_ne_none.mpr given⟩)
    rw [Processor.evicted, start]
    exact (evictAll_mutates (p := .erasing) trivial _ _).memoryLimit id
  rcases processor.execute_database aof now arguments with same | ⟨status, healthy, same⟩
  · rw [same]
  · rw [same]
    obtain ⟨_, policy, _, database⟩ | ⟨handler, _, _, _, database⟩ :=
      processor.execute_cases healthy now arguments
    · rw [database]
      exact evicted
    · rw [database]
      have steps := handler.run_mutates (K := fun _ => True) arguments now (fun _ _ => trivial)
        ⟨processor.evicted arguments, status.attached, []⟩
      exact (steps.memoryLimit id).trans evicted

end Command

/-! ### Runs -/

def Answered.exchange (answered : Answered) : Exchange :=
  ⟨answered.client, answered.now, answered.arguments, answered.payload⟩

section Run

variable {limited failing : Prop} {clock : Nat → Int} {processor : Processor} {actions : List Action}

/-- No cycle has read the clock later than the next request does. -/
def CyclesTimed (clock : Nat → Int) (processor : Processor) (actions : List Action) : Prop :=
  ∀ before choices samplesPerLoop now after,
    actions = before ++ .cycle choices samplesPerLoop now :: after →
    now ≤ clock (Sequential.of processor before).answered.length

lemma CyclesTimed.init {action : Action} (h : CyclesTimed clock processor (actions ++ [action])) :
    CyclesTimed clock processor actions := by
  rintro before choices samplesPerLoop now after rfl
  exact h before choices samplesPerLoop now (after ++ [action]) (by simp)

/-- The requests have read the clock one after the other. -/
def RequestsTimed (clock : Nat → Int) (answered : List Answered) : Prop :=
  answered.map (·.now) = (List.range answered.length).map clock

lemma RequestsTimed.concat {answered : List Answered} {last : Answered}
    (h : RequestsTimed clock (answered ++ [last])) :
    RequestsTimed clock answered ∧ last.now = clock answered.length := by
  unfold RequestsTimed at h
  rw [List.map_append, List.length_append, List.length_singleton, List.range_succ, List.map_append]
    at h
  obtain ⟨earlier, here⟩ := List.append_inj' h rfl
  exact ⟨earlier, (List.cons.inj here).1⟩

/-- What a sequence of actions keeps: a cache that has made the same exchanges. -/
structure Sequential.Caches (limited failing : Prop) (clock : Nat → Int) (start : TypedMap .native)
    (s : Sequential) : Prop where
  run : ∃ m, CacheRun limited failing start (s.answered.map Answered.exchange) m ∧
    Shows (clock s.answered.length) s.processor.database m
  intact : s.processor.database.Intact
  limit : s.processor.database.memoryLimit ≠ 0 → limited

variable {start : TypedMap .native} {s : Sequential}

lemma Sequential.Caches.request (h : s.Caches limited failing clock start) (mono : Monotone clock)
    (late : ∀ i, noExpiry ≤ clock i) (client : Nat) (aof : AofStatus) {now : Int}
    {arguments : List Bytes} (timed : now = clock s.answered.length)
    (sets : setsLimit arguments = true → limited) (fails : aof = .failed → failing) :
    (s.step (.request client aof now arguments)).Caches limited failing clock start := by
  obtain ⟨⟨m, run, shows⟩, intact, limit⟩ := h
  subst timed
  obtain ⟨m', answer, shows'⟩ := Processor.execute_caches aof intact.linked
    intact.accounted shows limit sets fails
  refine ⟨⟨m', ?_, ?_⟩, intact.execute aof (late _) arguments, ?_⟩
  · simp only [step, List.map_append, List.map_cons, List.map_nil]
    exact .concat run answer
  · simp only [step, List.length_append, List.length_singleton]
    exact shows'.later (mono (Nat.le_succ _))
  · intro above
    by_cases isSet : setsLimit arguments = true
    · exact sets isSet
    · exact limit (fun zero => above ((Processor.memoryLimit_execute aof isSet).trans zero))

lemma Sequential.Caches.cycle (h : s.Caches limited failing clock start) (choices : CycleChoices)
    (samplesPerLoop : Nat) {now : Int} (timed : now ≤ clock s.answered.length) :
    (s.step (.cycle choices samplesPerLoop now)).Caches limited failing clock start := by
  obtain ⟨⟨m, run, shows⟩, intact, limit⟩ := h
  have same := (activeExpireCycle_view choices samplesPerLoop now intact.indexed).1
  have steps : Mutations .erasing s.processor.database
      (activeExpireCycle choices samplesPerLoop now s.processor.database).2 :=
    activeExpireCycle_mutates trivial
  refine ⟨⟨m, run, ?_⟩, intact.activeExpireCycle choices samplesPerLoop now, fun above => ?_⟩
  · exact (view_eq_later timed same).trans shows
  · exact limit fun zero => above ((steps.memoryLimit id).trans zero)

/-- A sequence of actions makes the exchanges of a cache. -/
lemma Sequential.of_caches (mono : Monotone clock) (late : ∀ i, noExpiry ≤ clock i)
    (intact : processor.database.Intact) (limit : processor.database.memoryLimit ≠ 0 → limited)
    (cycles : CyclesTimed clock processor actions)
    (requests : RequestsTimed clock (Sequential.of processor actions).answered)
    (sees : ∀ action ∈ actions, action.Sees (fun aof => aof = .failed → failing) fun _ => True)
    (sets : ∀ answered ∈ (Sequential.of processor actions).answered,
      setsLimit answered.arguments = true → limited) :
    (Sequential.of processor actions).Caches limited failing clock
      (processor.database.shown (clock 0)) := by
  induction actions using List.reverseRecOn with
  | nil => exact ⟨⟨_, .nil, shows_shown _ _⟩, intact, limit⟩
  | append_singleton actions action ih =>
    have next : Sequential.of processor (actions ++ [action]) =
        (Sequential.of processor actions).step action := Sequential.run_append _ _ _
    rw [next] at requests sets ⊢
    obtain ⟨sees', seesHere⟩ := List.forall_mem_append.mp sees
    cases action with
    | request client aof now arguments =>
      obtain ⟨earlier, here⟩ := RequestsTimed.concat requests
      obtain ⟨sets', setsHere⟩ := List.forall_mem_append.mp sets
      exact (ih cycles.init earlier sees' sets').request mono late client aof here
        (setsHere _ (List.mem_singleton_self _)) (seesHere _ (List.mem_singleton_self _))
    | cycle choices samplesPerLoop now =>
      exact (ih cycles.init requests sees' sets).cycle choices samplesPerLoop
        (cycles actions choices samplesPerLoop now [] rfl)
    | accepted connected | closed connected =>
      obtain ⟨run, intact', limit'⟩ := ih cycles.init requests sees' sets
      exact ⟨run, intact', limit'⟩

lemma CyclesTimed.append {more : List Action} {allowed : AofStatus → Prop}
    (h : CyclesTimed clock processor actions) (mono : Monotone clock)
    (sees : ∀ action ∈ more, action.Sees allowed
      (· ≤ clock (Sequential.of processor actions).answered.length)) :
    CyclesTimed clock processor (actions ++ more) := by
  intro before choices samplesPerLoop now after split
  rcases List.append_eq_append_iff.mp split with ⟨first, rfl, rest⟩ | ⟨rest, rfl, more_⟩
  · refine le_trans (sees (.cycle choices samplesPerLoop now) (by rw [rest]; simp)) (mono ?_)
    rw [show Sequential.of processor (actions ++ first) =
      (Sequential.of processor actions).run first from Sequential.run_append _ _ _]
    exact ((Sequential.of processor actions).run_grows first).1.length_le
  · cases rest with
    | nil =>
      rw [List.append_nil] at sees
      exact sees (.cycle choices samplesPerLoop now) (by rw [← List.nil_append more, ← more_]; simp)
    | cons action rest =>
      obtain ⟨rfl, _⟩ := List.cons.inj more_
      exact h before choices samplesPerLoop now rest rfl

end Run

section Server

variable {clock : Nat → Int} {core : Core}

/-- No cycle of the event loop reads the clock later than the next request does. -/
def TimelyCycles (clock : Nat → Int) (core : Core) (events : List ServerEvent) : Prop :=
  ∀ before choices samplesPerLoop now after,
    events = before ++ .cycle choices samplesPerLoop now :: after →
    now ≤ clock (Server.run clock { core := core } before).core.readings

/-- A run is a sequence of actions with its cycles in time. -/
lemma run_explains_timed (mono : Monotone clock) (events : List ServerEvent)
    (timely : TimelyCycles clock core events) :
    ∃ actions : List Action,
      CyclesTimed (fun i => clock (core.readings + i)) core.processor actions ∧
      (∀ action ∈ actions, action.Sees (·.attached = core.aof.isSome) fun _ => True) ∧
      Explains clock core actions (Server.run clock { core := core } events) := by
  have mono' : Monotone fun i => clock (core.readings + i) :=
    fun i j le => mono (Nat.add_le_add_left le _)
  induction events using List.reverseRecOn with
  | nil =>
    refine ⟨[], fun before choices samplesPerLoop now after split => ?_, nofun,
      explains_start clock core⟩
    cases List.append_eq_nil_iff.mp split.symm |>.2
  | append_singleton events event ih =>
    obtain ⟨actions, cycles, known, explains⟩ := ih fun before choices samplesPerLoop now after split =>
      timely before choices samplesPerLoop now (after ++ [event]) (by rw [split]; simp)
    obtain ⟨more, sees, explains'⟩ := explains.step
      (· ≤ clock (Server.run clock { core := core } events).core.readings) event
      fun choices samplesPerLoop now same =>
        timely events choices samplesPerLoop now [] (by rw [same])
    rw [explains.readings] at sees
    refine ⟨actions ++ more, cycles.append mono' sees, ?_, ?_⟩
    · refine List.forall_mem_append.mpr ⟨known, fun action mem => (sees action mem).imp ?_ ?_⟩
      · rintro aof rfl
        exact run_attached clock core events
      · exact fun _ _ => trivial
    · unfold Server.run at explains' ⊢
      rw [List.foldl_append]
      exact explains'

/-- Memory is limited at some time: at the start, or because a request says so. -/
def MayForget (core : Core) (exchanges : List Exchange) : Prop :=
  core.processor.database.memoryLimit ≠ 0 ∨
    ∃ exchange ∈ exchanges, setsLimit exchange.arguments = true

/-- A run is a sequence of actions that makes the exchanges of a cache. -/
lemma run_explains_caches (mono : Monotone clock) (late : ∀ i, noExpiry ≤ clock i)
    (intact : core.processor.database.Intact) (events : List ServerEvent)
    (timely : TimelyCycles clock core events) :
    ∃ actions : List Action, Explains clock core actions (Server.run clock { core := core } events) ∧
      let s := Sequential.of core.processor actions
      s.Caches (MayForget core (s.answered.map Answered.exchange)) (core.aof.isSome = true)
        (fun i => clock (core.readings + i)) (core.processor.database.shown (clock core.readings)) := by
  obtain ⟨actions, cycles, sees, explains⟩ := run_explains_timed mono events timely
  refine ⟨actions, explains, ?_⟩
  refine Sequential.of_caches (fun i j le => mono (Nat.add_le_add_left le _)) (fun i => late _)
    intact .inl cycles explains.times (fun action mem => ?_) fun answered mem isSet => .inr ?_
  · refine (sees action mem).imp (fun aof attached failed => ?_) fun _ => id
    rw [← attached, failed]
    rfl
  · exact ⟨answered.exchange, List.mem_map_of_mem mem, isSet⟩

/-- The exchanges of a client, among those of all clients. -/
lemma Explains.exchanges {actions : List Action} {server : Server}
    (h : Explains clock core actions server) (client : Nat) :
    ((Sequential.of core.processor actions).answered.map Answered.exchange).filter
      (·.client = client) = (server.answeredTo clock client).map Answered.exchange := by
  rw [← h.answers client, List.filter_map]
  rfl

end Server

end FlashKV
