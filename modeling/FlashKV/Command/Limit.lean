import FlashKV.Command.Frame

/-!
# The memory limit under noeviction

While memory use is over the limit and nothing may be evicted, commands that can make a value grow
are refused. All others are dispatched, and they do not raise the memory use.
-/

namespace FlashKV

open StateAction Database

/-- Memory use is over the limit, and nothing may be evicted. -/
structure Database.Held (db : Database) : Prop where
  limited : 0 < db.memoryLimit
  noEviction : db.policy = .noEviction
  large : db.memoryLimit < db.memoryUsed

/-- The command is `CONFIG SET`. -/
def ConfigSet (arguments : List Bytes) : Prop :=
  uppercase (arguments.headD []) = ascii "CONFIG" ∧ arguments[1]?.map uppercase = some (ascii "SET")

instance (arguments : List Bytes) : Decidable (ConfigSet arguments) :=
  inferInstanceAs (Decidable (_ ∧ _))

/-- The answer to a command that may not use more memory. -/
def oomPayload : Bytes :=
  respErrorWithCode (ascii "OOM") (ascii "command not allowed when used memory > 'maxmemory'.")

section Held

variable {db : Database} {aof : AofStatus} {arguments : List Bytes} {now : Int}

lemma Database.Held.evictsEnough (h : db.Held) : db.evictsEnough = false := by
  unfold Database.evictsEnough evictIfNeeded
  rw [if_neg h.limited.ne']
  unfold evictLoop
  rw [if_neg (Nat.not_le.mpr h.large), if_pos h.noEviction]

lemma Database.Held.victims (h : db.Held) : db.victims = [] :=
  victims_of_idle fun due => due.2.2 h.noEviction

/-- A command that is refused when memory is short is a write command. -/
lemma write_of_denyOom {spec : CommandSpec} (found : resolve arguments = .dispatch spec)
    (deny : spec.denyOom = true) : spec.write = true := by
  have table : ∀ entry ∈ commandTable, entry.2.denyOom = true → entry.2.write = true := by decide
  exact table _ (mem_of_lookup (resolve_dispatch found).1) deny

def HandlerName.grows : HandlerName → Bool
  | .data handler => handler.grows
  | .server _ => false

/-- A command that can make a value grow is refused when memory is short. -/
lemma denyOom_of_grows {spec : CommandSpec} {handler : DataHandler}
    (found : resolve arguments = .dispatch spec) (data : spec.handler = .data handler)
    (grows : handler.grows = true) : spec.denyOom = true := by
  have table : ∀ entry ∈ commandTable, entry.2.handler.grows = true → entry.2.denyOom = true := by
    decide
  exact table _ (mem_of_lookup (resolve_dispatch found).1) (by rw [data]; exact grows)

/-- What becomes of a command while memory is short. -/
lemma CommandSpec.execute_held {spec : CommandSpec} (found : resolve arguments = .dispatch spec)
    (h : db.Held) (stats : ServerStats) (aof : AofStatus) (now : Int) (attached : Bool) :
    spec.execute stats aof arguments now ⟨db, attached, []⟩ =
      if spec.write ∧ aof = .failed then
        (.ok (respErrorWithCode (ascii "MISCONF")
          (ascii "Errors writing to the AOF file. Write commands are disabled.")), ⟨db, attached, []⟩)
      else if spec.denyOom then (.ok oomPayload, ⟨db, attached, []⟩)
      else spec.run stats aof arguments now ⟨db, attached, []⟩ := by
  have evict : evictBefore ⟨db, attached, []⟩ = (.ok false, ⟨db, attached, []⟩) := by
    rw [evictBefore_apply, h.evictsEnough, h.victims]
    cases attached <;> rfl
  unfold CommandSpec.execute
  cases write : spec.write with
  | false =>
    cases deny : spec.denyOom with
    | true =>
      rw [write_of_denyOom found deny] at write
      cases write
    | false => simp
  | true =>
    by_cases failed : aof = .failed
    · simp [failed]
    · simp only [failed, if_false, if_true, and_false]
      rw [bind_of_ok evict]
      cases deny : spec.denyOom <;> rfl

/-- `CONFIG` without `SET` changes nothing. -/
lemma config_reads {stats : ServerStats} (notSet : ¬ arguments[1]?.map uppercase = some (ascii "SET"))
    (session : Session Database) : (Handler.config stats aof arguments session).2 = session := by
  unfold Handler.config Handler.argument
  cases second : arguments[1]? with
  | none => rfl
  | some subcommand =>
    have other : ¬ uppercase subcommand = ascii "SET" := by
      rw [second] at notSet
      exact fun e => notSet (congrArg some e)
    show ((if uppercase subcommand = ascii "GET" ∧ arguments.length = 3 then _
      else if uppercase subcommand = ascii "SET" ∧ arguments.length = 4 then _
      else pure _ : Handling Database Bytes) session).2 = session
    rw [if_neg fun h : _ ∧ arguments.length = 4 => other h.1]
    split
    · cases arguments[2]? <;> rfl
    · rfl

/-- A handler that is dispatched while memory is short keeps the settings and does not raise the
memory use. -/
lemma CommandSpec.run_held {spec : CommandSpec} (found : resolve arguments = .dispatch spec)
    (notSet : ¬ ConfigSet arguments) (deny : spec.denyOom = false) (accounted : db.Accounted)
    (stats : ServerStats) (attached : Bool) :
    let after := (spec.run stats aof arguments now ⟨db, attached, []⟩).2.store
    after.settings = db.settings ∧ after.memoryUsed ≤ db.memoryUsed := by
  unfold CommandSpec.run
  cases name : spec.handler with
  | data handler =>
    have shrinks : ¬ (dataPermits handler arguments (fun _ => True) now).grow := by
      intro grows
      rw [denyOom_of_grows found name grows] at deny
      cases deny
    have steps := handler.run_mutates (K := fun _ => True) arguments now (fun _ _ => trivial)
      ⟨db, attached, []⟩
    exact ⟨steps.settings_eq id, accounted.memoryUsed_mutations_le shrinks steps⟩
  | server handler =>
    have same : (handler.run stats aof arguments now ⟨db, attached, []⟩).2 = ⟨db, attached, []⟩ := by
      cases handler with
      | dbsize | info => rfl
      | memory => exact memory_keeps _
      | config =>
        refine config_reads (fun set => notSet ⟨?_, set⟩) _
        have table : ∀ entry ∈ commandTable, entry.2.handler = .server .config →
            entry.1 = ascii "CONFIG" := by decide
        exact table _ (mem_of_lookup (resolve_dispatch found).1) name
    dsimp only
    rw [same]
    exact ⟨rfl, le_rfl⟩

end Held

namespace Processor

variable {processor : Processor} {arguments : List Bytes} {now : Int} {aof : AofStatus}

/-- The processor with one more command in its statistics. -/
def counted (processor : Processor) : Processor :=
  { processor with
    stats := { processor.stats with totalCommands := processor.stats.totalCommands + 1 } }

/-- A command whose name and arity are fine is handed to the last part of `execute`. -/
lemma execute_of_dispatch {spec : CommandSpec} (found : resolve arguments = .dispatch spec) :
    processor.execute aof now arguments =
      let (outcome, session) := spec.execute processor.counted.stats aof arguments now
        ⟨processor.database, aof.attached, []⟩
      (⟨payloadOf outcome, false⟩, session.records,
        { processor.counted with database := session.store }) := by
  have given : arguments ≠ [] := by
    rintro rfl
    cases found
  unfold execute
  rw [if_neg given, found]
  rfl

/-- The command was handed to its handler. -/
def Dispatches (processor : Processor) (spec : CommandSpec) (aof : AofStatus) (now : Int)
    (arguments : List Bytes) : Prop :=
  processor.execute aof now arguments =
    let (outcome, session) := spec.run processor.counted.stats aof arguments now
      ⟨processor.database, aof.attached, []⟩
    (⟨payloadOf outcome, false⟩, session.records,
      { processor.counted with database := session.store })

/-- While memory is short, a command is refused or dispatched. -/
lemma execute_held {spec : CommandSpec} (held : processor.database.Held) (healthy : aof ≠ .failed)
    (found : resolve arguments = .dispatch spec) :
    if spec.denyOom then
      processor.execute aof now arguments = (⟨oomPayload, false⟩, [], processor.counted)
    else processor.Dispatches spec aof now arguments := by
  have run := CommandSpec.execute_held found held processor.counted.stats aof now aof.attached
  rw [if_neg fun h : _ ∧ aof = .failed => healthy h.2] at run
  unfold Dispatches
  rw [execute_of_dispatch found, run]
  cases spec.denyOom <;> rfl

/-- While memory is short, an event keeps the settings and does not raise the memory use. -/
lemma next_held (aof : AofStatus) (event : Event) (held : processor.database.Held)
    (accounted : processor.database.Accounted)
    (notSet : ∀ now arguments, event = .command now arguments → ¬ ConfigSet arguments) :
    (processor.next aof event).database.settings = processor.database.settings ∧
    (processor.next aof event).database.memoryUsed ≤ processor.database.memoryUsed := by
  cases event with
  | cycle choices samplesPerLoop now =>
    have steps : Mutations .erasing processor.database
        (activeExpireCycle choices samplesPerLoop now processor.database).2 :=
      activeExpireCycle_mutates trivial
    exact ⟨steps.settings_eq id, accounted.memoryUsed_mutations_le id steps⟩
  | command now arguments =>
    show (processor.execute aof now arguments).2.2.database.settings = _ ∧
      (processor.execute aof now arguments).2.2.database.memoryUsed ≤ _
    by_cases empty : arguments = []
    · subst empty
      exact ⟨rfl, le_rfl⟩
    · cases found : resolve arguments with
      | quit | unknown | wrongArity =>
        unfold execute
        rw [if_neg empty, found]
        exact ⟨rfl, le_rfl⟩
      | dispatch spec =>
        rw [execute_of_dispatch found]
        show (spec.execute _ aof arguments now _).2.store.settings = _ ∧
          (spec.execute _ aof arguments now _).2.store.memoryUsed ≤ _
        rw [CommandSpec.execute_held found held]
        split
        · exact ⟨rfl, le_rfl⟩
        · cases deny : spec.denyOom with
          | true => exact ⟨rfl, le_rfl⟩
          | false =>
            exact CommandSpec.run_held found (notSet now arguments rfl) deny accounted
              processor.counted.stats aof.attached

/-- Memory stays short as long as it has not dropped to the limit. -/
lemma after_held (events : List (AofStatus × Event)) (reachable : processor.Reachable)
    (held : processor.database.Held)
    (notSet : ∀ event ∈ events, ∀ now arguments, event.2 = .command now arguments →
      ¬ ConfigSet arguments)
    (large : ∀ earlier, earlier <+: events →
      (processor.after earlier).database.memoryLimit < (processor.after earlier).database.memoryUsed) :
    (processor.after events).database.Held := by
  induction events generalizing processor with
  | nil => exact held
  | cons event events ih =>
    obtain ⟨settings, _⟩ := next_held event.1 event.2 held reachable.accounted
      (notSet event List.mem_cons_self)
    have first := large [event] (List.prefix_append [event] events)
    refine ih (reachable.next event.1 event.2) ⟨?_, ?_, first⟩ ?_ ?_
    · exact held.limited.trans_eq (congrArg Prod.fst settings).symm
    · exact (congrArg Prod.snd settings).trans held.noEviction
    · exact fun other mem => notSet other (List.mem_cons_of_mem event mem)
    · exact fun earlier cut => large (event :: earlier) ((List.prefix_cons_inj event).mpr cut)

/-- Under noeviction, memory never grows while it is over the limit: from any reachable state in
which it is, and over any events but `CONFIG SET`, each event leaves memory use the same or lowers
it, until it is within the limit; and until then the commands that are marked as growing are
answered with the error for memory and all others are dispatched, unless the log has failed. -/
theorem memory_held (reachable : processor.Reachable) (held : processor.database.Held)
    (before : List (AofStatus × Event)) (aof : AofStatus) (event : Event)
    (notSet : ∀ e ∈ before ++ [(aof, event)], ∀ now arguments, e.2 = .command now arguments →
      ¬ ConfigSet arguments)
    (large : ∀ earlier, earlier <+: before →
      (processor.after earlier).database.memoryLimit < (processor.after earlier).database.memoryUsed) :
    let current := processor.after before
    (current.next aof event).database.memoryUsed ≤ current.database.memoryUsed ∧
    ∀ now arguments spec, event = .command now arguments → aof ≠ .failed →
      resolve arguments = .dispatch spec →
      if spec.denyOom then
        current.execute aof now arguments = (⟨oomPayload, false⟩, [], current.counted)
      else current.Dispatches spec aof now arguments := by
  intro current
  have held' : current.database.Held := after_held before reachable held
    (fun e mem => notSet e (List.mem_append_left _ mem)) large
  refine ⟨?_, fun now arguments spec _ healthy found => execute_held held' healthy found⟩
  exact (next_held aof event held' (reachable.after before).accounted
    (notSet (aof, event) (by simp))).2

/-- A push that is refused after a list has been popped. -/
theorem memory_held_refused :
    let processor := (emptyProcessor 0 .noEviction).after
      [(.healthy, .command 0 [ascii "RPUSH", ascii "l", ascii "a", ascii "b"]),
        (.healthy, .command 0 [ascii "CONFIG", ascii "SET", ascii "maxmemory", ascii "1"])]
    let current := processor.after [(.healthy, .command 1 [ascii "LPOP", ascii "l"])]
    let push : Event := .command 2 [ascii "RPUSH", ascii "l", ascii "a"]
    (current.next .healthy push).database.memoryUsed ≤ current.database.memoryUsed ∧
    ∀ now arguments spec, push = .command now arguments → AofStatus.healthy ≠ .failed →
      resolve arguments = .dispatch spec →
      if spec.denyOom then
        current.execute .healthy now arguments = (⟨oomPayload, false⟩, [], current.counted)
      else current.Dispatches spec .healthy now arguments := by
  refine memory_held ?_ ⟨?_, ?_, ?_⟩ _ _ _ ?_ ?_
  · exact Reachable.after (.start {} 0 .noEviction) _
  · decide +kernel
  · decide +kernel
  · decide +kernel
  · intro e mem now arguments same
    rcases List.mem_cons.mp mem with rfl | mem
    · cases same
      decide
    · rw [List.mem_singleton.mp mem] at same
      cases same
      decide
  · intro earlier cut
    rw [← List.mem_inits] at cut
    rcases List.mem_cons.mp cut with rfl | cut
    · decide +kernel
    · rw [List.mem_singleton.mp cut]
      decide +kernel

end Processor

end FlashKV
