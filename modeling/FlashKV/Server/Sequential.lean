import FlashKV.Command.Aggregates
import FlashKV.Database.Index
import FlashKV.Persistence.Restart

/-!
# One action after the other

`Sequential` is a server without buffers: it takes one action after the other, from whatever client,
and keeps what it has answered and what it has propagated. It is what the event loop has to look
like to its clients, and the invariants of the shared state are proved here.
-/

namespace FlashKV

open Database

/-- An action on the shared state. -/
inductive Action where
  /-- A request of a client; `aof` is what the processor sees of the log. -/
  | request (client : Nat) (aof : AofStatus) (now : Int) (arguments : List Bytes)
  | cycle (choices : CycleChoices) (samplesPerLoop : Nat) (now : Int)
  | accepted (connected : Nat)
  | closed (connected : Nat)

/-- Requests see the log in an allowed state, and cycles run at allowed times. -/
def Action.Sees (allowed : AofStatus → Prop) (ticks : Int → Prop) : Action → Prop
  | .request _ aof _ _ => allowed aof
  | .cycle _ _ now => ticks now
  | _ => True

lemma Action.Sees.imp {allowed allowed' : AofStatus → Prop} {ticks ticks' : Int → Prop}
    {action : Action} (h : action.Sees allowed ticks) (status : ∀ aof, allowed aof → allowed' aof)
    (times : ∀ now, ticks now → ticks' now) : action.Sees allowed' ticks' := by
  cases action with
  | request client aof now arguments => exact status aof h
  | cycle choices samplesPerLoop now => exact times now h
  | accepted | closed => trivial

/-- A request that has been answered, with the processor that has answered it. -/
structure Answered where
  client : Nat
  now : Int
  arguments : List Bytes
  before : Processor
  payload : Bytes

/-- A server that takes one action after the other. -/
structure Sequential where
  processor : Processor
  records : List (List Bytes) := []
  answered : List Answered := []

namespace Sequential

def step (s : Sequential) : Action → Sequential
  | .request client aof now arguments =>
    let (reply, records, processor) := s.processor.execute aof now arguments
    { processor := processor
      records := s.records ++ records
      answered := s.answered ++ [⟨client, now, arguments, s.processor, reply.payload⟩] }
  | .cycle choices samplesPerLoop now =>
    let database := (activeExpireCycle choices samplesPerLoop now s.processor.database).2
    { s with processor := { s.processor with database := database } }
  | .accepted connected =>
    let stats := { s.processor.stats with
      totalConnections := s.processor.stats.totalConnections + 1
      connectedClients := connected }
    { s with processor := { s.processor with stats := stats } }
  | .closed connected =>
    let stats := { s.processor.stats with connectedClients := connected }
    { s with processor := { s.processor with stats := stats } }

def run (s : Sequential) (actions : List Action) : Sequential :=
  actions.foldl step s

/-- The run that starts with a processor. -/
def of (start : Processor) (actions : List Action) : Sequential :=
  run { processor := start } actions

lemma run_append (s : Sequential) (first second : List Action) :
    s.run (first ++ second) = (s.run first).run second :=
  List.foldl_append

/-- A sequence keeps the answers and the records that it has. -/
lemma run_grows (s : Sequential) (actions : List Action) :
    s.answered <+: (s.run actions).answered ∧ s.records <+: (s.run actions).records := by
  induction actions using List.reverseRecOn with
  | nil => exact ⟨List.prefix_rfl, List.prefix_rfl⟩
  | append_singleton actions action ih =>
    rw [run_append]
    cases action with
    | request client aof now arguments =>
      exact ⟨ih.1.trans (List.prefix_append _ _), ih.2.trans (List.prefix_append _ _)⟩
    | cycle | accepted | closed => exact ih

end Sequential

/-! ### The database -/

/-- The invariants of the storage engine. -/
structure Database.Intact (db : Database) : Prop where
  linked : db.Linked
  indexed : db.Indexed
  accounted : db.Accounted
  noneEmpty : db.NoneEmpty

section Intact

variable {processor : Processor} {s : Sequential}

lemma intact_empty (limit : Nat) (policy : EvictionPolicy) :
    (emptyProcessor limit policy).database.Intact where
  linked := linked_empty.congr rfl rfl rfl
  indexed := indexed_empty.congr (fun _ => rfl) rfl
  accounted := ⟨accounted_empty.entry, accounted_empty.total, accounted_empty.underflows⟩
  noneEmpty _ _ present := by cases present

lemma Database.Intact.settings {db : Database} (h : db.Intact) (limit : Nat) (policy : EvictionPolicy) :
    Intact { db with memoryLimit := limit, policy := policy } where
  linked := h.linked.congr rfl rfl rfl
  indexed := h.indexed.congr (fun _ => rfl) rfl
  accounted := ⟨h.accounted.entry, h.accounted.total, h.accounted.underflows⟩
  noneEmpty := h.noneEmpty

/-- A command keeps the database intact, unless it runs before the epoch. -/
lemma Database.Intact.execute (h : processor.database.Intact) (aof : AofStatus) {now : Int}
    (late : noExpiry ≤ now) (arguments : List Bytes) :
    (processor.execute aof now arguments).2.2.database.Intact := by
  have steps := processor.execute_mutates_any (K := fun _ => True) aof now arguments
    fun _ _ => trivial
  have proper : ∀ deadline, now < deadline ∧ AsksDeadline arguments now deadline →
      deadline ≠ noExpiry :=
    fun deadline future => (lt_of_le_of_lt late future.1).ne'
  constructor
  · exact steps.preserves (fun _ _ m linked => linked.mutation m) h.linked
  · exact steps.preserves (fun _ _ m indexed => indexed.mutation proper m) h.indexed
  · exact steps.preserves (fun _ _ m accounted => accounted.mutation m) h.accounted
  · exact processor.noneEmpty_execute h.noneEmpty aof now arguments

lemma Database.Intact.activeExpireCycle {db : Database} (h : db.Intact) (choices : CycleChoices)
    (samplesPerLoop : Nat) (now : Int) :
    (Database.activeExpireCycle choices samplesPerLoop now db).2.Intact := by
  have steps : Mutations .erasing db
      (Database.activeExpireCycle choices samplesPerLoop now db).2 :=
    activeExpireCycle_mutates trivial
  constructor
  · exact steps.preserves (fun _ _ m linked => linked.mutation m) h.linked
  · exact steps.preserves
      (fun _ _ m indexed => indexed.mutation (fun _ (never : False) => never.elim) m) h.indexed
  · exact steps.preserves (fun _ _ m accounted => accounted.mutation m) h.accounted
  · exact h.noneEmpty.erasing steps

/-- No action runs before the epoch: the database stays intact. -/
lemma Sequential.run_intact (intact : s.processor.database.Intact) (actions : List Action)
    (late : ∀ answered ∈ (s.run actions).answered, noExpiry ≤ answered.now) :
    (s.run actions).processor.database.Intact := by
  induction actions using List.reverseRecOn with
  | nil => exact intact
  | append_singleton actions action ih =>
    rw [Sequential.run_append] at late ⊢
    cases action with
    | request client aof now arguments =>
      obtain ⟨earlier, here⟩ := List.forall_mem_append.mp late
      exact (ih earlier).execute aof (here _ (List.mem_singleton_self _)) arguments
    | cycle choices samplesPerLoop now => exact (ih late).activeExpireCycle _ _ _
    | accepted | closed => exact ih late

end Intact

/-! ### The records -/

section Records

variable {processor : Processor} {s : Sequential}

/-- When the log has failed, a command does what it does with a healthy log, or it propagates
nothing and leaves the database alone. -/
lemma Processor.execute_failed (now : Int) (arguments : List Bytes) (processor : Processor) :
    (processor.execute .failed now arguments).2 = (processor.execute .healthy now arguments).2 ∨
    ((processor.execute .failed now arguments).2.1 = [] ∧
      (processor.execute .failed now arguments).2.2.database = processor.database) := by
  by_cases empty : arguments = []
  · subst empty
    exact .inl rfl
  · unfold execute
    simp only [if_neg empty]
    cases resolve arguments with
    | quit | unknown | wrongArity => exact .inl rfl
    | dispatch spec =>
      cases write : spec.write with
      | true =>
        simp only [CommandSpec.execute, write]
        exact .inr ⟨rfl, rfl⟩
      | false =>
        refine .inl ?_
        simp only [CommandSpec.execute, write, Bool.false_eq_true, if_false, CommandSpec.run]
        cases spec.handler with
        | data handler => rfl
        | server handler =>
          cases handler with
          | dbsize | info | memory => rfl
          | config =>
            exact congrArg (fun session : Session Database => (session.records,
              ({ processor with
                stats := { processor.stats with totalCommands := processor.stats.totalCommands + 1 }
                database := session.store } : Processor))) (config_state _ _ _ _ _)

/-- A command in any state of the log propagates what it propagates with a log that has not failed,
or nothing. -/
lemma Processor.execute_records (aof : AofStatus) (now : Int) (arguments : List Bytes)
    (processor : Processor) :
    (processor.execute aof now arguments).2.1 = [] ∨
    ∃ status, status ≠ AofStatus.failed ∧ (processor.execute aof now arguments).2.1 =
      (processor.execute status now arguments).2.1 := by
  cases aof with
  | detached => exact .inr ⟨.detached, by decide, rfl⟩
  | healthy => exact .inr ⟨.healthy, by decide, rfl⟩
  | failed =>
    rcases processor.execute_failed now arguments with same | ⟨none, _⟩
    · exact .inr ⟨.healthy, by decide, congrArg Prod.fst same⟩
    · exact .inl none

/-- Every key of the database is short enough for a record. -/
abbrev Database.KeysFit (db : Database) : Prop :=
  db.LruKeys fun key => key.length ≤ maxBulkSize

/-- The records of a command are commands; they are within the parser's limits if the command and
the keys of the database are. -/
lemma Processor.execute_recorded (aof : AofStatus) (now : Int) {arguments : List Bytes} :
    ∀ record ∈ (processor.execute aof now arguments).2.1, record ≠ [] ∧
      (WithinLimits arguments → processor.database.KeysFit → WithinLimits record) := by
  intro record recorded
  rcases processor.execute_records aof now arguments with none | ⟨status, healthy, same⟩
  · rw [none] at recorded
    cases recorded
  · rw [same] at recorded
    have given : arguments ≠ [] := by
      rintro rfl
      cases recorded
    rcases Processor.execute_written healthy processor record recorded with
      written | ⟨victim, evicted, rfl⟩
    · exact ⟨written.ne_nil given, fun within _ => written.within within⟩
    · refine ⟨List.cons_ne_nil _ _, fun _ keys => delRecord_within ?_⟩
      exact evicting_of_lruKeys arguments keys victim evicted

lemma Processor.execute_keysFit (aof : AofStatus) (now : Int) {arguments : List Bytes}
    (within : WithinLimits arguments) (keys : processor.database.KeysFit) :
    (processor.execute aof now arguments).2.2.database.KeysFit := by
  have steps := processor.execute_mutates_any (K := fun key => key.length ≤ maxBulkSize) aof now
    arguments fun argument mem => within.2 argument (List.mem_of_mem_drop mem)
  exact steps.preserves (fun _ _ m h => h.mutation (fun _ k => k) m) keys

/-- Requests within the parser's limits propagate records within them. -/
lemma Sequential.run_records (keys : s.processor.database.KeysFit) (actions : List Action)
    (within : ∀ answered ∈ (s.run actions).answered, WithinLimits answered.arguments)
    (initial : ∀ record ∈ s.records, record ≠ [] ∧ WithinLimits record) :
    (∀ record ∈ (s.run actions).records, record ≠ [] ∧ WithinLimits record) ∧
      (s.run actions).processor.database.KeysFit := by
  induction actions using List.reverseRecOn with
  | nil => exact ⟨initial, keys⟩
  | append_singleton actions action ih =>
    rw [Sequential.run_append] at within ⊢
    cases action with
    | request client aof now arguments =>
      obtain ⟨earlier, here⟩ := List.forall_mem_append.mp within
      have fits : WithinLimits arguments := here _ (List.mem_singleton_self _)
      obtain ⟨records, keys⟩ := ih earlier
      refine ⟨List.forall_mem_append.mpr ⟨records, fun record mem => ?_⟩,
        (s.run actions).processor.execute_keysFit aof now fits keys⟩
      obtain ⟨command, limits⟩ := Processor.execute_recorded aof now record mem
      exact ⟨command, limits fits keys⟩
    | cycle choices samplesPerLoop now =>
      obtain ⟨records, keys⟩ := ih within
      have steps : Mutations .erasing (s.run actions).processor.database
          (activeExpireCycle choices samplesPerLoop now (s.run actions).processor.database).2 :=
        activeExpireCycle_mutates trivial
      exact ⟨records, steps.preserves (fun _ _ m h => h.mutation nofun m) keys⟩
    | accepted | closed => exact ih within

end Records

end FlashKV
