import FlashKV.Command.Run
import FlashKV.Database.Memory

/-!
# Reachable processors

The states that any commands with any clock readings, in any state of the log, and any cycles of
active expiration lead to. In all of them the recency list is linked and the memory is accounted
for.
-/

namespace FlashKV

open StateAction Database

namespace Processor

/-- The processor after an event, with a log in the given state. -/
def next (aof : AofStatus) (processor : Processor) : Event → Processor
  | .command now arguments => (processor.execute aof now arguments).2.2
  | .cycle choices samplesPerLoop now =>
    { processor with
      database := (activeExpireCycle choices samplesPerLoop now processor.database).2 }

/-- The processor after a sequence of events, each with the state of the log at that time. -/
def after (processor : Processor) (events : List (AofStatus × Event)) : Processor :=
  events.foldl (fun processor event => processor.next event.1 event.2) processor

/-- The states that can be reached from an empty database. -/
inductive Reachable : Processor → Prop where
  | start (stats : ServerStats) (limit : Nat) (policy : EvictionPolicy) :
    Reachable { database := { memoryLimit := limit, policy := policy }, stats := stats }
  | next {processor} (aof : AofStatus) (event : Event) :
    Reachable processor →
    Reachable (processor.next aof event)

lemma Reachable.after {processor : Processor} (h : processor.Reachable)
    (events : List (AofStatus × Event)) : (processor.after events).Reachable := by
  induction events generalizing processor with
  | nil => exact h
  | cons event events ih => exact ih (h.next event.1 event.2)

end Processor

/-- What `CONFIG` does to the session does not depend on the state of the log. -/
lemma config_state (stats : ServerStats) (aof aof' : AofStatus) (arguments : List Bytes)
    (session : Session Database) :
    (Handler.config stats aof arguments session).2 =
      (Handler.config stats aof' arguments session).2 := by
  cases limit : configLimit arguments with
  | some bytes => rw [config_limit limit, config_limit limit]
  | none =>
    unfold Handler.config Handler.argument
    cases arguments[1]? with
    | none => rfl
    | some subcommand =>
      show ((if uppercase subcommand = ascii "GET" ∧ arguments.length = 3 then _
        else if uppercase subcommand = ascii "SET" ∧ arguments.length = 4 then _
        else pure _ : Handling Database Bytes) session).2 = ((if uppercase subcommand = ascii "GET" ∧
        arguments.length = 3 then _ else if uppercase subcommand = ascii "SET" ∧
        arguments.length = 4 then _ else pure _ : Handling Database Bytes) session).2
      split
      · cases arguments[2]? <;> rfl
      · rfl

namespace Processor

/-- A command in any state of the log does to the database what it does with a log that has not
failed, or nothing. -/
lemma execute_database (aof : AofStatus) (now : Int) (arguments : List Bytes) (processor : Processor) :
    (processor.execute aof now arguments).2.2.database = processor.database ∨
    ∃ status, status ≠ AofStatus.failed ∧ (processor.execute aof now arguments).2.2.database =
      (processor.execute status now arguments).2.2.database := by
  cases aof with
  | detached => exact .inr ⟨.detached, by decide, rfl⟩
  | healthy => exact .inr ⟨.healthy, by decide, rfl⟩
  | failed =>
    by_cases empty : arguments = []
    · subst empty
      exact .inl rfl
    · unfold execute
      simp only [if_neg empty]
      cases resolve arguments with
      | quit | unknown | wrongArity => exact .inl rfl
      | dispatch spec =>
        cases write : spec.write with
        | true =>
          simp only [CommandSpec.execute, write]
          exact .inl rfl
        | false =>
          refine .inr ⟨.healthy, by decide, ?_⟩
          simp only [CommandSpec.execute, write, Bool.false_eq_true, if_false, CommandSpec.run]
          cases spec.handler with
          | data handler => rfl
          | server handler =>
            cases handler with
            | dbsize | info | memory => rfl
            | config => exact congrArg (·.store) (config_state _ _ _ _ _)

/-- A command in any state of the log changes the database by permitted changes. -/
lemma execute_mutates_any {K : Bytes → Prop} (aof : AofStatus) (now : Int) (arguments : List Bytes)
    (allowed : ∀ argument ∈ arguments.drop 1, K argument) (processor : Processor) :
    Mutations (permits arguments K now) processor.database
      (processor.execute aof now arguments).2.2.database := by
  rcases processor.execute_database aof now arguments with same | ⟨status, healthy, same⟩
  · rw [same]
  · rw [same]
    exact processor.execute_mutates healthy now arguments allowed

/-- What every change keeps holds in every reachable state. -/
lemma Reachable.invariant {I : Database → Prop} {processor : Processor} (h : processor.Reachable)
    (start : ∀ limit policy, I { memoryLimit := limit, policy := policy })
    (step : ∀ {p : Permits} {db db' : Database}, Mutation p db db' → I db → I db') :
    I processor.database := by
  induction h with
  | start stats limit policy => exact start limit policy
  | @next processor aof event _ ih =>
    cases event with
    | command now arguments =>
      have steps := processor.execute_mutates_any (K := fun _ => True) aof now arguments
        fun _ _ => trivial
      exact steps.preserves (fun _ _ m => step m) ih
    | cycle choices samplesPerLoop now =>
      have steps : Mutations .erasing processor.database
          (activeExpireCycle choices samplesPerLoop now processor.database).2 :=
        activeExpireCycle_mutates trivial
      exact steps.preserves (fun _ _ m => step m) ih

lemma Reachable.linked {processor : Processor} (h : processor.Reachable) :
    processor.database.Linked :=
  h.invariant (fun _ _ => linked_empty.congr rfl rfl rfl) fun m linked => linked.mutation m

lemma Reachable.accounted {processor : Processor} (h : processor.Reachable) :
    processor.database.Accounted :=
  h.invariant (fun _ _ => ⟨accounted_empty.entry, accounted_empty.total, accounted_empty.underflows⟩)
    fun m accounted => accounted.mutation m

end Processor

end FlashKV
