import FlashKV.Command.Reachable
import FlashKV.Database.Frame

/-!
# Commands disturb only the keys they name

When no eviction is due, a command changes nothing that is stored for the keys it does not name, and
these keys stay in their order of recency.
-/

namespace FlashKV

open Database

/-- The command is none of those with the given names. -/
def Other (names : List String) (arguments : List Bytes) : Prop :=
  ∀ name ∈ names, uppercase (arguments.headD []) ≠ ascii name

instance (names : List String) (arguments : List Bytes) : Decidable (Other names arguments) :=
  inferInstanceAs (Decidable (∀ name ∈ names, _))

section Frame

variable {processor : Processor} {arguments : List Bytes}

/-- The handler of a command is the one under its name. -/
lemma Other.handler {names : List String} {handler : HandlerName} (other : Other names arguments)
    (table : ∀ entry ∈ commandTable, entry.2.handler = handler → ∃ name ∈ names, entry.1 = ascii name)
    {spec : CommandSpec} (found : resolve arguments = .dispatch spec) : spec.handler ≠ handler := by
  intro e
  obtain ⟨name, mem, same⟩ := table _ (mem_of_lookup (resolve_dispatch found).1) e
  exact other name mem same

/-- A command other than `CONFIG` evicts only if that is due. -/
lemma Processor.evicted_of_idle (idle : ¬ processor.database.EvictionDue)
    (other : Other ["CONFIG"] arguments) : processor.evicted arguments = processor.database := by
  have nothing : processor.evicting arguments = (processor.database, []) := by
    cases found : resolve arguments with
    | quit | unknown | wrongArity => simp only [evicting, found]
    | dispatch spec =>
      have config : spec.handler ≠ .server .config := other.handler (by decide) found
      rw [evicting_of_other found fun e => absurd e config, victims_of_idle idle, ite_self]
  rw [evicted, nothing]
  rfl

/-- Commands disturb only the keys they name: when no eviction is due, a command other than
`FLUSHALL`, `FLUSHDB` and `CONFIG` keeps what is stored for every key that is not among its
arguments, it keeps these keys in their order of recency, and a key among its arguments changes
place only by leaving the list or by moving in front of all others. -/
theorem execute_disturbs (reachable : processor.Reachable)
    (idle : ¬ processor.database.EvictionDue) (aof : AofStatus) (now : Int) (arguments : List Bytes)
    (other : Other ["FLUSHALL", "FLUSHDB", "CONFIG"] arguments) :
    let after := (processor.execute aof now arguments).2.2.database
    (∀ key, key ∉ arguments.drop 1 → after.holding key = processor.database.holding key) ∧
    List.Disturbs (· ∈ arguments.drop 1) processor.database.keysByRecency after.keysByRecency := by
  intro after
  have same : after = processor.database ∨ ∃ status, status ≠ AofStatus.failed ∧
      after = (processor.execute status now arguments).2.2.database :=
    processor.execute_database aof now arguments
  rcases same with same | ⟨status, healthy, same⟩
  · rw [same]
    exact ⟨fun _ _ => rfl, .refl _⟩
  · have kept : processor.evicted arguments = processor.database :=
      Processor.evicted_of_idle idle fun name mem => other name (by
        rw [List.mem_singleton.mp mem]
        simp)
    obtain ⟨_, policy, _, database⟩ | ⟨handler, ran, _, _, database⟩ :=
      processor.execute_cases healthy now arguments
    · rw [same, database, kept]
      exact ⟨fun _ _ => rfl, .refl _⟩
    · obtain ⟨spec, found, data⟩ := Processor.resolve_of_dispatched ran
      have keeps : handler ≠ .flushall := by
        rintro rfl
        have flush : Other ["FLUSHALL", "FLUSHDB"] arguments :=
          fun name mem => other name (List.mem_append_left ["CONFIG"] mem)
        exact flush.handler (by decide) found data
      have steps : Mutations (dataPermits handler arguments (· ∈ arguments.drop 1) now)
          processor.database after := by
        rw [same, database, kept]
        exact handler.run_mutates arguments now (fun _ mem => mem) ⟨_, _, _⟩
      exact ⟨fun key unnamed => steps.frame id keeps unnamed,
        steps.disturbs (K := (· ∈ arguments.drop 1)) (fun _ named => named) reachable.linked id keeps⟩

/-- A key in the middle of the volatile keys is deleted next to one that is not named. -/
theorem execute_disturbs_swapped :
    let processor := (((emptyProcessor 0 .noEviction).execute .detached 0
      [ascii "SET", ascii "a", ascii "1", ascii "PX", ascii "9"]).2.2.execute .detached 1
      [ascii "SET", ascii "b", ascii "2", ascii "PX", ascii "9"]).2.2
    let after := (processor.execute .detached 2 [ascii "DEL", ascii "a"]).2.2.database
    (∀ key, key ∉ [ascii "a"] → after.holding key = processor.database.holding key) ∧
      List.Disturbs (· ∈ [ascii "a"]) processor.database.keysByRecency after.keysByRecency :=
  execute_disturbs (.next .detached (.command 1 _) (.next .detached (.command 0 _)
      (.start {} 0 .noEviction)))
    (by decide +kernel) .detached 2 [ascii "DEL", ascii "a"] (by decide)

end Frame

end FlashKV
