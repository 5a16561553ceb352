import FlashKV.Command.Execution
import FlashKV.Database.ActiveExpire
import FlashKV.Lib.TimedRun

/-!
# Runs of the command processor

A run is a sequence of events: a client command, or a round of active expiration, each with the
clock reading under which it happens. Along a run the records that the commands propagate are
collected with their clock readings.
-/

namespace FlashKV

open Database

/-- Something that happens to a processor. -/
inductive Event where
  | command (now : Int) (arguments : List Bytes)
  | cycle (choices : CycleChoices) (samplesPerLoop : Nat) (now : Int)

namespace Event

/-- The clock reading of the event. -/
def now : Event → Int
  | .command now _ => now
  | .cycle _ _ now => now

/-- Is the event a cycle of active expiration? -/
def isCycle : Event → Bool
  | .command .. => false
  | .cycle .. => true

/-- A command that asks for the sentinel as a deadline in its future. -/
def AsksSentinel : Event → Prop
  | .command now arguments => now < noExpiry ∧ AsksDeadline arguments now noExpiry
  | .cycle .. => False

lemma not_asksSentinel {event : Event} (late : noExpiry ≤ event.now) : ¬ event.AsksSentinel := by
  cases event with
  | command now arguments => exact fun asks => absurd asks.1 (Int.not_lt.mpr late)
  | cycle choices samplesPerLoop now => exact id

end Event

/-- A run so far: the processor, the records with their clock readings, and the replies. -/
structure Run where
  processor : Processor
  log : List (Int × List Bytes) := []
  replies : List CommandReply := []

namespace Run

/-- One event, with a log in the given state. -/
def step (aof : AofStatus) (run : Run) : Event → Run
  | .command now arguments =>
    let (reply, records, processor) := run.processor.execute aof now arguments
    { processor := processor
      log := run.log ++ records.map fun record => (now, record)
      replies := run.replies ++ [reply] }
  | .cycle choices samplesPerLoop now =>
    let database := (activeExpireCycle choices samplesPerLoop now run.processor.database).2
    { run with processor := { run.processor with database := database } }

/-- The run of a sequence of events. -/
def of (aof : AofStatus) (start : Processor) (events : List Event) : Run :=
  events.foldl (step aof) { processor := start }

end Run

/-- A processor over an empty database with any memory settings. -/
def emptyProcessor (limit : Nat) (policy : EvictionPolicy) : Processor where
  database := { memoryLimit := limit, policy := policy }

/-- The index of volatile keys stays consistent as long as no command asks for the sentinel. -/
lemma Run.of_indexed {aof : AofStatus} {limit : Nat} {policy : EvictionPolicy} (healthy : aof ≠ .failed)
    (events : List Event) (proper : ∀ event ∈ events, ¬ event.AsksSentinel) :
    (Run.of aof (emptyProcessor limit policy) events).processor.database.Indexed := by
  refine List.foldlRecOn (motive := fun run : Run => run.processor.database.Indexed) events _
    (indexed_empty.congr (fun _ => rfl) rfl) ?_
  intro run indexed event mem
  cases event with
  | command now arguments =>
    have steps := Processor.execute_mutates (K := fun _ => True) healthy now arguments
      (fun _ _ => trivial) run.processor
    refine steps.preserves (fun _ _ m h => h.mutation (fun deadline asked => ?_) m) indexed
    rintro rfl
    exact proper _ mem asked
  | cycle choices samplesPerLoop now =>
    exact (activeExpireCycle_view choices samplesPerLoop now indexed).2

/-- The run of commands that starts with an empty database and a healthy, empty log. -/
def commandRun (limit : Nat) (policy : EvictionPolicy) (commands : List (Int × List Bytes)) : Run :=
  Run.of .healthy (emptyProcessor limit policy) (commands.map fun c => .command c.1 c.2)

lemma commandRun_append (limit : Nat) (policy : EvictionPolicy) (before : List (Int × List Bytes))
    (now : Int) (arguments : List Bytes) :
    commandRun limit policy (before ++ [(now, arguments)]) =
      (commandRun limit policy before).step .healthy (.command now arguments) := by
  unfold commandRun Run.of
  rw [List.map_append, List.foldl_append]
  rfl

/-- An invariant of every run of commands. -/
lemma commandRun_induction (limit : Nat) (policy : EvictionPolicy)
    {A : Int × List Bytes → Run → Prop} {I : List (Int × List Bytes) → Run → Prop}
    (init : I [] { processor := emptyProcessor limit policy })
    (step : ∀ commands command run, (∀ c ∈ commands, c.1 ≤ command.1) → A command run →
      I commands run → I (commands ++ [command]) (run.step .healthy (.command command.1 command.2)))
    (commands : List (Int × List Bytes)) (clock : (commands.map (·.1)).Pairwise (· ≤ ·))
    (each : ∀ before command after, commands = before ++ command :: after →
      A command (commandRun limit policy before)) :
    I commands (commandRun limit policy commands) := by
  unfold commandRun Run.of at each ⊢
  simp only [List.foldl_map] at each ⊢
  exact List.foldl_timed_induction init step commands clock each

end FlashKV
