import FlashKV.Command.Run
import FlashKV.Database.ActiveExpire
import FlashKV.Persistence.Replay

/-!
# The log is a complete record

A run of commands with cycles of active expiration anywhere in it. Lazy and active expiration are
never logged and need not be: the records, each replayed at its own clock reading, rebuild the live
view.
-/

namespace FlashKV

open Database

/-- The run of events that starts with an empty database and a healthy, empty log. -/
def eventRun (limit : Nat) (policy : EvictionPolicy) (events : List Event) : Run :=
  Run.of .healthy (emptyProcessor limit policy) events

/-- The log of a run, replayed up to here, shows the database of the run. -/
structure Run.Copied (events : List Event) (run : Run) : Prop where
  clean : ReplaysCleanly run.log {}
  unlimited : (replayLog run.log {}).2.database.memoryLimit = 0
  same : ∀ t, (∀ event ∈ events, event.now ≤ t) →
    (replayLog run.log {}).2.database.view t = run.processor.database.view t
  sound : ∀ t, (∀ event ∈ events, event.now ≤ t) → run.processor.database.Sound t

section Step

variable {events : List Event} {run : Run}

lemma Run.Copied.command {now : Int} {arguments : List Bytes} (copied : run.Copied events)
    (earlier : ∀ event ∈ events, event.now ≤ now) :
    (run.step .healthy (.command now arguments)).Copied (events ++ [.command now arguments]) := by
  have live : run.processor.SafeAt now now arguments := by
    intro handler _
    apply handler.safe_of_now
    intro key slot shown
    exact (Option.filter_eq_some_iff.mp shown).2
  obtain ⟨reproduces, sound⟩ :=
    Processor.execute_reproduces le_rfl (copied.sound now earlier) live
  obtain ⟨clean, unlimited, same⟩ :=
    reproduces.replayLog copied.unlimited (copied.same now earlier)
  have log : (run.step .healthy (.command now arguments)).log = run.log ++
      (run.processor.execute .healthy now arguments).2.1.map fun record => (now, record) := rfl
  have here : ∀ {t}, (∀ event ∈ events ++ [.command now arguments], event.now ≤ t) → now ≤ t :=
    fun notBefore => notBefore (.command now arguments) (by simp)
  constructor
  · unfold ReplaysCleanly
    rw [log, replayLog_append]
    intro reply mem
    rcases List.mem_append.mp mem with mem | mem
    · exact copied.clean reply mem
    · exact clean reply mem
  · rw [log, replayLog_append]
    exact unlimited
  · intro t notBefore
    rw [log, replayLog_append]
    exact view_eq_later (here notBefore) same
  · exact fun t notBefore => sound.later (here notBefore)

/-- A cycle is not logged, and nothing shows it. -/
lemma Run.Copied.cycle {choices : CycleChoices} {samplesPerLoop : Nat} {now : Int}
    (copied : run.Copied events) (earlier : ∀ event ∈ events, event.now ≤ now)
    (indexed : run.processor.database.Indexed) :
    (run.step .healthy (.cycle choices samplesPerLoop now)).Copied
      (events ++ [.cycle choices samplesPerLoop now]) := by
  have kept := (activeExpireCycle_view choices samplesPerLoop now indexed).1
  have here : ∀ {t}, (∀ event ∈ events ++ [.cycle choices samplesPerLoop now], event.now ≤ t) →
      now ≤ t :=
    fun notBefore => notBefore (.cycle choices samplesPerLoop now) (by simp)
  refine ⟨copied.clean, copied.unlimited, fun t notBefore => ?_, fun t notBefore => ?_⟩
  · exact view_eq_later (here notBefore) ((copied.same now earlier).trans kept.symm)
  · refine Database.Sound.later (here notBefore) fun key slot shown => ?_
    exact copied.sound now earlier key slot ((congrFun kept key).symm.trans shown)

end Step

/-- Along every run the log shows the database. -/
lemma eventRun_copied (limit : Nat) (policy : EvictionPolicy) (events : List Event)
    (clock : (events.map Event.now).Pairwise (· ≤ ·))
    (proper : ∀ cycle ∈ events, cycle.isCycle = true → ∀ event ∈ events, ¬ event.AsksSentinel) :
    (eventRun limit policy events).Copied events := by
  refine List.foldl_timed_induction (I := fun events (run : Run) => run.Copied events)
    (A := fun event run => event.isCycle = true → run.processor.database.Indexed) ?_ ?_ events clock ?_
  · exact ⟨(fun _ mem => by cases mem), rfl, fun _ _ => rfl, fun _ _ _ _ shown => by cases shown⟩
  · intro events event run earlier indexed copied
    cases event with
    | command now arguments => exact copied.command earlier
    | cycle choices samplesPerLoop now => exact copied.cycle earlier (indexed rfl)
  · intro before event after split isCycle
    refine Run.of_indexed (by decide) before fun other mem => ?_
    exact proper event (by rw [split]; simp) isCycle other (by rw [split]; simp [mem])

/-- Without cycles any clock will do. -/
lemma commandRun_copied (limit : Nat) (policy : EvictionPolicy) (commands : List (Int × List Bytes))
    (clock : (commands.map (·.1)).Pairwise (· ≤ ·)) :
    (commandRun limit policy commands).Copied (commands.map fun c => .command c.1 c.2) := by
  refine eventRun_copied limit policy _ ?_ fun cycle mem isCycle => ?_
  · rw [List.map_map]
    exact clock
  · obtain ⟨command, _, rfl⟩ := List.mem_map.mp mem
    cases isCycle

/-- The log is a complete record of state changes: the records of a run, each replayed at its own
clock reading, get no error replies and rebuild what the database shows from then on. A run with
cycles must not ask for the sentinel as a deadline. -/
theorem replayLog_complete (limit : Nat) (policy : EvictionPolicy) (events : List Event)
    (clock : (events.map Event.now).Pairwise (· ≤ ·))
    (proper : ∀ cycle ∈ events, cycle.isCycle = true → ∀ event ∈ events, ¬ event.AsksSentinel) :
    let run := eventRun limit policy events
    ReplaysCleanly run.log {} ∧
    ∀ t, (∀ event ∈ events, event.now ≤ t) →
      (replayLog run.log {}).2.database.view t = run.processor.database.view t := by
  have copied := eventRun_copied limit policy events clock proper
  exact ⟨copied.clean, copied.same⟩

/-- A run with a cycle after a deadline has passed. -/
def expiringEvents : List Event :=
  [.command 0 [ascii "SET", ascii "k", ascii "v", ascii "PX", ascii "10"],
    .command 1 [ascii "LPUSH", ascii "l", ascii "a"], .cycle ⟨fun _ => 0, fun _ => false⟩ 20 20]

theorem replayLog_complete_expiring :
    let run := eventRun 0 .noEviction expiringEvents
    ReplaysCleanly run.log {} ∧
      (replayLog run.log {}).2.database.view 30 = run.processor.database.view 30 := by
  have late : ∀ event ∈ expiringEvents, noExpiry ≤ event.now := by decide
  have complete := replayLog_complete 0 .noEviction expiringEvents (by decide)
    fun _ _ _ event mem => Event.not_asksSentinel (late event mem)
  exact ⟨complete.1, complete.2 30 (by decide)⟩

/-- Where the log is not complete. A deadline equal to the sentinel makes a key without a deadline
that a cycle still removes; and before the time of a cycle a key that the cycle has removed may
still be live in the copy. -/
theorem replayLog_incomplete :
    (let run := eventRun 0 .noEviction
      [.command (-5) [ascii "SET", ascii "k", ascii "v"],
        .command (-5) [ascii "PEXPIREAT", ascii "k", ascii "-1"],
        .cycle ⟨fun _ => 0, fun _ => false⟩ 20 0, .command 0 [ascii "PING"]]
    run.processor.database.view 0 (ascii "k") = none ∧
    (replayLog run.log {}).2.database.view 0 (ascii "k") = some ⟨.string (ascii "v"), none⟩) ∧
    (let run := eventRun 0 .noEviction expiringEvents
    run.processor.database.view 5 (ascii "k") = none ∧
    (replayLog run.log {}).2.database.view 5 (ascii "k") =
      some ⟨.string (ascii "v"), some 10⟩) := by
  decide +kernel

end FlashKV
