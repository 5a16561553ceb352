import FlashKV.Command.Reachable
import FlashKV.Command.ReplyShape
import FlashKV.Database.Evicted

/-!
# Eviction instead of refusal

With an eviction policy every write command finds usage within the limit after `evictIfNeeded`, so
that none is refused.
-/

namespace FlashKV

open StateAction Database

/-- The reply refuses a command for want of memory. -/
def IsOom (payload : Bytes) : Prop :=
  ascii "-OOM" <+: payload

instance (payload : Bytes) : Decidable (IsOom payload) :=
  inferInstanceAs (Decidable (_ <+: _))

lemma not_isOom_error (message : Bytes) : ¬ IsOom (respError message) := by
  rintro ⟨rest, e⟩
  cases e

/-- No handler replies so. -/
lemma HandlerReply.not_isOom {payload : Bytes} (h : HandlerReply payload) : ¬ IsOom payload := by
  rintro ⟨rest, e⟩
  cases h <;> cases e

lemma HandlerAnswers.not_isOom {handler : Handling Database Bytes} (h : HandlerAnswers handler)
    (session : Session Database) : ¬ IsOom (payloadOf (handler session).1) := by
  have ends := h session
  rcases e : (handler session).1 with failure | payload
  · rw [e] at ends
    obtain ⟨error, rfl⟩ := ends
    cases error <;> decide
  · rw [e] at ends
    exact HandlerReply.not_isOom ends

namespace Processor

variable {processor : Processor}

/-- With an eviction policy, usage is within the limit after the eviction before a write command. -/
lemma Reachable.evictsEnough (reachable : processor.Reachable)
    (policy : processor.database.policy ≠ .noEviction) : processor.database.evictsEnough = true := by
  by_cases limited : processor.database.memoryLimit = 0
  · exact evictsEnough_of_unlimited limited
  · obtain ⟨evicted, db', ran, _⟩ :=
      evictIfNeeded_evicts reachable.linked reachable.accounted limited policy
    unfold Database.evictsEnough
    rw [ran]

/-- So a command that finds its handler is not refused. -/
lemma Reachable.dispatch_not_isOom (reachable : processor.Reachable)
    (policy : processor.database.policy ≠ .noEviction) (aof : AofStatus) (now : Int)
    {arguments : List Bytes} {spec : CommandSpec} (found : resolve arguments = .dispatch spec)
    (clean : EchoesNoBreak arguments) (stats : ServerStats) :
    ¬ IsOom (payloadOf (spec.execute stats aof arguments now
      ⟨processor.database, aof.attached, []⟩).1) := by
  unfold CommandSpec.execute
  split
  · split
    · rintro ⟨rest, e⟩
      cases e
    · rw [bind_of_ok (evictBefore_apply _), reachable.evictsEnough policy,
        if_neg fun refused => refused.1 rfl]
      exact (spec.run_answers found clean).not_isOom _
  · exact (spec.run_answers found clean).not_isOom _

/-- No command is refused for want of memory. -/
lemma Reachable.execute_not_isOom (reachable : processor.Reachable)
    (policy : processor.database.policy ≠ .noEviction) (aof : AofStatus) (now : Int)
    (arguments : List Bytes) : ¬ IsOom (processor.execute aof now arguments).1.payload := by
  by_cases nonempty : arguments = []
  · subst nonempty
    exact not_isOom_error _
  by_cases clean : EchoesNoBreak arguments
  · unfold execute
    rw [if_neg nonempty]
    dsimp only
    split
    · rintro ⟨rest, e⟩
      cases e
    · exact not_isOom_error _
    · exact not_isOom_error _
    · rename_i spec found
      exact reachable.dispatch_not_isOom policy aof now found clean _
  · -- a line break is echoed by two error replies only
    rcases not_and_or.mp clean with unknown | unsupported
    · push Not at unknown
      obtain ⟨notQuit, absent, _⟩ := unknown
      rw [execute_unknown nonempty notQuit absent]
      exact not_isOom_error _
    · push Not at unsupported
      obtain ⟨name, subcommand, parameter, value, rfl, config, set, other, other', _⟩ := unsupported
      rw [execute_unsupported config set other other']
      exact not_isOom_error _

end Processor

/-- Eviction in every reachable state. Under `allkeys-lru` the loop of `evictIfNeeded` ends within
the limit; the evicted keys, from least to most recently used, are the shortest part of the back of
the recency list that has to go; the other keys hold what they held, in the same order. Under
`noeviction` nothing happens. Therefore no command is refused for want of memory under
`allkeys-lru`. -/
theorem evictIfNeeded_shortest {processor : Processor} (reachable : processor.Reachable) :
    let db := processor.database
    (db.memoryLimit ≠ 0 → db.policy = .allKeysLru →
      ∃ evicted db', evictIfNeeded db = (.ok (true, evicted), db') ∧
        EvictLoop db ((true, evicted), db') ∧
        db'.memoryUsed ≤ db'.memoryLimit ∧ db'.memoryLimit = db.memoryLimit ∧
        Removed evicted db db' ∧
        evicted.reverse <:+ db.keysByRecency ∧
        db.memoryUsed ≤ db.memoryLimit + db.memoryOf evicted.reverse ∧
        (∀ back, back <:+ db.keysByRecency → db.memoryUsed ≤ db.memoryLimit + db.memoryOf back →
          evicted.reverse.length ≤ back.length) ∧
        db'.statistics =
          { db.statistics with evictedKeys := db.statistics.evictedKeys + evicted.length }) ∧
    (db.memoryLimit ≠ 0 → db.policy = .noEviction →
      evictIfNeeded db = (.ok (decide (db.memoryUsed ≤ db.memoryLimit), []), db)) ∧
    (db.policy = .allKeysLru → ∀ aof now arguments,
      ¬ IsOom (processor.execute aof now arguments).1.payload) := by
  intro db
  refine ⟨fun limited policy => ?_, fun limited policy => evictIfNeeded_refuses limited policy,
    fun policy aof now arguments => ?_⟩
  · have evicts : db.policy ≠ .noEviction := by
      rw [policy]
      decide
    obtain ⟨evicted, db', ran, loop, below, h⟩ :=
      evictIfNeeded_evicts reachable.linked reachable.accounted limited evicts
    refine ⟨evicted, db', ran, loop, below, h.settings.1, h.toRemoved, ⟨_, h.suffix.symm⟩, ?_,
      fun back part sufficient => ?_, h.counted⟩
    · have used : db'.memoryUsed + db.memoryOf evicted = db.memoryUsed := h.used
      have limit : db'.memoryLimit = db.memoryLimit := h.settings.1
      rw [memoryOf_reverse]
      omega
    · rw [List.length_reverse]
      exact h.shortest part sufficient
  · refine reachable.execute_not_isOom ?_ aof now arguments
    rw [policy]
    decide

/-- A key that alone exceeds the limit is evicted, and the next command is not refused. -/
theorem evictIfNeeded_shortest_single :
    let start : Processor := { database := { memoryLimit := 1, policy := .allKeysLru } }
    let processor := start.next .detached (.command 0 [ascii "SET", [107], [118]])
    (∃ evicted db', evictIfNeeded processor.database = (.ok (true, evicted), db') ∧
      db'.memoryUsed ≤ 1) ∧
    ¬ IsOom (processor.execute .healthy 1 [ascii "SET", [108], [119]]).1.payload := by
  intro start processor
  have reachable : processor.Reachable := (Processor.Reachable.start {} 1 .allKeysLru).next _ _
  have limit : processor.database.memoryLimit = 1 := by decide +kernel
  have policy : processor.database.policy = .allKeysLru := by decide +kernel
  obtain ⟨evicts, _, answers⟩ := evictIfNeeded_shortest reachable
  refine ⟨?_, answers policy _ _ _⟩
  obtain ⟨evicted, db', ran, _, below, same, _⟩ := evicts (by rw [limit]; decide) policy
  exact ⟨evicted, db', ran, by rwa [same, limit] at below⟩

end FlashKV
