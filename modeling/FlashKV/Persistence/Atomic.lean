import FlashKV.Persistence.Complete

/-!
# Atomic recovery

A crash can cut the log at any byte; `load` keeps the complete records. What they rebuild is a state
that the original database went through between two steps, a step being one eviction or one whole
command. The one exception is a `SET` with a deadline, which logs two records: a cut between them
leaves the key without its deadline.
-/

namespace FlashKV

open Database

/-- The states of the database of a run between its steps. -/
inductive StepState (limit : Nat) (policy : EvictionPolicy) (commands : List (Int × List Bytes)) :
    Database → Prop where
  | command {before after} :
    commands = before ++ after →
    StepState limit policy commands (commandRun limit policy before).processor.database
  | eviction {before now arguments after processor evictions} :
    commands = before ++ (now, arguments) :: after →
    processor = (commandRun limit policy before).processor →
    evictions <+: (processor.evicting arguments).2 →
    evictions ≠ [] →
    StepState limit policy commands ((processor.evicting arguments).1.evictAll evictions)

/-- The command logs at most one record of its own. -/
def Processor.Atomic (now : Int) (arguments : List Bytes) (processor : Processor) : Prop :=
  ∀ handler, processor.dispatched arguments = some handler →
    ¬ handler.SetsDeadline now arguments ((processor.evicted arguments).view now)

section Step

variable {now : Int} {arguments : List Bytes} {processor : Processor}

/-- Every prefix of the records of an atomic command: some of its evictions, or all of the command. -/
lemma Processor.Atomic.records_prefix (atomic : processor.Atomic now arguments)
    (sound : processor.database.Sound now) {first : List (List Bytes)}
    (isPrefix : first <+: (processor.execute .healthy now arguments).2.1) :
    (∃ evictions, evictions <+: (processor.evicting arguments).2 ∧
      first = evictions.map delRecord) ∨
    first = (processor.execute .healthy now arguments).2.1 := by
  have evictions : ∀ first, first <+: (processor.evicting arguments).2.map delRecord →
      ∃ evictions, evictions <+: (processor.evicting arguments).2 ∧
        first = evictions.map delRecord := by
    intro first isPrefix
    refine ⟨(processor.evicting arguments).2.take first.length, List.take_prefix _ _, ?_⟩
    rw [List.map_take]
    exact List.prefix_iff_eq_take.mp isPrefix
  obtain ⟨_, policy, records, _⟩ | ⟨handler, ran, _, records, _⟩ :=
    processor.execute_cases (show AofStatus.healthy ≠ .failed by decide) now arguments
  · rw [records] at isPrefix
    exact .inl (evictions first isPrefix)
  · obtain ⟨spec, found, data⟩ := Processor.resolve_of_dispatched ran
    have safe : handler.Safe now now arguments ((processor.evicted arguments).view now) :=
      handler.safe_of_now fun key slot shown => (Option.filter_eq_some_iff.mp shown).2
    obtain ⟨_, _, single⟩ := DataHandler.reproduces found data le_rfl
      (processor.evicted_sound arguments sound) safe
    rw [records] at isPrefix ⊢
    rcases List.prefix_or_prefix_of_prefix isPrefix (List.prefix_append _ _) with
      isPrefix' | ⟨rest, rfl⟩
    · exact .inl (evictions first isPrefix')
    · have isPrefix := (List.prefix_append_right_inj _).mp isPrefix
      cases rest with
      | nil =>
        rw [List.append_nil]
        exact .inl (evictions _ List.prefix_rfl)
      | cons record rest =>
        -- there is at most one record after the evictions
        have one := single (atomic handler ran)
        rw [isPrefix.eq_of_length_le (one.trans (by simp))]
        exact .inr rfl

end Step

section Run

variable {limit : Nat} {policy : EvictionPolicy}

lemma StepState.append {commands more : List (Int × List Bytes)} {db : Database}
    (h : StepState limit policy commands db) : StepState limit policy (commands ++ more) db := by
  cases h with
  | command split => exact .command (by rw [split, List.append_assoc])
  | @eviction before now arguments after processor evictions split met isPrefix nonempty =>
    have split' : commands ++ more = before ++ (now, arguments) :: (after ++ more) := by
      rw [split, List.append_assoc]
      rfl
    exact .eviction split' met isPrefix nonempty

/-- A part of the log that begins with all records of the commands before and ends within those of
the next one. -/
lemma StepState.of_records {before : List (Int × List Bytes)} {now : Int} {arguments : List Bytes}
    (clock : ((before ++ [(now, arguments)]).map (·.1)).Pairwise (· ≤ ·))
    (atomic : (commandRun limit policy before).processor.Atomic now arguments)
    {first : List (List Bytes)} (nonempty : first ≠ [])
    (isPrefix : first <+: ((commandRun limit policy before).processor.execute .healthy now
      arguments).2.1) :
    ∃ db, StepState limit policy (before ++ [(now, arguments)]) db ∧ ∀ t, now ≤ t →
      (replayLog ((commandRun limit policy before).log ++ first.map fun record => (now, record))
        {}).2.database.view t = db.view t := by
  have earlier : ∀ c ∈ before, c.1 ≤ now := by
    rw [List.map_append, List.pairwise_append] at clock
    exact fun c mem => clock.2.2 c.1 (List.mem_map_of_mem mem) now (by simp)
  have copied := commandRun_copied limit policy before (List.Pairwise.sublist (by simp) clock)
  have notBefore : ∀ event ∈ before.map fun c => Event.command c.1 c.2, event.now ≤ now :=
    List.forall_mem_map.mpr earlier
  rcases atomic.records_prefix (copied.sound now notBefore) isPrefix with
    ⟨evictions, evicted, rfl⟩ | rfl
  · refine ⟨_, .eviction rfl rfl evicted (by rintro rfl; exact nonempty rfl), ?_⟩
    intro t later
    rw [replayLog_append]
    obtain ⟨_, _, same⟩ := ((commandRun limit policy before).processor.evictions_reproduce
      arguments evictions).replayLog copied.unlimited (copied.same now notBefore)
    exact view_eq_later later same
  · have copied := commandRun_copied limit policy (before ++ [(now, arguments)]) clock
    refine ⟨_, .command (List.append_nil _).symm, fun t later => ?_⟩
    have same := copied.same t ?_
    · rw [← same, commandRun_append]
      rfl
    · refine List.forall_mem_map.mpr fun c mem => ?_
      rcases List.mem_append.mp mem with mem | mem
      · exact (earlier c mem).trans later
      · cases List.mem_singleton.mp mem
        exact later

/-- What any number of records of the log rebuilds. -/
lemma replayLog_stepState (commands : List (Int × List Bytes))
    (clock : (commands.map (·.1)).Pairwise (· ≤ ·))
    (atomic : ∀ before now arguments after, commands = before ++ (now, arguments) :: after →
      (commandRun limit policy before).processor.Atomic now arguments)
    {first : List (Int × List Bytes)} (isPrefix : first <+: (commandRun limit policy commands).log) :
    ∃ db, StepState limit policy commands db ∧ ∀ t, (∀ entry ∈ first, entry.1 ≤ t) →
      (replayLog first {}).2.database.view t = db.view t := by
  induction commands using List.reverseRecOn generalizing first with
  | nil =>
    cases List.prefix_nil.mp isPrefix
    exact ⟨_, .command (List.nil_append []).symm, fun _ _ => rfl⟩
  | append_singleton before command ih =>
    obtain ⟨now, arguments⟩ := command
    have earlier : ∀ {first}, first <+: (commandRun limit policy before).log →
        ∃ db, StepState limit policy (before ++ [(now, arguments)]) db ∧
          ∀ t, (∀ entry ∈ first, entry.1 ≤ t) →
            (replayLog first {}).2.database.view t = db.view t := by
      intro first isPrefix
      have atomic' : ∀ before' now' arguments' after, before = before' ++ (now', arguments') :: after →
          (commandRun limit policy before').processor.Atomic now' arguments' := by
        intro before' now' arguments' after split
        exact atomic before' now' arguments' (after ++ [(now, arguments)]) (by rw [split]; simp)
      obtain ⟨db, state, same⟩ := ih (List.Pairwise.sublist (by simp) clock) atomic' isPrefix
      exact ⟨db, state.append, same⟩
    have log : (commandRun limit policy (before ++ [(now, arguments)])).log =
        (commandRun limit policy before).log ++
          ((commandRun limit policy before).processor.execute .healthy now arguments).2.1.map
            fun record => (now, record) := by
      rw [commandRun_append]
      rfl
    rw [log] at isPrefix
    rcases List.prefix_or_prefix_of_prefix isPrefix (List.prefix_append _ _) with
      isPrefix' | ⟨rest, rfl⟩
    · exact earlier isPrefix'
    · have isPrefix := (List.prefix_append_right_inj _).mp isPrefix
      have taken := List.prefix_iff_eq_take.mp isPrefix
      rw [← List.map_take] at taken
      by_cases empty : rest = []
      · rw [empty, List.append_nil]
        exact earlier List.prefix_rfl
      · have nonempty : ((commandRun limit policy before).processor.execute .healthy now
            arguments).2.1.take rest.length ≠ [] := by
          intro none_
          rw [none_] at taken
          exact empty taken
        obtain ⟨db, state, same⟩ := StepState.of_records clock
          (atomic before now arguments [] rfl) nonempty (List.take_prefix _ _)
        rw [← taken] at same
        refine ⟨db, state, fun t later => same t ?_⟩
        obtain ⟨entry, mem⟩ := List.exists_mem_of_ne_nil rest empty
        have reading : entry.1 = now := by
          rw [taken] at mem
          obtain ⟨_, _, rfl⟩ := List.mem_map.mp mem
          rfl
        exact reading ▸ later entry (by simp [mem])

end Run

/-- Recovery is atomic: wherever the log of a run of atomic commands is cut, the complete records
rebuild what the database showed between two steps. -/
theorem recovery_atomic (limit : Nat) (policy : EvictionPolicy) (commands : List (Int × List Bytes))
    (bytes : Nat) (clock : (commands.map (·.1)).Pairwise (· ≤ ·))
    (atomic : ∀ before now arguments after, commands = before ++ (now, arguments) :: after →
      (commandRun limit policy before).processor.Atomic now arguments) :
    let log := (commandRun limit policy commands).log
    let kept := log.take (completeRecords bytes (log.map (·.2))).length
    kept.map (·.2) = completeRecords bytes (log.map (·.2)) ∧
    ∃ db, StepState limit policy commands db ∧ ∀ t, (∀ entry ∈ kept, entry.1 ≤ t) →
      (replayLog kept {}).2.database.view t = db.view t := by
  intro log kept
  refine ⟨?_, replayLog_stepState commands clock atomic (List.take_prefix _ _)⟩
  rw [List.map_take]
  exact (List.prefix_iff_eq_take.mp (isPrefix_completeRecords bytes _)).symm

/-- Two atomic commands. -/
def atomicCommands : List (Int × List Bytes) :=
  [(0, [ascii "SET", ascii "k", ascii "v"]), (3, [ascii "PEXPIRE", ascii "k", ascii "10"])]

theorem recovery_atomic_cut :
    let log := (commandRun 0 .noEviction atomicCommands).log
    let kept := log.take (completeRecords 30 (log.map (·.2))).length
    kept.map (·.2) = completeRecords 30 (log.map (·.2)) ∧
    ∃ db, StepState 0 .noEviction atomicCommands db ∧ ∀ t, (∀ entry ∈ kept, entry.1 ≤ t) →
      (replayLog kept {}).2.database.view t = db.view t := by
  refine recovery_atomic 0 .noEviction atomicCommands 30 (by decide) ?_
  rintro before now arguments after split handler ran
    ⟨isSet, key, options, deadline, _, parsed, _, given⟩
  rcases before with _ | ⟨_, _ | ⟨_, before⟩⟩
  · cases split
    have none_ : Handler.parseSetOptions 0 [] {} = .ok {} := rfl
    cases none_.symm.trans parsed
    cases given
  · cases split
    have isExpire :
        (commandRun 0 .noEviction [(0, [ascii "SET", ascii "k", ascii "v"])]).processor.dispatched
          [ascii "PEXPIRE", ascii "k", ascii "10"] = some .pexpire := by decide +kernel
    cases isExpire.symm.trans ran
    cases isSet
  · simp [atomicCommands] at split

/-- A cut between the two records of a `SET` with a deadline rebuilds a key without the deadline,
which the database never showed. -/
theorem recovery_tears_set :
    let commands := [(0, [ascii "SET", ascii "k", ascii "v", ascii "EX", ascii "10"])]
    let log := (commandRun 0 .noEviction commands).log
    let kept := log.take (completeRecords 30 (log.map (·.2))).length
    (replayLog kept {}).2.database.view 0 (ascii "k") = some ⟨.string (ascii "v"), none⟩ ∧
    ¬ ∃ db, StepState 0 .noEviction commands db ∧ ∀ t, (∀ entry ∈ kept, entry.1 ≤ t) →
      (replayLog kept {}).2.database.view t = db.view t := by
  intro commands log kept
  have torn : (replayLog kept {}).2.database.view 0 (ascii "k") =
      some ⟨.string (ascii "v"), none⟩ := by decide +kernel
  refine ⟨torn, ?_⟩
  rintro ⟨db, state, same⟩
  have shown := congrFun (same 0 (by decide +kernel)) (ascii "k")
  rw [torn] at shown
  cases state with
  | @command before after split =>
    rcases before with _ | ⟨_, _ | ⟨_, before⟩⟩
    · cases shown
    · cases (List.cons.inj split).1
      exact absurd shown (by decide +kernel)
    · simp [commands] at split
  | @eviction before now arguments after processor evictions split met isPrefix nonempty =>
    rcases before with _ | ⟨_, before⟩
    · cases (List.cons.inj split).1
      subst met
      exact nonempty (List.prefix_nil.mp isPrefix)
    · simp [commands] at split

end FlashKV
