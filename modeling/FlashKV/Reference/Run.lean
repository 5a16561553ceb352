import FlashKV.Command.Run
import FlashKV.Command.Unlimited
import FlashKV.Database.Ttl
import FlashKV.Reference.Refinement

/-!
# Runs of the reference

The reference answers commands as the processor does, with the plain typed map in place of the
database, and knows nothing of active expiration. Along a run without a memory limit the processor
gives the reference's replies, whenever the garbage is collected; the one exception is a `TTL` so
far away that its rounding overflows.
-/

namespace FlashKV

open StateAction Database

/-- What the reference answers to a command, and its entries afterwards. It has no answer to the
commands that look into the engine itself. -/
noncomputable def TypedMap.execute {c : Conventions} (now : Int) (arguments : List Bytes)
    (m : TypedMap c) : Option CommandReply × TypedMap c :=
  if arguments = [] then (some ⟨respError (ascii "empty command"), false⟩, m)
  else
    match resolve arguments with
    | .quit => (some ⟨respSimpleString (ascii "OK"), true⟩, m)
    | .unknown =>
      (some ⟨respError (ascii "unknown command '" ++ arguments.headD [] ++ ascii "'"), false⟩, m)
    | .wrongArity =>
      (some ⟨respError (ascii "wrong number of arguments for '" ++
        lowercase (uppercase (arguments.headD [])) ++ ascii "' command"), false⟩, m)
    | .dispatch spec =>
      match spec.handler with
      | .data handler =>
        let (outcome, session) := handler.run arguments now { store := m, attached := false }
        (some ⟨payloadOf outcome, false⟩, session.store)
      | .server _ => (none, m)

/-- A run of the reference. -/
structure ReferenceRun where
  map : TypedMap .exact := .empty
  replies : List (Option CommandReply) := []

namespace ReferenceRun

/-- One event: the reference only sees the commands. -/
noncomputable def step (run : ReferenceRun) : Event → ReferenceRun
  | .command now arguments =>
    let (reply, map) := run.map.execute now arguments
    { map := map, replies := run.replies ++ [reply] }
  | .cycle .. => run

noncomputable def of (events : List Event) : ReferenceRun :=
  events.foldl step {}

end ReferenceRun

/-- The reply is the one that is expected, if one is. -/
def Answers (reply : CommandReply) (expected : Option CommandReply) : Prop :=
  ∀ r, expected = some r → reply = r

/-- Is the command `CONFIG SET maxmemory` with a memory size? -/
def setsLimit (arguments : List Bytes) : Bool :=
  uppercase (arguments.headD []) = ascii "CONFIG" ∧ (configLimit arguments).isSome

/-- The command is no `TTL` of a live key whose remaining time is within 500 milliseconds of the
largest `long long`. -/
def TtlFits (now : Int) (arguments : List Bytes) (view : Bytes → Option Slot) : Prop :=
  ∀ spec key slot deadline, resolve arguments = .dispatch spec → spec.handler = .data .ttl →
    arguments[1]? = some key → view key = some slot → slot.deadline = some deadline →
    deadline - now + 500 ≤ int64Max

section Handlers

variable {σ τ : Type} {R : σ → τ → Prop} {now : Int} {arguments : List Bytes}

/-- Sessions over related engines, whatever has been propagated. -/
lemma lifts_store : Lifts R fun s t => R s.store t.store :=
  ⟨fun rel => rel, fun _ related => related⟩

lemma propagates_store : Propagates arguments R fun s t => R s.store t.store where
  toLifts := lifts_store
  propagate _ := by
    refine .modify fun s t rel => ?_
    have kept : ∀ {υ : Type} (s : Session υ) record, (if s.attached then
        ({ s with records := s.records ++ [record] } : Session υ) else s).store = s.store := by
      intro υ s record
      split <;> rfl
    rw [kept, kept]
    exact rel

/-- `ttl` of a key whose remaining time fits. -/
lemma ttl_same {slot : Option Slot} (nonneg : 0 ≤ now) (sound : SoundSlot now slot)
    (fits : ∀ s d, slot = some s → s.deadline = some d → d - now + 500 ≤ int64Max) :
    SlotOp.ttl .native now slot = SlotOp.ttl .exact now slot := by
  cases slot with
  | none => rfl
  | some slot =>
    obtain ⟨live, range⟩ := sound slot rfl
    unfold SlotOp.ttl SlotOp.ttlWith
    cases deadline : slot.deadline with
    | none => simp only [deadline]
    | some d =>
      rw [Slot.liveAt, deadline] at live
      have future := of_decide_eq_true live
      simp only [deadline, Conventions.native, Conventions.exact,
        wrap64_remaining nonneg future (range d deadline),
        ttlSeconds_of_fits (by omega) (fits slot d rfl deadline)]

/-- The handler of `TTL`, on a map where the remaining time fits. -/
lemma ttl_refines {n : TypedMap .native} {m : TypedMap .exact} (nonneg : 0 ≤ now)
    (same : SameEntries n m)
    (fits : ∀ key slot deadline, arguments[1]? = some key → (n.purge now).find key = some slot →
      slot.deadline = some deadline → deadline - now + 500 ≤ int64Max) :
    let native := Handler.ttl arguments now ⟨n, false, []⟩
    let exact := Handler.ttl arguments now ⟨m, false, []⟩
    native.1 = exact.1 ∧ SameEntries native.2.store exact.2.store := by
  cases given : arguments[1]? with
  | none =>
    unfold Handler.ttl Handler.argument
    rw [given]
    exact ⟨rfl, same⟩
  | some key =>
    -- the state stays the same but for what has expired
    have sim : Simulates
        (fun (n' : TypedMap .native) m' => SameEntries n' m' ∧ n'.purge now = n.purge now)
        (Storage.ttl key now) (Storage.ttl key now) := by
      rintro n' m' ⟨same', purged⟩
      have sound : SoundSlot now ((n'.purge now).find key) := by
        intro s found
        exact ⟨(Option.filter_eq_some_iff.mp found).2, fun d => (same'.purge now).range key s d found⟩
      have agree := ttl_same nonneg sound fun s d found =>
        fits key s d given (purged ▸ found)
      have kept : (n'.purge now).put key (SlotOp.ttl .native now ((n'.purge now).find key)).2 =
          n'.purge now := by
        rw [SlotOp.ttl, SlotOp.ttlWith_keeps, TypedMap.put_self]
      have kept' : (m'.purge now).put key (SlotOp.ttl .exact now ((m'.purge now).find key)).2 =
          m'.purge now := by
        rw [SlotOp.ttl, SlotOp.ttlWith_keeps, TypedMap.put_self]
      refine ⟨?_, ?_⟩
      · show (SlotOp.ttl .native now ((n'.purge now).find key)).1 =
          (SlotOp.ttl .exact now ((m'.purge now).find key)).1
        rw [agree, (same'.purge now).find]
      · show SameEntries ((n'.purge now).put key _) ((m'.purge now).put key _) ∧
          ((n'.purge now).put key _).purge now = n.purge now
        rw [kept, kept', TypedMap.purge_purge le_rfl]
        exact ⟨same'.purge now, purged⟩
    have run : Handler.argument arguments 1 = (pure key : Handling (TypedMap .native) Bytes) := by
      rw [Handler.argument, given]
    have run' : Handler.argument arguments 1 = (pure key : Handling (TypedMap .exact) Bytes) := by
      rw [Handler.argument, given]
    unfold Handler.ttl
    rw [run, run']
    obtain ⟨outcome, same', _⟩ := Simulates.bind (Handler.call_simulates lifts_store sim)
      (fun seconds => .pure (respInteger seconds)) ⟨n, false, []⟩ ⟨m, false, []⟩ ⟨same, rfl⟩
    exact ⟨outcome, same'⟩

/-- A data handler on a database and on the reference. -/
lemma DataHandler.run_refines (handler : DataHandler) (arguments : List Bytes) {db : Database}
    {n : TypedMap .native} {m : TypedMap .exact} (attached : Bool) (nonneg : 0 ≤ now) (shows : Shows now db n)
    (same : SameEntries n m)
    (fits : handler = .ttl → ∀ key slot deadline, arguments[1]? = some key →
      db.view now key = some slot → slot.deadline = some deadline →
      deadline - now + 500 ≤ int64Max) :
    let engine := handler.run arguments now ⟨db, attached, []⟩
    let reference := handler.run arguments now ⟨m, false, []⟩
    engine.1 = reference.1 ∧
      ∃ n', Shows now engine.2.store n' ∧ SameEntries n' reference.2.store := by
  intro engine reference
  have toNative : Simulates (fun (s : Session Database) t => Shows now s.store t.store)
      (handler.run arguments now) (handler.run (σ := TypedMap .native) arguments now) :=
    handler.run_simulates propagates_store (database_simulates now) (fun _ _ => trivial)
      (fun _ key _ => ttl_simulates now key) fun _ _ => trivial
  obtain ⟨outcome, shows'⟩ := toNative ⟨db, attached, []⟩ ⟨n, false, []⟩ shows
  have toExact : (handler.run arguments now ⟨n, false, []⟩).1 = reference.1 ∧
      SameEntries (handler.run arguments now ⟨n, false, []⟩).2.store reference.2.store := by
    by_cases isTtl : handler = .ttl
    · subst isTtl
      refine ttl_refines nonneg same fun key slot deadline given found => ?_
      exact fits rfl key slot deadline given ((congrFun shows key).trans found)
    · have sim : Simulates (fun (s : Session (TypedMap .native)) t => SameEntries s.store t.store)
          (handler.run arguments now) (handler.run (σ := TypedMap .exact) arguments now) :=
        handler.run_simulates propagates_store (native_simulates nonneg) (fun _ => DataHandler.Asks.range)
          (fun e => absurd e isTtl) fun _ _ => trivial
      exact sim ⟨n, false, []⟩ ⟨m, false, []⟩ same
  exact ⟨outcome.trans toExact.1, _, shows', toExact.2⟩

end Handlers

/-! ### Commands and runs -/

section Commands

variable {aof : AofStatus} {now : Int} {arguments : List Bytes} {processor : Processor}

/-- Without a memory limit a command that sets none evicts nothing. -/
lemma Processor.evicted_of_unlimited (unlimited : processor.database.memoryLimit = 0)
    (unset : setsLimit arguments = false) : processor.evicted arguments = processor.database := by
  unfold Processor.evicted
  cases found : resolve arguments with
  | quit | unknown | wrongArity => simp only [evicting, found, evictAll, List.foldl_nil]
  | dispatch spec =>
    have other : spec.handler = .server .config → configLimit arguments = none := by
      intro config
      have table : ∀ entry ∈ commandTable, entry.2.handler = .server .config →
        entry.1 = ascii "CONFIG" := by decide
      have name := table _ (mem_of_lookup (resolve_dispatch found).1) config
      by_contra given
      exact of_decide_eq_false unset ⟨name, Option.isSome_iff_ne_none.mpr given⟩
    rw [evicting_of_other found other]
    dsimp only
    rw [victims_of_unlimited unlimited, ite_self]
    rfl

/-- Any other command: the reference's reply, if it has one, and the entries as they were. -/
lemma Processor.execute_other (healthy : aof ≠ .failed) (now : Int)
    (other : ∀ spec handler, resolve arguments = .dispatch spec → spec.handler ≠ .data handler)
    (unlimited : processor.database.memoryLimit = 0) (unset : setsLimit arguments = false)
    (m : TypedMap .exact) :
    Answers (processor.execute aof now arguments).1 (m.execute now arguments).1 ∧
    (m.execute now arguments).2 = m ∧
    ∃ policy, (processor.execute aof now arguments).2.2.database =
      { processor.database with policy := policy } := by
  refine ⟨?_, ?_, ?_⟩
  · unfold Processor.execute TypedMap.execute
    by_cases empty : arguments = []
    · rw [if_pos empty, if_pos empty]
      exact fun r e => Option.some.inj e
    · rw [if_neg empty, if_neg empty]
      cases found : resolve arguments with
      | quit | unknown | wrongArity => exact fun r e => Option.some.inj e
      | dispatch spec =>
        cases name : spec.handler with
        | data handler => exact absurd name (other spec handler found)
        | server handler =>
          simp only [name]
          exact fun r e => by cases e
  · unfold TypedMap.execute
    split
    · rfl
    · cases found : resolve arguments with
      | quit | unknown | wrongArity => rfl
      | dispatch spec =>
        cases name : spec.handler with
        | data handler => exact absurd name (other spec handler found)
        | server handler => simp only [name]
  · obtain ⟨_, policy, _, database⟩ | ⟨handler, ran, _⟩ :=
      processor.execute_cases healthy now arguments
    · rw [database, Processor.evicted_of_unlimited unlimited unset]
      exact ⟨policy, rfl⟩
    · obtain ⟨spec, found, data⟩ := Processor.resolve_of_dispatched ran
      exact absurd data (other spec handler found)

end Commands

/-- The processor of a run shows the entries of the reference and has given its replies. -/
structure Run.Refines (events : List Event) (run : Run) (reference : ReferenceRun) : Prop where
  entries : ∃ n : TypedMap .native, SameEntries n reference.map ∧
    ∀ t, (∀ event ∈ events, event.now ≤ t) → Shows t run.processor.database n
  unlimited : run.processor.database.memoryLimit = 0
  replies : List.Forall₂ Answers run.replies reference.replies

section Step

variable {aof : AofStatus} {events : List Event} {run : Run} {reference : ReferenceRun}

lemma Run.Refines.command {now : Int} {arguments : List Bytes} (h : run.Refines events reference)
    (healthy : aof ≠ .failed) (earlier : ∀ event ∈ events, event.now ≤ now) (nonneg : 0 ≤ now)
    (unset : setsLimit arguments = false)
    (fits : TtlFits now arguments (run.processor.database.view now)) :
    (run.step aof (.command now arguments)).Refines (events ++ [.command now arguments])
      (reference.step (.command now arguments)) := by
  obtain ⟨n, same, shows⟩ := h.entries
  have here : ∀ {t}, (∀ event ∈ events ++ [.command now arguments], event.now ≤ t) → now ≤ t :=
    fun notBefore => notBefore (.command now arguments) (by simp)
  by_cases data : ∃ spec handler, resolve arguments = .dispatch spec ∧ spec.handler = .data handler
  · obtain ⟨spec, handler, found, name⟩ := data
    obtain ⟨reply, database, limit⟩ :=
      Processor.execute_unlimited healthy now found name h.unlimited
    obtain ⟨outcome, n', shows', same'⟩ := handler.run_refines arguments aof.attached
      nonneg (shows now earlier) same fun isTtl key slot deadline =>
        fits spec key slot deadline found (by rw [name, isTtl])
    have answer : reference.map.execute now arguments =
        (some ⟨payloadOf (handler.run arguments now ⟨reference.map, false, []⟩).1, false⟩,
          (handler.run arguments now ⟨reference.map, false, []⟩).2.store) := by
      have nonempty : arguments ≠ [] := by
        rintro rfl
        cases found
      simp only [TypedMap.execute, if_neg nonempty, found, name]
    constructor
    · refine ⟨n', ?_, fun t notBefore => ?_⟩
      · show SameEntries n' (reference.map.execute now arguments).2
        rw [answer]
        exact same'
      · show Shows t (run.processor.execute aof now arguments).2.2.database n'
        rw [database]
        exact shows'.later (here notBefore)
    · exact limit
    · refine List.rel_append h.replies (.cons ?_ .nil)
      show Answers (run.processor.execute aof now arguments).1
        (reference.map.execute now arguments).1
      rw [answer, reply, outcome]
      exact fun r e => Option.some.inj e
  · obtain ⟨answer, kept, policy, database⟩ := Processor.execute_other healthy now
      (fun spec handler found name => data ⟨spec, handler, found, name⟩) h.unlimited unset reference.map
    constructor
    · refine ⟨n, ?_, fun t notBefore => ?_⟩
      · show SameEntries n (reference.map.execute now arguments).2
        rw [kept]
        exact same
      · show Shows t (run.processor.execute aof now arguments).2.2.database n
        rw [database]
        exact (shows now earlier).later (here notBefore)
    · show (run.processor.execute aof now arguments).2.2.database.memoryLimit = 0
      rw [database]
      exact h.unlimited
    · exact List.rel_append h.replies (.cons answer .nil)

/-- The reference need not know about a cycle. -/
lemma Run.Refines.cycle {choices : CycleChoices} {samplesPerLoop : Nat} {now : Int}
    (h : run.Refines events reference) (earlier : ∀ event ∈ events, event.now ≤ now)
    (indexed : run.processor.database.Indexed) :
    (run.step aof (.cycle choices samplesPerLoop now)).Refines
      (events ++ [.cycle choices samplesPerLoop now]) reference := by
  obtain ⟨n, same, shows⟩ := h.entries
  have kept := (activeExpireCycle_view choices samplesPerLoop now indexed).1
  refine ⟨⟨n, same, fun t notBefore => ?_⟩, ?_, h.replies⟩
  · refine Shows.later (notBefore (.cycle choices samplesPerLoop now) (by simp)) ?_
    exact kept.trans (shows now earlier)
  · have steps : Mutations .erasing run.processor.database
        (activeExpireCycle choices samplesPerLoop now run.processor.database).2 :=
      activeExpireCycle_mutates trivial
    exact (steps.memoryLimit id).trans h.unlimited

end Step


/-- The storage engine refines the reference: without a memory limit, every run whose `TTL` commands
all fit gets the reference's replies, whatever the cycles of active expiration do in between. -/
theorem run_refines_reference (aof : AofStatus) (policy : EvictionPolicy) (events : List Event)
    (healthy : aof ≠ .failed) (clock : (events.map Event.now).Pairwise (· ≤ ·))
    (nonneg : ∀ event ∈ events, 0 ≤ event.now)
    (unset : ∀ now arguments, .command now arguments ∈ events → setsLimit arguments = false)
    (fits : ∀ before now arguments after, events = before ++ .command now arguments :: after →
      TtlFits now arguments
        ((Run.of aof (emptyProcessor 0 policy) before).processor.database.view now)) :
    List.Forall₂ Answers (Run.of aof (emptyProcessor 0 policy) events).replies
      (ReferenceRun.of events).replies := by
  have refines : (Run.of aof (emptyProcessor 0 policy) events).Refines events (.of events) := by
    refine List.foldl_timed_induction (I := fun events (run : Run) => run.Refines events (.of events))
      (A := fun event run => 0 ≤ event.now ∧ match event with
        | .command now arguments => setsLimit arguments = false ∧
          TtlFits now arguments (run.processor.database.view now)
        | .cycle .. => run.processor.database.Indexed) ?_ ?_ events clock ?_
    · refine ⟨⟨.empty, ⟨rfl, fun _ _ _ found => by cases found⟩, fun t _ => rfl⟩, rfl, .nil⟩
    · rintro events event run earlier ⟨late, met⟩ h
      have next : ReferenceRun.of (events ++ [event]) = (ReferenceRun.of events).step event := by
        rw [ReferenceRun.of, List.foldl_append]
        rfl
      rw [next]
      cases event with
      | command now arguments => exact h.command healthy earlier late met.1 met.2
      | cycle choices samplesPerLoop now => exact h.cycle earlier met
    · intro before event after split
      have mem : event ∈ events := by
        rw [split]
        simp
      refine ⟨nonneg event mem, ?_⟩
      cases event with
      | command now arguments => exact ⟨unset now arguments mem, fits before now arguments after split⟩
      | cycle =>
        refine Run.of_indexed healthy before fun event mem => Event.not_asksSentinel ?_
        exact le_trans (by decide) (nonneg event (by rw [split]; simp [mem]))
  exact refines.replies

/-- A run with a deadline, a cycle past it, and a look at what is left. -/
def vanishingEvents : List Event :=
  [.command 0 [ascii "SET", ascii "k", ascii "v", ascii "PX", ascii "10"],
    .command 5 [ascii "TTL", ascii "k"], .cycle ⟨fun _ => 0, fun _ => false⟩ 20 20,
    .command 20 [ascii "APPEND", ascii "k", ascii "w"]]

theorem run_refines_reference_vanishing :
    List.Forall₂ Answers (Run.of .detached (emptyProcessor 0 .noEviction) vanishingEvents).replies
      (ReferenceRun.of vanishingEvents).replies := by
  refine run_refines_reference .detached .noEviction vanishingEvents (by decide) (by decide) (by decide)
    ?_ ?_
  · intro now arguments mem
    simp only [vanishingEvents, List.mem_cons, Event.command.injEq, reduceCtorEq, false_or,
      List.not_mem_nil, or_false] at mem
    rcases mem with ⟨_, rfl⟩ | ⟨_, rfl⟩ | ⟨_, rfl⟩ <;> decide
  · intro before now arguments after split spec key slot deadline found name given shown has
    rcases before with _ | ⟨_, _ | ⟨_, _ | ⟨_, _ | ⟨_, before⟩⟩⟩⟩
    · cases split
      have isSet : resolve [ascii "SET", ascii "k", ascii "v", ascii "PX", ascii "10"] =
          .dispatch ⟨.data .set, -3, true, true⟩ := by decide
      cases isSet.symm.trans found
      cases name
    · cases split
      cases given
      have soon : (Run.of .detached (emptyProcessor 0 .noEviction) [.command 0 [ascii "SET", ascii "k",
          ascii "v", ascii "PX", ascii "10"]]).processor.database.view 5 (ascii "k") =
          some ⟨.string (ascii "v"), some 10⟩ := by decide +kernel
      cases soon.symm.trans shown
      cases has
      decide
    · cases split
    · cases split
      have isAppend : resolve [ascii "APPEND", ascii "k", ascii "w"] =
          .dispatch ⟨.data .append, 3, true, true⟩ := by decide
      cases isAppend.symm.trans found
      cases name
    · simp [vanishingEvents] at split

/-- The rounding of `TTL` overflows for the latest deadlines. -/
theorem ttl_reply_overflows :
    let events := [.command 0 [ascii "SET", ascii "k", ascii "v"],
      .command 0 [ascii "PEXPIREAT", ascii "k", ascii "9223372036854775807"],
      .command 0 [ascii "TTL", ascii "k"]]
    let run := Run.of .detached (emptyProcessor 0 .noEviction) events
    run.replies[2]? = some ⟨respInteger (-9223372036854775), false⟩ ∧
    (ReferenceRun.of events).replies[2]? = some (some ⟨respInteger 9223372036854776, false⟩) ∧
    ¬ List.Forall₂ Answers run.replies (ReferenceRun.of events).replies := by
  intro events run
  have engine : run.replies[2]? = some ⟨respInteger (-9223372036854775), false⟩ := by decide +kernel
  have reference : (ReferenceRun.of events).replies[2]? =
      some (some ⟨respInteger 9223372036854776, false⟩) := by decide +kernel
  refine ⟨engine, reference, fun answers => ?_⟩
  obtain ⟨_, each⟩ := List.forall₂_iff_get.mp answers
  obtain ⟨inRun, reply⟩ := List.getElem?_eq_some_iff.mp engine
  obtain ⟨inReference, expected⟩ := List.getElem?_eq_some_iff.mp reference
  have same := each 2 inRun inReference _ expected
  rw [List.get_eq_getElem, reply] at same
  exact absurd same (by decide)

end FlashKV
