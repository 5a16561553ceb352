import FlashKV.Command.Limit
import FlashKV.Database.Growth

/-!
# The memory limit over whole runs

A command adds no more to the memory use than its arguments account for, and a command that adds
anything is only run when the memory use is within the limit. So the memory use never climbs above
the limit by more than one command, whatever the order of the commands, the deadlines and the clock.
-/

namespace FlashKV

open StateAction Database

/-- What an argument can account for: an entry and an element of its own. -/
def argumentCost (argument : Bytes) : Nat :=
  entryOverhead + elementOverhead + argument.length

/-- What the arguments from a position on can account for. -/
def costFrom (arguments : List Bytes) (index : Nat) : Nat :=
  ((arguments.drop index).map argumentCost).sum

/-- What a command can add to the memory use. -/
def dataCost (arguments : List Bytes) : Nat :=
  costFrom arguments 1

section Handlers

variable {α β : Type} {arguments : List Bytes} {cost : Nat} {now : Int}

lemma costFrom_of_get {index : Nat} {argument : Bytes} (h : arguments[index]? = some argument) :
    costFrom arguments index = argumentCost argument + costFrom arguments (index + 1) := by
  obtain ⟨inside, rfl⟩ := List.getElem?_eq_some_iff.mp h
  unfold costFrom
  rw [List.drop_eq_getElem_cons inside, List.map_cons, List.sum_cons]

/-- A key and its text cost no more than they do as arguments. -/
lemma entryMemory_string_le (key text : Bytes) :
    entryMemory key (.string text) ≤ argumentCost key + argumentCost text := by
  have size : payloadMemory (.string text) = text.length := rfl
  rw [entryMemory, size]
  unfold argumentCost
  omega

lemma sum_elementCost_le (values : List Bytes) :
    (values.map elementCost).sum ≤ (values.map argumentCost).sum := by
  refine List.sum_le_sum fun value _ => ?_
  unfold elementCost argumentCost
  omega

/-- A computation of a handler that adds no more than `cost` to the memory use. -/
abbrev Adds (cost : Nat) (x : Handling Database α) : Prop :=
  Spends (fun session : Session Database => session.store.Accounted)
    (fun session => session.store.memoryUsed) cost x

namespace Handler

lemma call_adds {act : DbAction α} (h : Spends Accounted memoryUsed cost act) :
    Adds cost (call act) := by
  intro session inv
  have spent := h session.store inv
  unfold call
  rcases e : act session.store with ⟨_ | a, store⟩
  · rw [e] at spent
    exact spent
  · rw [e] at spent
    exact spent

/-- An operation that makes no value grow. -/
lemma call_free {key : Bytes} {act : DbAction α}
    (acts : Acts { Permits.any (fun _ => True) with grow := False } key now act) :
    Adds 0 (call act) :=
  call_adds fun db => Mutations.grows id (acts.mutates trivial db)

lemma propagate_adds (record : List Bytes) : Adds 0 (propagate record) := by
  intro session inv
  rw [propagate, modify_apply]
  split <;> exact ⟨inv, le_rfl⟩

lemma propagateIf_adds (changed : Bool) (record : List Bytes) : Adds 0 (propagateIf changed record) :=
  .ite (propagate_adds record) (.pure ())

/-- A handler that reads an argument goes on with that argument. -/
lemma argument_bind_adds {index : Nat} {f : Bytes → Handling Database α}
    (h : ∀ value, arguments[index]? = some value → Adds cost (f value)) :
    Adds cost (argument arguments index >>= f) := by
  unfold argument
  cases read : arguments[index]? with
  | none => exact fun _ => .refl
  | some value => exact h value read

lemma argumentsFrom_bind_adds {index : Nat} {f : List Bytes → Handling Database α}
    (h : Adds cost (f (arguments.drop index))) :
    Adds cost (argumentsFrom arguments index >>= f) := by
  unfold argumentsFrom
  split
  · exact h
  · exact fun _ => .refl

/-- The pairs that `hset` collects cost no more than its arguments. -/
lemma fieldPairs_bind_adds (pairs : List Bytes) {f : List (Bytes × Bytes) → Handling Database α}
    (h : ∀ fields, (fields.map fieldCost).sum ≤ (pairs.map argumentCost).sum → Adds cost (f fields)) :
    Adds cost (fieldPairs pairs >>= f) := by
  induction pairs using fieldPairs.induct generalizing f with
  | case1 => exact h [] le_rfl
  | case2 field value rest ih =>
    rw [fieldPairs, bind_assoc]
    refine ih fun fields le => ?_
    rw [pure_bind]
    refine h _ ?_
    simp only [List.map_cons, List.sum_cons, fieldCost, elementCost, argumentCost]
    omega
  | case3 => exact fun _ => .refl

/-! ### The handlers that make values grow -/

/-- The deadline of a `SET`. -/
lemma setExpiry_adds (key : Bytes) (deadline : Option Int) :
    Adds 0 (setExpiry key deadline now : Handling Database Unit) := by
  cases deadline with
  | none => exact .pure ()
  | some deadline =>
    have expire : Adds 0 (call (Storage.expireAtMs key deadline now) : Handling Database Bool) :=
      call_free (expireAtMs_acts trivial fun _ => trivial)
    exact .bind_free expire fun _ => propagate_adds _

/-- A key and its value, as the first two arguments. -/
lemma string_le {key value : Bytes} (first : arguments[1]? = some key)
    (second : arguments[2]? = some value) : entryMemory key (.string value) ≤ dataCost arguments := by
  rw [dataCost, costFrom_of_get first, costFrom_of_get second, ← Nat.add_assoc]
  exact (entryMemory_string_le key value).trans (Nat.le_add_right _ _)

lemma set_adds : Adds (dataCost arguments) (set arguments now : Handling Database Bytes) := by
  refine argument_bind_adds fun key first => argument_bind_adds fun value second => ?_
  have enough := string_le first second
  have look : Adds 0 (call (Storage.existsKey key now) : Handling Database Bool) :=
    call_free (existsKey_reads.acts trivial)
  have write : Adds (dataCost arguments) (call (Storage.set key value now) : Handling Database Unit) :=
    (call_adds (set_spends value)).mono enough
  cases parseSetOptions now (arguments.drop 3) {} with
  | error payload => exact .pure payload
  | ok options =>
    refine .ite (.pure _) (.bind_free look fun present => .ite (.pure _) (.then_free write fun _ => ?_))
    exact .bind_free (propagate_adds _) fun _ => .bind_free (setExpiry_adds key _) fun _ => .pure _

lemma msetLoop_adds (pairs : List Bytes) :
    Adds (pairs.map argumentCost).sum (msetLoop now pairs : Handling Database Unit) := by
  induction pairs using msetLoop.induct with
  | case1 => exact .pure ()
  | case2 key value rest ih =>
    have enough := entryMemory_string_le key value
    rw [msetLoop, List.map_cons, List.map_cons, List.sum_cons, List.sum_cons, ← Nat.add_assoc]
    exact .bind ((call_adds (set_spends value)).mono enough) fun _ => ih
  | case3 => exact .throw _

lemma mset_adds : Adds (dataCost arguments) (mset arguments now : Handling Database Bytes) :=
  .ite (.pure _) (.then_free (msetLoop_adds _) fun _ =>
    .bind_free (propagate_adds _) fun _ => .pure _)

lemma increment_adds (delta : Int) :
    Adds (dataCost arguments) (increment arguments delta now : Handling Database Bytes) := by
  refine argument_bind_adds fun key first => ?_
  have enough : entryMemory key (.string (ascii "0")) + numberLength ≤ dataCost arguments := by
    have size : payloadMemory (.string (ascii "0")) = 1 := rfl
    rw [dataCost, costFrom_of_get first, entryMemory, size]
    unfold argumentCost numberLength elementOverhead
    omega
  exact .then_free ((call_adds (incrementBy_spends delta)).mono enough) fun _ =>
    .bind_free (propagate_adds _) fun _ => .pure _

lemma incrby_adds : Adds (dataCost arguments) (incrby arguments now : Handling Database Bytes) := by
  refine argument_bind_adds fun text _ => ?_
  cases parseStrictInteger text with
  | none => exact .pure _
  | some delta => exact increment_adds delta

lemma decrby_adds : Adds (dataCost arguments) (decrby arguments now : Handling Database Bytes) := by
  refine argument_bind_adds fun text _ => ?_
  cases parseStrictInteger text with
  | none => exact .pure _
  | some delta => exact .ite (.pure _) (increment_adds (-delta))

lemma append_adds : Adds (dataCost arguments) (append arguments now : Handling Database Bytes) := by
  refine argument_bind_adds fun key first => argument_bind_adds fun value second => ?_
  have enough := string_le first second
  exact .then_free ((call_adds (append_spends value)).mono enough) fun _ =>
    .bind_free (propagate_adds _) fun _ => .pure _

/-- A key with elements costs no more than the arguments that give them. -/
lemma elements_le {key : Bytes} (value : Value) {cost : Nat} (first : arguments[1]? = some key)
    (empty : payloadMemory value = 0) (le : cost ≤ costFrom arguments 2) :
    entryMemory key value + cost ≤ dataCost arguments := by
  rw [dataCost, costFrom_of_get first, entryMemory, empty]
  refine Nat.add_le_add ?_ le
  unfold argumentCost
  omega

lemma push_adds (side : ListSide) :
    Adds (dataCost arguments) (push arguments side now : Handling Database Bytes) := by
  refine argument_bind_adds fun key first => argumentsFrom_bind_adds ?_
  have enough := elements_le (.list []) first rfl
    (sum_elementCost_le (arguments.drop 2))
  exact .then_free ((call_adds (listPush_spends _ side)).mono enough) fun _ =>
    .bind_free (propagate_adds _) fun _ => .pure _

lemma hset_adds : Adds (dataCost arguments) (hset arguments now : Handling Database Bytes) := by
  refine .ite (.pure _) (fieldPairs_bind_adds _ fun fields le => ?_)
  refine argument_bind_adds fun key first => ?_
  have enough := elements_le (.hash ∅) first rfl le
  exact .then_free ((call_adds (hashSet_spends fields)).mono enough) fun _ =>
    .bind_free (propagate_adds _) fun _ => .pure _

lemma sadd_adds : Adds (dataCost arguments) (sadd arguments now : Handling Database Bytes) := by
  refine argument_bind_adds fun key first => argumentsFrom_bind_adds ?_
  have enough := elements_le (.set ∅) first rfl
    (sum_elementCost_le (arguments.drop 2))
  exact .then_free ((call_adds (setAdd_spends _)).mono enough) fun _ =>
    .bind_free (propagateIf_adds _ _) fun _ => .pure _

end Handler

/-- A handler adds no more to the memory use than its arguments account for, and nothing if it is one
that makes no value grow. -/
lemma DataHandler.run_adds (handler : DataHandler) (arguments : List Bytes) (now : Int) :
    Adds (if handler.grows then dataCost arguments else 0) (handler.run arguments now) := by
  cases grows : handler.grows with
  | false =>
    intro session
    have shrinks : ¬ (dataPermits handler arguments (fun _ => True) now).grow := by
      intro yes
      exact absurd (grows.symm.trans yes) (by decide)
    exact Mutations.grows shrinks (handler.run_mutates arguments now (fun _ _ => trivial) session)
  | true =>
    cases handler with
    | set => exact Handler.set_adds
    | mset => exact Handler.mset_adds
    | incr => exact Handler.increment_adds 1
    | decr => exact Handler.increment_adds (-1)
    | incrby => exact Handler.incrby_adds
    | decrby => exact Handler.decrby_adds
    | append => exact Handler.append_adds
    | lpush => exact Handler.push_adds .left
    | rpush => exact Handler.push_adds .right
    | hset => exact Handler.hset_adds
    | sadd => exact Handler.sadd_adds
    | _ => cases grows

end Handlers

/-- The command is a write command: it evicts first. -/
def IsWrite (arguments : List Bytes) : Prop :=
  ∃ spec, resolve arguments = .dispatch spec ∧ spec.write = true

namespace Processor

section Step

variable {processor : Processor} {arguments : List Bytes} {aof : AofStatus} {now : Int}

/-- The evictions of a command add nothing. -/
lemma evicted_grows (arguments : List Bytes) :
    Grows 0 processor.database (processor.evicted arguments) := by
  have start : Grows 0 processor.database (processor.evicting arguments).1 := by
    unfold evicting
    split
    · split
      · exact fun inv => ⟨⟨inv.entry, inv.total, inv.underflows⟩, le_rfl⟩
      · exact .refl
    · exact .refl
  exact start.then_free (Mutations.grows (p := .erasing) id (evictAll_mutates trivial _ _))

/-- The evictions of a write command, when they succeed, leave the memory use within the limit. -/
lemma evicted_within {spec : CommandSpec} {handler : DataHandler}
    (found : resolve arguments = .dispatch spec) (data : spec.handler = .data handler)
    (write : spec.write = true) (limited : processor.database.memoryLimit ≠ 0)
    (within : processor.database.evictsEnough = true) :
    (processor.evicted arguments).memoryUsed ≤ processor.database.memoryLimit := by
  have other : spec.handler = .server .config → configLimit arguments = none := by
    rw [data]
    exact HandlerName.noConfusion
  rw [evicted, evicting_of_other found other, write]
  exact memoryUsed_evictAll limited within

/-- Write commands are run by data handlers. -/
lemma data_of_write {spec : CommandSpec} (found : resolve arguments = .dispatch spec)
    (write : spec.write = true) : ∃ handler, spec.handler = .data handler := by
  cases name : spec.handler with
  | data handler => exact ⟨handler, rfl⟩
  | server handler =>
    have reads := write_of_server found name
    rw [write] at reads
    cases reads

/-- Nothing is added but by a command that is run with the memory use within the limit. -/
lemma execute_bounded (accounted : processor.database.Accounted)
    (limited : processor.database.memoryLimit ≠ 0) :
    (processor.execute aof now arguments).2.2.database.memoryUsed ≤
      max processor.database.memoryUsed (processor.database.memoryLimit + dataCost arguments) := by
  rcases processor.execute_database aof now arguments with same | ⟨status, healthy, same⟩
  · rw [same]
    exact le_max_left _ _
  · rw [same]
    obtain ⟨accounted', before⟩ := evicted_grows arguments accounted
    obtain ⟨_, policy, _, database⟩ | ⟨handler, ran, _, _, database⟩ :=
      processor.execute_cases healthy now arguments
    · rw [database]
      exact before.trans (le_max_left _ _)
    · obtain ⟨spec, found, data⟩ := resolve_of_dispatched ran
      obtain ⟨_, spent⟩ := handler.run_adds arguments now
        ⟨processor.evicted arguments, status.attached, []⟩ accounted'
      rw [database]
      cases grows : handler.grows with
      | false =>
        rw [grows] at spent
        exact (spent.trans before).trans (le_max_left _ _)
      | true =>
        -- a command that can grow is refused unless the evictions were enough
        have deny := denyOom_of_grows found data grows
        have write := write_of_denyOom found deny
        have within : processor.database.evictsEnough = true := by
          by_contra short
          simp [dispatched, found, data, write, deny, short] at ran
        rw [grows] at spent
        have room := evicted_within found data write limited within
        exact (spent.trans (Nat.add_le_add_right room _)).trans (le_max_right _ _)

/-- A write command with an eviction policy brings the memory use to the limit before it adds
anything. -/
lemma execute_settles (reachable : processor.Reachable) (healthy : aof ≠ .failed)
    (limited : processor.database.memoryLimit ≠ 0) (evicts : processor.database.policy ≠ .noEviction)
    (write : IsWrite arguments) :
    (processor.execute aof now arguments).2.2.database.memoryUsed ≤
      processor.database.memoryLimit + dataCost arguments := by
  obtain ⟨spec, found, write⟩ := write
  obtain ⟨handler, data⟩ := data_of_write found write
  have within := evictsEnough_of_evicts reachable.linked reachable.accounted evicts
  have room := evicted_within found data write limited within
  obtain ⟨accounted, _⟩ := evicted_grows arguments reachable.accounted
  obtain ⟨_, policy, _, database⟩ | ⟨handler, _, _, _, database⟩ :=
    processor.execute_cases healthy now arguments
  · rw [database]
    exact room.trans (Nat.le_add_right _ _)
  · obtain ⟨_, spent⟩ := handler.run_adds arguments now
      ⟨processor.evicted arguments, aof.attached, []⟩ accounted
    rw [database]
    refine spent.trans (Nat.add_le_add room ?_)
    split
    · exact le_rfl
    · exact Nat.zero_le _

end Step

/-- What an event can add to the memory use. -/
def eventCost : Event → Nat
  | .command _ arguments => dataCost arguments
  | .cycle _ _ _ => 0

/-- In every state of the run there is a limit, of at most `limit` bytes. -/
def Limited (limit : Nat) (processor : Processor) (events : List (AofStatus × Event)) : Prop :=
  ∀ earlier, earlier <+: events →
    0 < (processor.after earlier).database.memoryLimit ∧
    (processor.after earlier).database.memoryLimit ≤ limit

instance (limit : Nat) (processor : Processor) (events : List (AofStatus × Event)) :
    Decidable (Limited limit processor events) :=
  decidable_of_iff (∀ earlier ∈ events.inits,
      0 < (processor.after earlier).database.memoryLimit ∧
      (processor.after earlier).database.memoryLimit ≤ limit) <|
    forall_congr' fun _ => imp_congr (List.mem_inits _ _) Iff.rfl

section Run

variable {processor : Processor} {limit cost : Nat}

lemma next_bounded (aof : AofStatus) (event : Event) (accounted : processor.database.Accounted)
    (limited : 0 < processor.database.memoryLimit) :
    (processor.next aof event).database.memoryUsed ≤
      max processor.database.memoryUsed (processor.database.memoryLimit + eventCost event) := by
  cases event with
  | command now arguments => exact execute_bounded accounted limited.ne'
  | cycle choices samplesPerLoop now =>
    have steps : Mutations .erasing processor.database
        (activeExpireCycle choices samplesPerLoop now processor.database).2 :=
      activeExpireCycle_mutates trivial
    exact (accounted.memoryUsed_mutations_le id steps).trans (le_max_left _ _)

lemma Limited.tail {aof : AofStatus} {event : Event} {events : List (AofStatus × Event)}
    (h : Limited limit processor ((aof, event) :: events)) :
    Limited limit (processor.next aof event) events :=
  fun earlier cut => h ((aof, event) :: earlier) ((List.prefix_cons_inj _).mpr cut)

lemma after_bounded {events : List (AofStatus × Event)} (reachable : processor.Reachable)
    (limited : Limited limit processor events) (small : ∀ e ∈ events, eventCost e.2 ≤ cost) :
    (processor.after events).database.memoryUsed ≤
      max processor.database.memoryUsed (limit + cost) := by
  induction events generalizing processor with
  | nil => exact le_max_left _ _
  | cons event events ih =>
    obtain ⟨aof, event⟩ := event
    obtain ⟨positive, below⟩ := limited [] List.nil_prefix
    have first := next_bounded aof event reachable.accounted positive
    have rest := ih (reachable.next aof event) limited.tail
      fun e mem => small e (List.mem_cons_of_mem _ mem)
    have size : processor.database.memoryLimit + eventCost event ≤ limit + cost :=
      Nat.add_le_add below (small (aof, event) List.mem_cons_self)
    exact rest.trans (max_le (first.trans (max_le_max le_rfl size)) (le_max_right _ _))

/-- The memory limit over whole runs: as long as there is a limit, of at most `limit` bytes, and every
command accounts for at most `cost` bytes, the memory use stays within `limit + cost`, or where it was
before if that was more. After the first write command under an eviction policy, with a log that has
not failed, it is within `limit + cost` whatever it was before. -/
theorem memory_bounded (reachable : processor.Reachable) (events : List (AofStatus × Event))
    (limited : Limited limit processor events) (small : ∀ e ∈ events, eventCost e.2 ≤ cost) :
    (processor.after events).database.memoryUsed ≤
      max processor.database.memoryUsed (limit + cost) ∧
    ∀ before aof now arguments later, events = before ++ (aof, .command now arguments) :: later →
      aof ≠ .failed → (processor.after before).database.policy ≠ .noEviction → IsWrite arguments →
      (processor.after events).database.memoryUsed ≤ limit + cost := by
  refine ⟨after_bounded reachable limited small, ?_⟩
  rintro before aof now arguments later rfl healthy evicts write
  obtain ⟨positive, below⟩ := limited before (List.prefix_append _ _)
  let settling := (processor.after before).next aof (.command now arguments)
  have settled : settling.database.memoryUsed ≤
      (processor.after before).database.memoryLimit + dataCost arguments :=
    execute_settles (reachable.after before) healthy positive.ne' evicts write
  have size : (processor.after before).database.memoryLimit + dataCost arguments ≤ limit + cost :=
    Nat.add_le_add below (small (aof, .command now arguments) (by simp))
  have run : processor.after (before ++ (aof, .command now arguments) :: later) =
      settling.after later := by
    simp [after, settling]
  have rest : (settling.after later).database.memoryUsed ≤
      max settling.database.memoryUsed (limit + cost) := by
    refine after_bounded ((reachable.after before).next aof (.command now arguments)) ?_
      fun e mem => small e (by simp [mem])
    intro earlier cut
    have whole := limited (before ++ (aof, .command now arguments) :: earlier)
      ((List.prefix_append_right_inj _).mpr ((List.prefix_cons_inj _).mpr cut))
    simpa [after, settling] using whole
  rw [run]
  exact rest.trans (max_le (settled.trans size) le_rfl)

/-- A limit that is lowered in the middle of a run, and a push that evicts. -/
theorem memory_bounded_lowered :
    let processor := emptyProcessor 400 .allKeysLru
    let events : List (AofStatus × Event) :=
      [(.healthy, .command 0 [ascii "RPUSH", ascii "l", ascii "a", ascii "b"]),
        (.healthy, .command 1 [ascii "CONFIG", ascii "SET", ascii "maxmemory", ascii "150"]),
        (.healthy, .cycle ⟨fun _ => 0, fun _ => false⟩ 20 2),
        (.healthy, .command 3 [ascii "SET", ascii "k", ascii "v", ascii "PX", ascii "5"])]
    (processor.after events).database.memoryUsed ≤
      max processor.database.memoryUsed (400 + 650) ∧
    ∀ before aof now arguments later, events = before ++ (aof, .command now arguments) :: later →
      aof ≠ .failed → (processor.after before).database.policy ≠ .noEviction → IsWrite arguments →
      (processor.after events).database.memoryUsed ≤ 400 + 650 :=
  memory_bounded (.start {} 400 .allKeysLru) _ (by decide +kernel) (by decide +kernel)

end Run

end Processor

end FlashKV
