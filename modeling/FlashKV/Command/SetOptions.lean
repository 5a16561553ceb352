import FlashKV.Command.Expiry
import FlashKV.Command.Limit

/-!
# The options of `SET`

The options that `SET` accepts are a sequence of groups, in any order: `NX`, `XX`, and one `EX` or
`PX` with its time. What `SET` does depends only on which flags occur and on the deadline.
-/

namespace FlashKV

open StateAction Database

/-- A group of options; the words are written in any case. -/
inductive SetGroup where
  | missing (word : Bytes)
  | present (word : Bytes)
  | time (word text : Bytes) (n : Int)
  deriving DecidableEq, Repr

namespace SetGroup

/-- The arguments that write the group. -/
def tokens : SetGroup → List Bytes
  | .missing word | .present word => [word]
  | .time word text _ => [word, text]

/-- The milliseconds in the unit of `EX` or `PX`. -/
def wordUnitMs (word : Bytes) : Int :=
  if uppercase word = ascii "EX" then 1000 else 1

/-- The words are what they have to be, and a time is a positive 64-bit decimal numeral whose deadline
does not overflow. -/
def Valid (now : Int) : SetGroup → Prop
  | .missing word => uppercase word = ascii "NX"
  | .present word => uppercase word = ascii "XX"
  | .time word text n =>
    (uppercase word = ascii "EX" ∨ uppercase word = ascii "PX") ∧
      Decimal.Numeral text n ∧ IsInt64 n ∧ 0 < n ∧
      IsInt64 (n * wordUnitMs word) ∧ IsInt64 (n * wordUnitMs word + now)

def deadline (now : Int) : SetGroup → Option Int
  | .time word _ n => some (n * wordUnitMs word + now)
  | _ => none

def isMissing : SetGroup → Bool
  | .missing _ => true
  | _ => false

def isPresent : SetGroup → Bool
  | .present _ => true
  | _ => false

/-- The deadlines that a sequence of groups gives. -/
def deadlines (now : Int) (groups : List SetGroup) : List Int :=
  groups.filterMap (deadline now)

/-- What a sequence of groups says. -/
def options (now : Int) (groups : List SetGroup) : Handler.SetOptions where
  onlyIfMissing := groups.any isMissing
  onlyIfPresent := groups.any isPresent
  deadline := (deadlines now groups).head?

/-- The sequence of groups is accepted: every group is valid, at most one gives a time, and `NX` and
`XX` do not both occur. -/
structure Accepted (now : Int) (groups : List SetGroup) : Prop where
  valid : ∀ group ∈ groups, group.Valid now
  once : (deadlines now groups).length ≤ 1
  exclusive : ¬ (groups.any isMissing = true ∧ groups.any isPresent = true)

section Parsing

variable {now : Int} {texts : List Bytes} {groups groups' : List SetGroup}

/-- The options at the start of the loop, and those of groups that it reads over. -/
def add (now : Int) (start : Handler.SetOptions) (groups : List SetGroup) : Handler.SetOptions where
  onlyIfMissing := start.onlyIfMissing || groups.any isMissing
  onlyIfPresent := start.onlyIfPresent || groups.any isPresent
  deadline := (start.deadline.toList ++ deadlines now groups).head?

lemma add_nil (start : Handler.SetOptions) : add now start [] = start := by
  cases start with
  | mk missing present deadline =>
    cases missing <;> cases present <;> cases deadline <;> rfl

lemma add_default : add now {} groups = options now groups := by
  simp [add, options]

/-- An `NX` is read over. -/
lemma parseSetOptions_missing {word : Bytes} (named : uppercase word = ascii "NX") (rest : List Bytes)
    (start : Handler.SetOptions) :
    Handler.parseSetOptions now (word :: rest) start =
      Handler.parseSetOptions now rest { start with onlyIfMissing := true } := by
  rw [Handler.parseSetOptions.eq_def]
  dsimp only
  rw [if_pos named]

/-- Valid groups are read as what they say. -/
lemma parseSetOptions_groups (start : Handler.SetOptions)
    (valid : ∀ group ∈ groups, group.Valid now)
    (once : (start.deadline.toList ++ deadlines now groups).length ≤ 1) :
    Handler.parseSetOptions now (groups.flatMap tokens) start = .ok (add now start groups) := by
  induction groups generalizing start with
  | nil =>
    rw [add_nil]
    rfl
  | cons group groups ih =>
    obtain ⟨first, others⟩ := List.forall_mem_cons.mp valid
    cases group with
    | missing word =>
      show Handler.parseSetOptions now (word :: groups.flatMap tokens) start = _
      refine (parseSetOptions_missing first _ start).trans
        ((ih { start with onlyIfMissing := true } others once).trans ?_)
      simp [add, isMissing, isPresent, deadlines, deadline, List.findSome?_cons]
    | present word =>
      show Handler.parseSetOptions now (word :: groups.flatMap tokens) start = _
      refine (parseSetOptions_flag first _ start).trans
        ((ih { start with onlyIfPresent := true } others once).trans ?_)
      simp [add, isMissing, isPresent, deadlines, deadline, List.findSome?_cons]
    | time word text n =>
      obtain ⟨named, numeral, range, positive, product, sum⟩ := first
      -- an earlier time would be a second one
      have unset : start.deadline = none := by
        cases given : start.deadline with
        | none => rfl
        | some earlier =>
          rw [given] at once
          simp [deadlines, deadline] at once
      have read := parseStrictInteger_eq_some_iff.mpr ⟨numeral, range⟩
      have fits : Handler.setDeadline n (wordUnitMs word) now = some (n * wordUnitMs word + now) :=
        setDeadline_eq_some_iff.mpr ⟨positive, product, sum, rfl⟩
      have once' : ((some (n * wordUnitMs word + now)).toList ++ deadlines now groups).length ≤ 1 := by
        rw [unset] at once
        exact once
      show Handler.parseSetOptions now (word :: text :: groups.flatMap tokens) start = _
      rw [parseSetOptions_time named start unset read fits, ih _ others once']
      simp [add, isMissing, isPresent, deadlines, deadline, unset]

/-- What is read is a sequence of valid groups, of which at most one gives a time. -/
lemma groups_of_parseSetOptions {start result : Handler.SetOptions}
    (parsed : Handler.parseSetOptions now texts start = .ok result) :
    ∃ groups, texts = groups.flatMap tokens ∧ (∀ group ∈ groups, group.Valid now) ∧
      (start.deadline.toList ++ deadlines now groups).length ≤ 1 := by
  fun_induction Handler.parseSetOptions now texts start with
  | case1 start =>
    refine ⟨[], rfl, List.forall_mem_nil _, ?_⟩
    cases start.deadline <;> simp [deadlines]
  | case2 word rest start option named ih =>
    obtain ⟨groups, rfl, valid, once⟩ := ih parsed
    exact ⟨.missing word :: groups, rfl, List.forall_mem_cons.mpr ⟨named, valid⟩, once⟩
  | case3 word rest start option _ named ih =>
    obtain ⟨groups, rfl, valid, once⟩ := ih parsed
    exact ⟨.present word :: groups, rfl, List.forall_mem_cons.mpr ⟨named, valid⟩, once⟩
  | case6 word start option _ _ named text rest unset n read deadline computed ih =>
    obtain ⟨groups, rfl, valid, once⟩ := ih parsed
    obtain ⟨numeral, range⟩ := parseStrictInteger_eq_some_iff.mp read
    obtain ⟨positive, product, sum, rfl⟩ := setDeadline_eq_some_iff.mp computed
    refine ⟨.time word text n :: groups, rfl, List.forall_mem_cons.mpr
      ⟨⟨named, numeral, range, positive, product, sum⟩, valid⟩, ?_⟩
    rw [unset]
    exact once
  | _ => cases parsed

/-- Sequences with the same groups say the same. -/
lemma Accepted.options_perm (accepted : Accepted now groups) (perm : groups.Perm groups') :
    options now groups' = options now groups := by
  have deadlines_ : deadlines now groups' = deadlines now groups := by
    have same : (deadlines now groups').Perm (deadlines now groups) := perm.symm.filterMap _
    have once := accepted.once
    cases e : deadlines now groups with
    | nil =>
      rw [e] at same
      exact same.eq_nil
    | cons deadline rest =>
      rw [e] at same once
      have none_ : rest = [] := List.length_eq_zero_iff.mp (by simpa using once)
      rw [none_] at same ⊢
      exact List.perm_singleton.mp same
  unfold options
  rw [deadlines_, perm.any_eq, perm.any_eq]

/-- A permutation of accepted groups is accepted. -/
lemma Accepted.perm (accepted : Accepted now groups) (perm : groups.Perm groups') :
    Accepted now groups' where
  valid := fun group mem => accepted.valid group (perm.mem_iff.mpr mem)
  once := by
    rw [deadlines, ← (perm.filterMap (deadline now)).length_eq]
    exact accepted.once
  exclusive := by
    rw [← perm.any_eq, ← perm.any_eq]
    exact accepted.exclusive

/-- Accepted options are read as what they say. -/
lemma Accepted.parseSetOptions (accepted : Accepted now groups) :
    Handler.parseSetOptions now (groups.flatMap tokens) {} = .ok (options now groups) := by
  rw [parseSetOptions_groups {} accepted.valid accepted.once, add_default]

/-- A deadline that accepted options give is later than the clock reading. -/
lemma Accepted.future (accepted : Accepted now groups) {deadline : Int}
    (given : (options now groups).deadline = some deadline) : now < deadline := by
  obtain ⟨group, mem, gives⟩ := List.mem_filterMap.mp (List.mem_of_head? given)
  cases group with
  | missing | present => cases gives
  | time word text n =>
    obtain ⟨_, _, _, positive, _, _⟩ := accepted.valid _ mem
    cases gives
    unfold wordUnitMs
    split <;> omega

end Parsing

end SetGroup

namespace Database

variable {db : Database} {key : Bytes} {value : Value} {now deadline : Int} {memory : Nat}

/-- A key that is created has no deadline. -/
lemma holding_create (absent : db.data.lookup key = none) :
    (db.create key value).holding key =
      some ⟨value, noExpiry, entryOverhead + key.length + payloadMemory value⟩ := by
  rw [holding, lookup_create, if_pos rfl, newEntry_of_absent absent]
  rfl

/-- The deadline is stored as it is. -/
lemma holding_setExpiry (held : db.holding key = some ⟨value, noExpiry, memory⟩) (deadline : Int) :
    (db.setExpiry key deadline).holding key = some ⟨value, deadline, memory⟩ := by
  obtain ⟨entry, present, e⟩ := Option.map_eq_some_iff.mp held
  have value_ : entry.value = value := congrArg Holding.value e
  have memory_ : entry.memory = memory := congrArg Holding.memory e
  unfold setExpiry holding
  rw [present]
  dsimp only
  split <;> rw [lookup_update, if_pos rfl] <;> simp [present, Entry.holding, value_, memory_]

/-- A key without a deadline is found. -/
lemma findLive_of_holding (held : db.holding key = some ⟨value, noExpiry, memory⟩) :
    ∃ entry, db.findLive key now = (some entry, db) := by
  obtain ⟨entry, present, e⟩ := Option.map_eq_some_iff.mp held
  have unset : entry.expiresAtMs = noExpiry := congrArg Holding.expiresAtMs e
  refine ⟨entry, ?_⟩
  unfold findLive Entry.expired
  rw [present]
  simp [unset]

/-- What is held shows, unless its deadline has been reached. -/
lemma view_of_holding {expiresAtMs : Int} (held : db.holding key = some ⟨value, expiresAtMs, memory⟩)
    (live : expiresAtMs = noExpiry ∨ now < expiresAtMs) :
    db.view now key = some ⟨value, deadlineOf expiresAtMs⟩ := by
  obtain ⟨entry, present, e⟩ := Option.map_eq_some_iff.mp held
  cases e
  refine view_of_live present ?_
  unfold Entry.expired
  rcases live with unset | future
  · simp [unset]
  · simp [not_le.mpr future]

/-- `set` leaves the key without a deadline, whatever it was before. -/
lemma holding_set (text : Bytes) (db : Database) :
    (set key text now db).2.holding key =
      some ⟨.string text, noExpiry, entryOverhead + key.length + text.length⟩ := by
  unfold set
  rcases findLive_cases db key now with ⟨entry, found, _⟩ | ⟨db', found, gone, _⟩
  · rw [found]
    exact holding_create lookup_erase_self
  · rw [found]
    exact holding_create gone

/-- A deadline in the future is set. -/
lemma expireAtMs_future (held : db.holding key = some ⟨value, noExpiry, memory⟩)
    (future : now < deadline) :
    expireAtMs key deadline now now db = (.ok true, db.setExpiry key deadline) := by
  obtain ⟨entry, found⟩ : ∃ entry, db.findLive key now = (some entry, db) :=
    findLive_of_holding held
  simp only [expireAtMs, found, if_neg (not_le.mpr future)]

end Database

/-- The flags let `SET` write, for a key that is there or not. -/
def Handler.SetOptions.Writes (options : Handler.SetOptions) (present : Bool) : Prop :=
  (options.onlyIfMissing = true → present = false) ∧ (options.onlyIfPresent = true → present = true)

/-- The records of a `SET` that writes. -/
def setRecords (key value : Bytes) (deadline : Option Int) : List (List Bytes) :=
  [ascii "SET", key, value] ::
    deadline.toList.map fun deadline => [ascii "PEXPIREAT", key, Decimal.ofInt deadline]

/-- The database after a `SET` that writes: the key holds the string and exactly the deadline or none,
and no other key looks different. -/
structure Database.Writes (before after : Database) (key value : Bytes) (deadline : Option Int)
    (now : Int) : Prop where
  stored : after.holding key =
    some ⟨.string value, deadline.getD noExpiry, entryOverhead + key.length + value.length⟩
  shown : 0 ≤ now → after.view now key = some ⟨.string value, deadline⟩
  others : ∀ other, other ≠ key → after.view now other = before.view now other

section Handler

variable {key : Bytes} {texts : List Bytes} {now : Int} {options : Handler.SetOptions}

/-- The last part of `set`, after the key was written. -/
lemma setExpiry_stores (session : Session Database) {memory : Nat} {old : Value}
    {deadline : Option Int}
    (held : session.store.holding key = some ⟨old, noExpiry, memory⟩)
    (future : ∀ given, deadline = some given → now < given) :
    ∃ store, Handler.setExpiry key deadline now session =
        (.ok (), { session with
          store := store
          records := session.records ++ if session.attached then
            deadline.toList.map fun given => [ascii "PEXPIREAT", key, Decimal.ofInt given] else [] }) ∧
      store.holding key = some ⟨old, deadline.getD noExpiry, memory⟩ ∧
      ∀ other, other ≠ key → store.view now other = session.store.view now other := by
  cases deadline with
  | none =>
    refine ⟨session.store, ?_, held, fun _ _ => rfl⟩
    simp [Handler.setExpiry]
  | some given =>
    have later := future given rfl
    have ran : Handler.call (Storage.expireAtMs key given now) session =
        (.ok true, { session with store := session.store.setExpiry key given }) := by
      have set_ : Storage.expireAtMs key given now session.store =
          (.ok true, session.store.setExpiry key given) := expireAtMs_future held later
      unfold Handler.call
      rw [set_]
    refine ⟨session.store.setExpiry key given, ?_, holding_setExpiry held given, ?_⟩
    · unfold Handler.setExpiry
      dsimp only
      rw [bind_of_ok ran]
      refine (propagate_apply _).trans ?_
      cases session.attached <;> simp
    · intro other ne
      obtain ⟨entry, present, _⟩ := Option.map_eq_some_iff.mp held
      rw [view_setExpiry present later, Function.update_of_ne ne]

/-- `set` with options that are accepted, up to the test of the flags. -/
lemma set_looks (session : Session Database) (name key value : Bytes)
    (parsed : Handler.parseSetOptions now texts {} = .ok options)
    (exclusive : ¬ (options.onlyIfMissing = true ∧ options.onlyIfPresent = true)) :
    ∃ looked, looked.view now = session.store.view now ∧
      Handler.set (name :: key :: value :: texts) now session =
        (if (options.onlyIfMissing = true ∧ (session.store.view now key).isSome = true) ∨
            (options.onlyIfPresent = true ∧ ¬ (session.store.view now key).isSome = true) then
          pure respNull
        else do
          Handler.call (Storage.set key value now)
          Handler.propagate [ascii "SET", key, value]
          Handler.setExpiry key options.deadline now
          pure (respSimpleString (ascii "OK"))) { session with store := looked } := by
  have exists_ : Performs key now (Storage.existsKey key now) SlotOp.existsKey := existsKey_performs
  obtain ⟨looked, found, view⟩ := call_ok exists_ session rfl
  refine ⟨looked, view.trans (Function.update_eq_self _ _), ?_⟩
  unfold Handler.set
  rw [argument_bind rfl, argument_bind rfl, List.drop_succ_cons, List.drop_succ_cons,
    List.drop_succ_cons, List.drop_zero, parsed]
  dsimp only
  rw [if_neg exclusive, bind_of_ok found]

/-- `set` that writes. -/
lemma set_writes (session : Session Database) (name key value : Bytes)
    (parsed : Handler.parseSetOptions now texts {} = .ok options)
    (exclusive : ¬ (options.onlyIfMissing = true ∧ options.onlyIfPresent = true))
    (future : ∀ given, options.deadline = some given → now < given)
    (writes : options.Writes (session.store.view now key).isSome) :
    ∃ store, Handler.set (name :: key :: value :: texts) now session =
        (.ok (respSimpleString (ascii "OK")), { session with
          store := store
          records := session.records ++
            if session.attached then setRecords key value options.deadline else [] }) ∧
      session.store.Writes store key value options.deadline now := by
  obtain ⟨looked, same, ran⟩ := set_looks session name key value parsed exclusive
  have sets : Performs key now (Database.set key value now) (SlotOp.set value) := set_performs
  obtain ⟨_, view⟩ := sets looked
  have wrote : Handler.call (Storage.set key value now) { session with store := looked } =
      (.ok (), { session with store := (Database.set key value now looked).2 }) := rfl
  obtain ⟨store, expired, stored, others⟩ := setExpiry_stores
    ⟨(Database.set key value now looked).2, session.attached,
      if session.attached then session.records ++ [[ascii "SET", key, value]] else session.records⟩
    (holding_set value looked) future
  have result : Handler.set (name :: key :: value :: texts) now session =
      (.ok (respSimpleString (ascii "OK")), { session with
        store := store
        records := session.records ++
          if session.attached then setRecords key value options.deadline else [] }) := by
    rw [ran, if_neg ?_, bind_of_ok wrote, bind_of_ok (propagate_apply _), bind_of_ok expired]
    · cases session.attached <;> simp [setRecords]
    · rintro (⟨missing, present⟩ | ⟨present, missing⟩)
      · rw [writes.1 missing] at present
        cases present
      · exact missing (writes.2 present)
  refine ⟨store, result, stored, fun later => ?_, fun other ne => ?_⟩
  · cases given : options.deadline with
    | none =>
      rw [given] at stored
      exact view_of_holding stored (.inl rfl)
    | some deadline =>
      have reached : now < deadline := future deadline given
      rw [given] at stored
      rw [← deadlineOf_of_pos (by omega)]
      exact view_of_holding stored (.inr reached)
  · rw [others other ne, view, Function.update_of_ne ne, same]

/-- `set` that does not. -/
lemma set_skips (session : Session Database) (name key value : Bytes)
    (parsed : Handler.parseSetOptions now texts {} = .ok options)
    (exclusive : ¬ (options.onlyIfMissing = true ∧ options.onlyIfPresent = true))
    (skips : ¬ options.Writes (session.store.view now key).isSome) :
    ∃ store, Handler.set (name :: key :: value :: texts) now session =
        (.ok respNull, { session with store := store }) ∧
      store.view now = session.store.view now := by
  obtain ⟨looked, same, ran⟩ := set_looks session name key value parsed exclusive
  refine ⟨looked, ?_, same⟩
  rw [ran, if_pos ?_]
  · rfl
  · by_contra neither
    refine skips ⟨fun missing => ?_, fun present => ?_⟩
    · by_contra present
      exact neither (.inl ⟨missing, Bool.not_eq_false _ ▸ present⟩)
    · by_contra missing
      exact neither (.inr ⟨present, missing⟩)

end Handler

/-- Memory use is within the limit, if there is one. -/
def Database.Within (db : Database) : Prop :=
  db.memoryLimit = 0 ∨ db.memoryUsed ≤ db.memoryLimit

/-- Then a write command evicts nothing. -/
lemma evictBefore_of_within {session : Session Database} (within : session.store.Within) :
    evictBefore session = (.ok true, session) := by
  have idle : ¬ session.store.EvictionDue := by
    rintro ⟨limited, large, _⟩
    exact within.elim limited fun small => absurd large small.not_gt
  have enough : session.store.evictsEnough = true := by
    rcases within with unlimited | small
    · exact evictsEnough_of_unlimited unlimited
    · unfold evictsEnough evictIfNeeded
      by_cases unlimited : session.store.memoryLimit = 0
      · rw [if_pos unlimited]
      · rw [if_neg unlimited, evictLoop, if_pos small]
  rw [evictBefore_apply, enough, victims_of_idle idle]
  simp [evictAll]

section Set

variable {processor : Processor} {aof : AofStatus} {now : Int} {name key value : Bytes}
  {texts : List Bytes}

/-- `SET` is handed to its handler. -/
lemma Processor.execute_set (within : processor.database.Within) (healthy : aof ≠ .failed)
    (named : uppercase name = ascii "SET") (short : texts.length + 3 < 2 ^ 31) :
    processor.execute aof now (name :: key :: value :: texts) =
      let (outcome, session) := Handler.set (name :: key :: value :: texts) now
        ⟨processor.database, aof.attached, []⟩
      (⟨payloadOf outcome, false⟩, session.records,
        { processor.counted with database := session.store }) := by
  have found : resolve (name :: key :: value :: texts) = .dispatch ⟨.data .set, -3, true, true⟩ := by
    refine resolve_of_upper named (by decide) (by decide) ?_
    rw [arityFits_short (by simpa using short)]
    simp
    omega
  rw [Processor.execute_of_dispatch found]
  unfold CommandSpec.execute
  rw [if_pos rfl, if_neg healthy, bind_of_ok (evictBefore_of_within within), if_neg (by simp)]
  rfl

/-- The early returns of the option loop are errors. -/
lemma parseSetOptions_isError {options : Handler.SetOptions} {payload : Bytes}
    (refused : Handler.parseSetOptions now texts options = .error payload) :
    isErrorReply payload = true := by
  fun_induction Handler.parseSetOptions now texts options with
  | case1 => cases refused
  | case2 | case3 | case6 =>
    rename_i ih
    exact ih refused
  | case4 | case5 | case7 | case8 =>
    cases refused
    decide

/-- Options that are not a sequence of accepted groups are answered with an error. -/
lemma Handler.set_error (session : Session Database) (name key value : Bytes)
    (refused : ¬ ∃ groups, SetGroup.Accepted now groups ∧ texts = groups.flatMap SetGroup.tokens) :
    ∃ payload, isErrorReply payload = true ∧
      Handler.set (name :: key :: value :: texts) now session = (.ok payload, session) := by
  cases parsed : Handler.parseSetOptions now texts {} with
  | error payload => exact ⟨payload, parseSetOptions_isError parsed, set_refuses parsed⟩
  | ok options =>
    obtain ⟨groups, rfl, valid, once⟩ := SetGroup.groups_of_parseSetOptions parsed
    rw [SetGroup.parseSetOptions_groups {} valid once, SetGroup.add_default] at parsed
    cases parsed
    -- the groups can only be refused for the two flags
    have both : (SetGroup.options now groups).onlyIfMissing = true ∧
        (SetGroup.options now groups).onlyIfPresent = true := by
      by_contra exclusive
      exact refused ⟨groups, ⟨valid, once, exclusive⟩, rfl⟩
    refine ⟨syntaxError, by decide, ?_⟩
    unfold Handler.set
    rw [argument_bind rfl, argument_bind rfl, List.drop_succ_cons, List.drop_succ_cons,
      List.drop_succ_cons, List.drop_zero, SetGroup.parseSetOptions_groups {} valid once,
      SetGroup.add_default]
    dsimp only
    rw [if_pos both]
    rfl

/-- `SET` depends on its options only by what they say. -/
lemma Handler.set_congr {groups groups' : List SetGroup} (accepted : SetGroup.Accepted now groups)
    (accepted' : SetGroup.Accepted now groups')
    (same : SetGroup.options now groups' = SetGroup.options now groups) :
    (Handler.set (name :: key :: value :: groups'.flatMap SetGroup.tokens) now : Handling Database Bytes) =
      Handler.set (name :: key :: value :: groups.flatMap SetGroup.tokens) now := by
  unfold Handler.set
  rw [argument_bind rfl, argument_bind rfl, argument_bind rfl, argument_bind rfl]
  simp only [List.drop_succ_cons, List.drop_zero, accepted.parseSetOptions,
    accepted'.parseSetOptions, same]

lemma Processor.execute_set_error (within : processor.database.Within) (healthy : aof ≠ .failed)
    (named : uppercase name = ascii "SET") (key value : Bytes) (short : texts.length + 3 < 2 ^ 31)
    (refused : ¬ ∃ groups, SetGroup.Accepted now groups ∧ texts = groups.flatMap SetGroup.tokens) :
    let after := processor.execute aof now (name :: key :: value :: texts)
    isErrorReply after.1.payload = true ∧ after.2.1 = [] ∧
      after.2.2.database = processor.database := by
  intro after
  obtain ⟨payload, error, ran⟩ :=
    Handler.set_error ⟨processor.database, aof.attached, []⟩ name key value refused
  have whole : after = _ := processor.execute_set within healthy named short
  rw [ran] at whole
  rw [whole]
  exact ⟨error, rfl, rfl⟩

section Accepted

variable {groups groups' : List SetGroup}

lemma Processor.execute_set_writes (within : processor.database.Within) (healthy : aof ≠ .failed)
    (named : uppercase name = ascii "SET") (key value : Bytes)
    (accepted : SetGroup.Accepted now groups)
    (short : (groups.flatMap SetGroup.tokens).length + 3 < 2 ^ 31)
    (writes : (SetGroup.options now groups).Writes (processor.database.view now key).isSome) :
    let after := processor.execute aof now (name :: key :: value :: groups.flatMap SetGroup.tokens)
    let deadline := (SetGroup.options now groups).deadline
    after.1.payload = respSimpleString (ascii "OK") ∧
      after.2.1 = (if aof.attached then setRecords key value deadline else []) ∧
      processor.database.Writes after.2.2.database key value deadline now := by
  intro after deadline
  obtain ⟨store, ran, written⟩ := set_writes ⟨processor.database, aof.attached, []⟩ name key value
    accepted.parseSetOptions accepted.exclusive (fun _ given => accepted.future given) writes
  have whole : after = _ := processor.execute_set within healthy named short
  rw [ran] at whole
  rw [whole]
  exact ⟨rfl, rfl, written⟩

lemma Processor.execute_set_skips (within : processor.database.Within) (healthy : aof ≠ .failed)
    (named : uppercase name = ascii "SET") (key value : Bytes)
    (accepted : SetGroup.Accepted now groups)
    (short : (groups.flatMap SetGroup.tokens).length + 3 < 2 ^ 31)
    (skips : ¬ (SetGroup.options now groups).Writes (processor.database.view now key).isSome) :
    let after := processor.execute aof now (name :: key :: value :: groups.flatMap SetGroup.tokens)
    after.1.payload = respNull ∧ after.2.1 = [] ∧
      after.2.2.database.view now = processor.database.view now := by
  intro after
  obtain ⟨store, ran, same⟩ := set_skips ⟨processor.database, aof.attached, []⟩ name key value
    accepted.parseSetOptions accepted.exclusive skips
  have whole : after = _ := processor.execute_set within healthy named short
  rw [ran] at whole
  rw [whole]
  exact ⟨rfl, rfl, same⟩

/-- `SET` depends on its options only by what they say. -/
lemma Processor.execute_set_congr (within : processor.database.Within) (healthy : aof ≠ .failed)
    (named : uppercase name = ascii "SET") (key value : Bytes)
    (accepted : SetGroup.Accepted now groups) (accepted' : SetGroup.Accepted now groups')
    (short : (groups.flatMap SetGroup.tokens).length + 3 < 2 ^ 31)
    (short' : (groups'.flatMap SetGroup.tokens).length + 3 < 2 ^ 31)
    (same : SetGroup.options now groups' = SetGroup.options now groups) :
    processor.execute aof now (name :: key :: value :: groups'.flatMap SetGroup.tokens) =
      processor.execute aof now (name :: key :: value :: groups.flatMap SetGroup.tokens) := by
  rw [processor.execute_set within healthy named short', processor.execute_set within healthy named short,
    Handler.set_congr accepted accepted' same]

end Accepted

/-- The options of `SET` are parsed exactly and in any order. `SET` is answered with an error exactly
if its options are not a sequence of accepted groups, and then nothing changes. Otherwise it writes
exactly if the flags admit it, and what it does depends only on the flags that occur and on the
deadline; so every permutation of the groups does the same. -/
theorem set_options_exact {processor : Processor} (within : processor.database.Within)
    {aof : AofStatus} (healthy : aof ≠ .failed) (now : Int) {name : Bytes}
    (named : uppercase name = ascii "SET") (key value : Bytes) :
    let before := processor.database
    let answer := fun texts => processor.execute aof now (name :: key :: value :: texts)
    (∀ texts, texts.length + 3 < 2 ^ 31 →
      (isErrorReply (answer texts).1.payload = false ↔
        ∃ groups, SetGroup.Accepted now groups ∧ texts = groups.flatMap SetGroup.tokens) ∧
      (isErrorReply (answer texts).1.payload = true →
        (answer texts).2.1 = [] ∧ (answer texts).2.2.database = before)) ∧
    (∀ groups, SetGroup.Accepted now groups → (groups.flatMap SetGroup.tokens).length + 3 < 2 ^ 31 →
      let options := SetGroup.options now groups
      let after := answer (groups.flatMap SetGroup.tokens)
      (options.Writes (before.view now key).isSome →
        after.1.payload = respSimpleString (ascii "OK") ∧
        after.2.1 = (if aof.attached then setRecords key value options.deadline else []) ∧
        before.Writes after.2.2.database key value options.deadline now) ∧
      (¬ options.Writes (before.view now key).isSome →
        after.1.payload = respNull ∧ after.2.1 = [] ∧
        after.2.2.database.view now = before.view now) ∧
      (∀ groups', SetGroup.Accepted now groups' →
        (groups'.flatMap SetGroup.tokens).length + 3 < 2 ^ 31 →
        SetGroup.options now groups' = options → answer (groups'.flatMap SetGroup.tokens) = after) ∧
      ∀ groups', groups.Perm groups' → answer (groups'.flatMap SetGroup.tokens) = after) := by
  intro before answer
  refine ⟨fun texts short => ?_, fun groups accepted short => ⟨?_, ?_, ?_, ?_⟩⟩
  · by_cases given : ∃ groups, SetGroup.Accepted now groups ∧ texts = groups.flatMap SetGroup.tokens
    · have fine : isErrorReply (answer texts).1.payload = false := by
        obtain ⟨groups, accepted, rfl⟩ := given
        by_cases writes : (SetGroup.options now groups).Writes (before.view now key).isSome
        · obtain ⟨payload, _⟩ := processor.execute_set_writes within healthy named key value accepted
            short writes
          rw [payload]
          decide
        · obtain ⟨payload, _⟩ := processor.execute_set_skips within healthy named key value accepted
            short writes
          rw [payload]
          decide
      refine ⟨iff_of_true fine given, fun error => ?_⟩
      rw [fine] at error
      cases error
    · obtain ⟨error, unchanged⟩ :=
        processor.execute_set_error within healthy named key value short given
      refine ⟨iff_of_false (fun fine => ?_) given, fun _ => unchanged⟩
      rw [error] at fine
      cases fine
  · exact processor.execute_set_writes within healthy named key value accepted short
  · exact processor.execute_set_skips within healthy named key value accepted short
  · intro groups' accepted' short' same
    exact processor.execute_set_congr within healthy named key value accepted accepted' short short' same
  · intro groups' perm
    have short' : (groups'.flatMap SetGroup.tokens).length + 3 < 2 ^ 31 := by
      rw [(perm.symm.flatMap_right SetGroup.tokens).length_eq]
      exact short
    exact processor.execute_set_congr within healthy named key value accepted (accepted.perm perm) short
      short' (accepted.options_perm perm)

/-- Two orders of a flag and a lifetime. -/
theorem set_options_exact_swapped :
    (emptyProcessor 0 .noEviction).execute .healthy 1000
        [ascii "set", [107], [118], ascii "nx", ascii "PX", ascii "5"] =
      (emptyProcessor 0 .noEviction).execute .healthy 1000
        [ascii "set", [107], [118], ascii "PX", ascii "5", ascii "nx"] := by
  have lifetime : (SetGroup.time (ascii "PX") (ascii "5") 5).Valid 1000 :=
    ⟨.inr (by decide), Decimal.parseSigned_eq_some_iff.mp (by decide), by decide, by decide,
      by decide, by decide⟩
  have flag : (SetGroup.missing (ascii "nx")).Valid 1000 := by
    show uppercase (ascii "nx") = ascii "NX"
    decide
  have accepted : SetGroup.Accepted 1000 [.time (ascii "PX") (ascii "5") 5, .missing (ascii "nx")] :=
    ⟨List.forall_mem_cons.mpr ⟨lifetime, List.forall_mem_cons.mpr ⟨flag, List.forall_mem_nil _⟩⟩,
      by decide, by decide⟩
  have within : (emptyProcessor 0 .noEviction).database.Within := .inl rfl
  have healthy : AofStatus.healthy ≠ .failed := by decide
  have named : uppercase (ascii "set") = ascii "SET" := by decide
  obtain ⟨_, accepts⟩ := set_options_exact within healthy 1000 named [107] [118]
  obtain ⟨_, _, _, permuted⟩ := accepts _ accepted (by decide)
  exact permuted [.missing (ascii "nx"), .time (ascii "PX") (ascii "5") 5] (.swap _ _ [])

end Set

end FlashKV
