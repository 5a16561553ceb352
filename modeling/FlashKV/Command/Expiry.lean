import FlashKV.Command.Unlimited
import FlashKV.Database.Ttl

/-!
# Setting and reading deadlines

`EXPIRE`, `PEXPIRE`, `EXPIREAT`, `PEXPIREAT` and `SET` with `EX` or `PX`, on a live key and without a
memory limit. The deadline that they set is exact, and `TTL` and `PTTL` read it back until the clock
reaches it.
-/

namespace FlashKV

open StateAction Database

/-- A command that sets a deadline. `SET` has options `XX`, which do not matter to a live key, before
and after the one that gives the time. -/
inductive ExpiryCommand where
  | expire
  | pexpire
  | expireat
  | pexpireat
  | set (value : Bytes) (before : List Bytes) (option : Bytes) (after : List Bytes)
  deriving DecidableEq, Repr

namespace ExpiryCommand

def name : ExpiryCommand → Bytes
  | .expire => ascii "EXPIRE"
  | .pexpire => ascii "PEXPIRE"
  | .expireat => ascii "EXPIREAT"
  | .pexpireat => ascii "PEXPIREAT"
  | .set .. => ascii "SET"

/-- The arguments after the key, the time being written as `text`. -/
def options (text : Bytes) : ExpiryCommand → List Bytes
  | .expire | .pexpire | .expireat | .pexpireat => [text]
  | .set value before option after => value :: (before ++ option :: text :: after)

/-- The options of `SET` are what they have to be, in any case. -/
def WellFormed : ExpiryCommand → Prop
  | .set _ before option after =>
    (∀ flag ∈ before ++ after, uppercase flag = ascii "XX") ∧
      (uppercase option = ascii "EX" ∨ uppercase option = ascii "PX") ∧
      before.length + after.length + 5 < 2 ^ 31
  | _ => True

/-- The milliseconds in the unit of the time. -/
def unitMs : ExpiryCommand → Int
  | .expire | .expireat => 1000
  | .pexpire | .pexpireat => 1
  | .set _ _ option _ => if uppercase option = ascii "EX" then 1000 else 1

/-- Is the time a point in time, and not counted from now? -/
def absolute : ExpiryCommand → Bool
  | .expireat | .pexpireat => true
  | .expire | .pexpire | .set .. => false

/-- The exact deadline. -/
def deadline (now n : Int) (command : ExpiryCommand) : Int :=
  n * command.unitMs + if command.absolute then 0 else now

def isSet : ExpiryCommand → Bool
  | .set .. => true
  | _ => false

/-- The value that the key has afterwards. -/
def stored (old : Value) : ExpiryCommand → Value
  | .set value .. => .string value
  | _ => old

/-- The text is a numeral of the time `n`, and the command admits it: no step overflows, and the
lifetime that `SET` gives is positive. -/
structure Admits (text : Bytes) (now n : Int) (command : ExpiryCommand) : Prop where
  numeral : Decimal.Numeral text n
  isInt64 : IsInt64 n
  product : IsInt64 (n * command.unitMs)
  sum : IsInt64 (command.deadline now n)
  positive : command.isSet = true → 0 < n

def handler : ExpiryCommand → DataHandler
  | .expire => .expire
  | .pexpire => .pexpire
  | .expireat => .expireat
  | .pexpireat => .pexpireat
  | .set .. => .set

/-- The command's entry in the command table. -/
def spec : ExpiryCommand → CommandSpec
  | .expire => ⟨.data .expire, 3, true, false⟩
  | .pexpire => ⟨.data .pexpire, 3, true, false⟩
  | .expireat => ⟨.data .expireat, 3, true, false⟩
  | .pexpireat => ⟨.data .pexpireat, 3, true, false⟩
  | .set .. => ⟨.data .set, -3, true, true⟩

lemma spec_handler (command : ExpiryCommand) : command.spec.handler = .data command.handler := by
  cases command <;> rfl

lemma lookup_name (command : ExpiryCommand) :
    commandTable.lookup command.name = some command.spec := by
  cases command with
  | expire | pexpire | expireat | pexpireat => decide
  | set value before option after =>
    show commandTable.lookup (ascii "SET") = some ⟨.data .set, -3, true, true⟩
    decide

/-- The command finds its handler. -/
lemma resolve_name {command : ExpiryCommand} {name : Bytes} (wellFormed : command.WellFormed)
    (named : uppercase name = command.name) (key text : Bytes) :
    resolve (name :: key :: command.options text) = .dispatch command.spec := by
  refine resolve_of_upper named ?_ command.lookup_name ?_
  · cases command <;> (change ascii _ ≠ _; decide)
  · cases command with
    | expire | pexpire | expireat | pexpireat => rw [arityFits_short (by simp [options])]; rfl
    | set value before option after =>
      have short : (name :: key :: value :: (before ++ option :: text :: after)).length < 2 ^ 31 := by
        have := wellFormed.2.2
        simp only [List.length_cons, List.length_append]
        omega
      rw [options, arityFits_short short]
      simp [spec]
      omega

end ExpiryCommand

section Deadlines

variable {db : Database} {key : Bytes} {now deadline : Int} {slot : Slot}

/-- A deadline that has been reached removes the key. -/
lemma expireAtMs_reached (shown : db.view now key = some slot) (reached : deadline ≤ now) :
    expireAtMs key deadline now now db = (.ok true, db.erase key) := by
  rcases findLive_cases db key now with ⟨entry, hf, _⟩ | ⟨_, _, _, _, gone⟩
  · simp only [expireAtMs, hf, if_pos reached]
  · rw [shown] at gone
    cases gone

/-- What `existsKey` says about a key that is not stored. -/
lemma existsKey_of_absent (absent : db.data.lookup key = none) :
    existsKey key now db = (.ok false, db) := by
  unfold existsKey findLive
  rw [absent]
  rfl

/-- A deadline that is a millisecond or more after the epoch is stored as it is. -/
lemma deadlineOf_of_pos (pos : 0 < deadline) : deadlineOf deadline = some deadline := by
  unfold deadlineOf noExpiry
  exact if_neg (by omega)

/-- The key is gone if the deadline has been reached, and otherwise it has the value and the
deadline. -/
structure Database.Expires (db : Database) (key : Bytes) (now : Int) (value : Value)
    (deadline : Int) : Prop where
  removed : deadline ≤ now → db.data.lookup key = none
  kept : now < deadline → db.view now key = some ⟨value, some deadline⟩

/-- `expireAtMs` on a live key. -/
lemma expireAtMs_expires (session : Session Database) (pos : 0 < now)
    (shown : session.store.view now key = some slot) (deadline : Int) :
    ∃ store, Handler.call (Storage.expireAtMs key deadline now) session =
        (.ok true, { session with store := store }) ∧
      store.Expires key now slot.value deadline := by
  -- a reached deadline erases the key at once, and no deadline is stored
  by_cases reached : deadline ≤ now
  · refine ⟨session.store.erase key, ?_, fun _ => lookup_erase_self, fun later => by omega⟩
    have ran : Storage.expireAtMs key deadline now session.store = (.ok true, session.store.erase key) :=
      expireAtMs_reached shown reached
    unfold Handler.call
    rw [ran]
  · have performs : Performs key now (Storage.expireAtMs key deadline now)
        (SlotOp.expireAtMs .native deadline now) := expireAtMs_performs
    have op : SlotOp.expireAtMs .native deadline now (session.store.view now key) =
        (.ok true, some ⟨slot.value, some deadline⟩) := by
      rw [shown]
      simp only [SlotOp.expireAtMs, if_neg reached]
      -- a deadline after `now` is not the sentinel of no expiry
      rw [← deadlineOf_of_pos (by omega)]
      rfl
    obtain ⟨store, ran, view⟩ := call_ok performs session (congrArg Prod.fst op)
    refine ⟨store, ran, fun early => absurd early reached, fun _ => ?_⟩
    rw [view, op, Function.update_self]

/-- Looking whether the key is there changes none of that. -/
lemma existsKey_expires (session : Session Database) {value : Value}
    (expires : session.store.Expires key now value deadline) :
    ∃ present store, Handler.call (Storage.existsKey key now) session =
        (.ok present, { session with store := store }) ∧
      store.Expires key now value deadline := by
  by_cases reached : deadline ≤ now
  · have ran : Storage.existsKey key now session.store = (.ok false, session.store) :=
      existsKey_of_absent (expires.removed reached)
    refine ⟨false, session.store, ?_, expires⟩
    unfold Handler.call
    rw [ran]
  · have performs : Performs key now (Storage.existsKey key now) SlotOp.existsKey :=
      existsKey_performs
    obtain ⟨store, ran, view⟩ := call_ok performs session rfl
    refine ⟨_, store, ran, fun early => absurd early reached, fun later => ?_⟩
    rw [view, SlotOp.existsKey, Function.update_self]
    exact expires.kept later

/-- The record of the deadline leaves the database alone. -/
lemma propagateDeadline_apply (key : Bytes) (deadline : Int) (present : Bool)
    (session : Session Database) :
    ∃ records, Handler.propagateDeadline key deadline present session =
      (.ok (), { session with records := records }) := by
  cases present with
  | true => exact propagate_store _ session
  | false => exact propagate_store _ session

end Deadlines

section Generic

variable {session : Session Database} {name key text : Bytes} {unitMs now n deadline : Int}
  {absolute : Bool} {slot : Slot}

lemma expireDeadline_eq_some_iff :
    Handler.expireDeadline n unitMs now absolute = some deadline ↔
      IsInt64 (n * unitMs) ∧ IsInt64 deadline ∧
        deadline = n * unitMs + if absolute then 0 else now := by
  unfold Handler.expireDeadline
  constructor
  · intro h
    obtain ⟨ms, product, rest⟩ := Option.bind_eq_some_iff.mp h
    obtain ⟨rfl, range⟩ := fit64_eq_some_iff.mp product
    cases absolute with
    | true =>
      cases rest
      exact ⟨range, range, (add_zero _).symm⟩
    | false =>
      obtain ⟨same, fits⟩ := fit64_eq_some_iff.mp rest
      exact ⟨range, fits, same⟩
  · rintro ⟨product, fits, rfl⟩
    refine Option.bind_eq_some_iff.mpr ⟨_, fit64_eq_some_iff.mpr ⟨rfl, product⟩, ?_⟩
    cases absolute with
    | true => exact congrArg some (add_zero _).symm
    | false => exact fit64_eq_some_iff.mpr ⟨rfl, fits⟩

lemma setDeadline_eq_some_iff :
    Handler.setDeadline n unitMs now = some deadline ↔
      0 < n ∧ IsInt64 (n * unitMs) ∧ IsInt64 deadline ∧ deadline = n * unitMs + now := by
  unfold Handler.setDeadline
  constructor
  · intro h
    split at h
    · cases h
    · obtain ⟨ms, product, rest⟩ := Option.bind_eq_some_iff.mp h
      obtain ⟨rfl, range⟩ := fit64_eq_some_iff.mp product
      obtain ⟨same, fits⟩ := fit64_eq_some_iff.mp rest
      exact ⟨by omega, range, fits, same⟩
  · rintro ⟨pos, product, fits, rfl⟩
    rw [if_neg (by omega)]
    exact Option.bind_eq_some_iff.mpr
      ⟨_, fit64_eq_some_iff.mpr ⟨rfl, product⟩, fit64_eq_some_iff.mpr ⟨rfl, fits⟩⟩

/-- `expireGeneric` with a time that is admitted. -/
lemma expireGeneric_sets (pos : 0 < now) (shown : session.store.view now key = some slot)
    (read : parseStrictInteger text = some n)
    (fits : Handler.expireDeadline n unitMs now absolute = some deadline) :
    ∃ session', Handler.expireGeneric [name, key, text] unitMs absolute now session =
        (.ok (respInteger 1), session') ∧
      session'.store.Expires key now slot.value deadline := by
  obtain ⟨store, ran, expires⟩ := expireAtMs_expires session pos shown deadline
  obtain ⟨present, store', looked, expires'⟩ :=
    existsKey_expires { session with store := store } expires
  obtain ⟨records, recorded⟩ :=
    propagateDeadline_apply key deadline present { session with store := store' }
  refine ⟨{ session with store := store', records := records }, ?_, expires'⟩
  unfold Handler.expireGeneric
  rw [argument_bind rfl, read]
  dsimp only
  rw [fits]
  dsimp only
  rw [argument_bind rfl, bind_of_ok ran, if_pos rfl, bind_of_ok looked, bind_of_ok recorded]
  rfl

/-- `expireGeneric` with any other text. -/
lemma expireGeneric_refuses
    (bad : ∀ n deadline, parseStrictInteger text = some n →
      Handler.expireDeadline n unitMs now absolute ≠ some deadline) :
    ∃ payload, isErrorReply payload = true ∧
      Handler.expireGeneric [name, key, text] unitMs absolute now session =
        (.ok payload, session) := by
  unfold Handler.expireGeneric
  rw [argument_bind rfl]
  cases read : parseStrictInteger text with
  | none => exact ⟨notAnInteger, by decide, rfl⟩
  | some n =>
    cases fits : Handler.expireDeadline n unitMs now absolute with
    | some deadline => exact absurd fits (bad n deadline read)
    | none =>
      refine ⟨respError (ascii "invalid expire time in '" ++ lowercase name ++ ascii "' command"),
        rfl, ?_⟩
      dsimp only
      rw [fits]
      rfl

end Generic

section Set

variable {session : Session Database} {key text value option : Bytes} {flags : List Bytes}
  {now n deadline : Int}

/-- An `XX` flag is read over. -/
lemma parseSetOptions_flag {flag : Bytes} (named : uppercase flag = ascii "XX") (rest : List Bytes)
    (options : Handler.SetOptions) :
    Handler.parseSetOptions now (flag :: rest) options =
      Handler.parseSetOptions now rest { options with onlyIfPresent := true } := by
  rw [Handler.parseSetOptions.eq_def]
  dsimp only
  rw [named, if_neg (by decide), if_pos rfl]

lemma parseSetOptions_flags (now : Int) (present : ∀ flag ∈ flags, uppercase flag = ascii "XX")
    (rest : List Bytes) (options : Handler.SetOptions) :
    ∃ only, Handler.parseSetOptions now (flags ++ rest) options =
      Handler.parseSetOptions now rest { options with onlyIfPresent := only } := by
  induction flags generalizing options with
  | nil => exact ⟨options.onlyIfPresent, rfl⟩
  | cons flag flags ih =>
    obtain ⟨flag_, flags_⟩ := List.forall_mem_cons.mp present
    obtain ⟨only, same⟩ := ih flags_ { options with onlyIfPresent := true }
    exact ⟨only, (parseSetOptions_flag flag_ _ options).trans same⟩

/-- The option that gives the time. -/
lemma parseSetOptions_time (named : uppercase option = ascii "EX" ∨ uppercase option = ascii "PX")
    (options : Handler.SetOptions) (first : options.deadline = none)
    (read : parseStrictInteger text = some n)
    (fits : Handler.setDeadline n (if uppercase option = ascii "EX" then 1000 else 1) now =
      some deadline) (rest : List Bytes) :
    Handler.parseSetOptions now (option :: text :: rest) options =
      Handler.parseSetOptions now rest { options with deadline := some deadline } := by
  have others : uppercase option ≠ ascii "NX" ∧ uppercase option ≠ ascii "XX" := by
    rcases named with named | named <;> (rw [named]; decide)
  rw [Handler.parseSetOptions.eq_def]
  simp only [if_neg others.1, if_neg others.2, if_pos named, first, read, fits]

/-- The option that gives a time that is not admitted. -/
lemma parseSetOptions_refuses
    (named : uppercase option = ascii "EX" ∨ uppercase option = ascii "PX")
    (options : Handler.SetOptions) (first : options.deadline = none)
    (bad : ∀ n deadline, parseStrictInteger text = some n →
      Handler.setDeadline n (if uppercase option = ascii "EX" then 1000 else 1) now ≠ some deadline)
    (rest : List Bytes) :
    ∃ payload, isErrorReply payload = true ∧
      Handler.parseSetOptions now (option :: text :: rest) options = .error payload := by
  have others : uppercase option ≠ ascii "NX" ∧ uppercase option ≠ ascii "XX" := by
    rcases named with named | named <;> (rw [named]; decide)
  rw [Handler.parseSetOptions.eq_def]
  simp only [if_neg others.1, if_neg others.2, if_pos named, first]
  cases read : parseStrictInteger text with
  | none => exact ⟨notAnInteger, by decide, rfl⟩
  | some n =>
    cases fits : Handler.setDeadline n (if uppercase option = ascii "EX" then 1000 else 1) now with
    | some deadline => exact absurd fits (bad n deadline read)
    | none =>
      refine ⟨respError (ascii "invalid expire time in 'set' command"), by decide, ?_⟩
      simp only [fits]

/-- The last part of `set`. -/
lemma setExpiry_expires (session : Session Database) {slot : Slot} (pos : 0 < now)
    (shown : session.store.view now key = some slot) (deadline : Int) :
    ∃ session', Handler.setExpiry key (some deadline) now session = (.ok (), session') ∧
      session'.store.Expires key now slot.value deadline := by
  obtain ⟨store, ran, expires⟩ := expireAtMs_expires session pos shown deadline
  obtain ⟨records, recorded⟩ := propagate_store [ascii "PEXPIREAT", key, Decimal.ofInt deadline]
    { session with store := store }
  refine ⟨⟨store, session.attached, records⟩, ?_, expires⟩
  unfold Handler.setExpiry
  dsimp only
  rw [bind_of_ok ran]
  exact recorded

/-- `set` with options that are accepted. -/
lemma set_sets {name : Bytes} {options : List Bytes} {only : Bool} {slot : Slot} (pos : 0 < now)
    (shown : session.store.view now key = some slot)
    (parsed : Handler.parseSetOptions now options {} =
      .ok { onlyIfPresent := only, deadline := some deadline }) :
    ∃ session', Handler.set (name :: key :: value :: options) now session =
        (.ok (respSimpleString (ascii "OK")), session') ∧
      session'.store.Expires key now (.string value) deadline := by
  have exists_ : Performs key now (Storage.existsKey key now) SlotOp.existsKey := existsKey_performs
  have present : (SlotOp.existsKey (session.store.view now key)).1 = .ok true := by
    rw [shown]
    rfl
  obtain ⟨looked, found, _⟩ := call_ok exists_ session present
  have sets : Performs key now (Storage.set key value now) (SlotOp.set value) := set_performs
  obtain ⟨written, wrote, view⟩ := call_ok sets { session with store := looked } rfl
  have shown' : written.view now key = some ⟨.string value, none⟩ := by
    rw [view, SlotOp.set, Function.update_self]
  obtain ⟨records, recorded⟩ :=
    propagate_store [ascii "SET", key, value] { session with store := written }
  obtain ⟨session', expired, expires⟩ :=
    setExpiry_expires ⟨written, session.attached, records⟩ pos shown' deadline
  refine ⟨session', ?_, expires⟩
  unfold Handler.set
  rw [argument_bind rfl, argument_bind rfl, List.drop_succ_cons, List.drop_succ_cons,
    List.drop_succ_cons, List.drop_zero, parsed]
  simp only [Bool.false_eq_true, false_and, if_false]
  rw [bind_of_ok found]
  simp only [not_true_eq_false, and_false, or_self, if_false]
  rw [bind_of_ok wrote, bind_of_ok recorded, bind_of_ok expired]
  rfl

/-- `set` with options that are refused. -/
lemma set_refuses {name payload : Bytes} {options : List Bytes}
    (parsed : Handler.parseSetOptions now options {} = .error payload) :
    Handler.set (name :: key :: value :: options) now session = (.ok payload, session) := by
  unfold Handler.set
  rw [argument_bind rfl, argument_bind rfl, List.drop_succ_cons, List.drop_succ_cons,
    List.drop_succ_cons, List.drop_zero, parsed]
  rfl

end Set

namespace ExpiryCommand

variable {command : ExpiryCommand} {key text : Bytes} {now n : Int} {slot : Slot}

/-- A time that the command admits sets its deadline. -/
lemma run_admitted (session : Session Database) (name : Bytes) (wellFormed : command.WellFormed)
    (pos : 0 < now) (shown : session.store.view now key = some slot) (admits : command.Admits text now n) :
    ∃ payload session', command.handler.run (name :: key :: command.options text) now session =
        (.ok payload, session') ∧ isErrorReply payload = false ∧
      session'.store.Expires key now (command.stored slot.value) (command.deadline now n) := by
  have read := parseStrictInteger_eq_some_iff.mpr ⟨admits.numeral, admits.isInt64⟩
  cases command with
  | expire | pexpire | expireat | pexpireat =>
    have fits := expireDeadline_eq_some_iff.mpr ⟨admits.product, admits.sum, rfl⟩
    obtain ⟨session', ran, expires⟩ := expireGeneric_sets pos shown read fits
    exact ⟨_, session', ran, rfl, expires⟩
  | set value before option after =>
    obtain ⟨flags, named, _⟩ := wellFormed
    obtain ⟨before_, after_⟩ := List.forall_mem_append.mp flags
    have fits : Handler.setDeadline n (unitMs (.set value before option after)) now =
        some (deadline now n (.set value before option after)) :=
      setDeadline_eq_some_iff.mpr ⟨admits.positive rfl, admits.product, admits.sum, rfl⟩
    obtain ⟨only, earlier⟩ := parseSetOptions_flags now before_ (option :: text :: after) {}
    obtain ⟨only', later⟩ := parseSetOptions_flags now after_ []
      { onlyIfPresent := only, deadline := some (deadline now n (.set value before option after)) }
    have parsed : Handler.parseSetOptions now (before ++ option :: text :: after) {} =
        .ok { onlyIfPresent := only',
              deadline := some (deadline now n (.set value before option after)) } := by
      rw [earlier, parseSetOptions_time named _ rfl read fits after, ← List.append_nil after]
      exact later
    obtain ⟨session', ran, expires⟩ := set_sets pos shown parsed
    exact ⟨_, session', ran, rfl, expires⟩

/-- Any other text is refused. -/
lemma run_refused (session : Session Database) (name key : Bytes) (wellFormed : command.WellFormed)
    (refused : ¬ ∃ n, command.Admits text now n) :
    ∃ payload, isErrorReply payload = true ∧
      command.handler.run (name :: key :: command.options text) now session =
        (.ok payload, session) := by
  cases command with
  | expire | pexpire | expireat | pexpireat =>
    refine expireGeneric_refuses fun n deadline read fits => refused ⟨n, ?_⟩
    obtain ⟨product, sum, rfl⟩ := expireDeadline_eq_some_iff.mp fits
    obtain ⟨numeral, range⟩ := parseStrictInteger_eq_some_iff.mp read
    exact ⟨numeral, range, product, sum, fun set => by cases set⟩
  | set value before option after =>
    obtain ⟨flags, named, _⟩ := wellFormed
    obtain ⟨before_, after_⟩ := List.forall_mem_append.mp flags
    obtain ⟨only, earlier⟩ := parseSetOptions_flags now before_ (option :: text :: after) {}
    -- the flags before the option are read over, so the option decides
    have bad : ∀ n deadline, parseStrictInteger text = some n →
        Handler.setDeadline n (unitMs (.set value before option after)) now ≠ some deadline := by
      intro n deadline read fits
      obtain ⟨pos, product, sum, rfl⟩ := setDeadline_eq_some_iff.mp fits
      obtain ⟨numeral, range⟩ := parseStrictInteger_eq_some_iff.mp read
      exact refused ⟨n, numeral, range, product, sum, fun _ => pos⟩
    obtain ⟨payload, error, parsed⟩ :=
      parseSetOptions_refuses named { onlyIfPresent := only } rfl bad after
    exact ⟨payload, error, set_refuses (earlier.trans parsed)⟩

end ExpiryCommand

section Readings

variable {processor : Processor} {aof : AofStatus} {t deadline : Int} {name key : Bytes}
  {value : Value}

/-- `PTTL` before the deadline. -/
lemma execute_pttl (unlimited : processor.database.memoryLimit = 0) (healthy : aof ≠ .failed)
    (named : uppercase name = ascii "PTTL")
    (shown : processor.database.view t key = some ⟨value, some deadline⟩)
    (fits : IsInt64 (deadline - t)) :
    (processor.execute aof t [name, key]).1.payload = respInteger (deadline - t) := by
  have found : resolve [name, key] = .dispatch ⟨.data .pttl, 2, false, false⟩ :=
    resolve_of_upper named (by decide) (by decide) (by rw [arityFits_short (by simp)]; rfl)
  have returns : (SlotOp.ttlMs .native t (processor.database.view t key)).1 = .ok (deadline - t) := by
    rw [shown]
    exact congrArg Except.ok (wrap64_of_fits fits.1 fits.2)
  exact processor.execute_read healthy found rfl unlimited ttlMs_performs (argument_bind rfl _) returns

/-- `TTL` before the deadline. -/
lemma execute_ttl (unlimited : processor.database.memoryLimit = 0) (healthy : aof ≠ .failed)
    (named : uppercase name = ascii "TTL")
    (shown : processor.database.view t key = some ⟨value, some deadline⟩) (future : t < deadline)
    (fits : IsInt64 (deadline - t + 500)) :
    (processor.execute aof t [name, key]).1.payload = respInteger ((deadline - t + 500) / 1000) := by
  have found : resolve [name, key] = .dispatch ⟨.data .ttl, 2, false, false⟩ :=
    resolve_of_upper named (by decide) (by decide) (by rw [arityFits_short (by simp)]; rfl)
  have remaining : wrap64 (deadline - t) = deadline - t := by
    obtain ⟨least, greatest⟩ := fits
    refine wrap64_of_fits ?_ (by omega)
    unfold int64Min
    omega
  have seconds : ttlSeconds (deadline - t) = (deadline - t + 500) / 1000 :=
    ttlSeconds_of_fits (by omega) fits.2
  have returns : (SlotOp.ttl .native t (processor.database.view t key)).1 =
      .ok ((deadline - t + 500) / 1000) := by
    rw [shown]
    show Except.ok (ttlSeconds (wrap64 (deadline - t))) = _
    rw [remaining, seconds]
  exact processor.execute_read healthy found rfl unlimited ttl_performs (argument_bind rfl _) returns

end Readings

/-- A processor whose key has that value until the clock reaches the deadline: from `now` on the key
is there exactly before the deadline, no step of reading the remaining time overflows, and `PTTL` and
`TTL` reply the exact time and the rounded one. -/
structure Processor.ReadsBack (processor : Processor) (key : Bytes) (now : Int) (value : Value)
    (deadline : Int) : Prop where
  shown : ∀ t, now ≤ t → t < deadline →
    processor.database.view t key = some ⟨value, some deadline⟩
  gone : ∀ t, deadline ≤ t → processor.database.view t key = none
  fits : ∀ t, now ≤ t → t < deadline → IsInt64 (deadline - t) ∧ IsInt64 (deadline - t + 500)
  pttl : ∀ t aof name, now ≤ t → t < deadline → aof ≠ .failed → uppercase name = ascii "PTTL" →
    (processor.execute aof t [name, key]).1.payload = respInteger (deadline - t)
  ttl : ∀ t aof name, now ≤ t → t < deadline → aof ≠ .failed → uppercase name = ascii "TTL" →
    (processor.execute aof t [name, key]).1.payload = respInteger ((deadline - t + 500) / 1000)

lemma Processor.readsBack {processor : Processor} {key : Bytes} {now deadline : Int} {value : Value}
    (unlimited : processor.database.memoryLimit = 0) (low : 500 ≤ now) (typed : IsInt64 deadline)
    (later : now < deadline)
    (shown : processor.database.view now key = some ⟨value, some deadline⟩) :
    processor.ReadsBack key now value deadline := by
  have shows : ∀ t, now ≤ t → t < deadline →
      processor.database.view t key = some ⟨value, some deadline⟩ := by
    intro t le future
    rw [view_later le, shown]
    exact Slot.filter_live (decide_eq_true future)
  have fits : ∀ t, now ≤ t → t < deadline →
      IsInt64 (deadline - t) ∧ IsInt64 (deadline - t + 500) := by
    intro t le future
    unfold IsInt64 int64Min int64Max at *
    omega
  have gone : ∀ t, deadline ≤ t → processor.database.view t key = none := by
    intro t reached
    rw [view_later (later.le.trans reached), shown]
    exact Slot.filter_dead (decide_eq_false reached.not_gt)
  exact {
    shown := shows
    gone := gone
    fits := fits
    pttl := fun t aof name le future healthy named =>
      execute_pttl unlimited healthy named (shows t le future) (fits t le future).1
    ttl := fun t aof name le future healthy named =>
      execute_ttl unlimited healthy named (shows t le future) future (fits t le future).2 }

/-- Expiry arithmetic is exact. A command that sets a deadline on a live key is answered with an error
exactly if it does not admit its time, and then nothing changes. Otherwise the key is removed exactly
if the exact deadline has been reached, and else it is there until the clock reaches the deadline, and
`PTTL` and `TTL` read the deadline back; in particular `TTL` at the same instant returns what `EXPIRE`
was given. -/
theorem expiry_exact {processor : Processor} (unlimited : processor.database.memoryLimit = 0)
    {aof : AofStatus} (healthy : aof ≠ .failed) {now : Int} (low : 500 ≤ now) {key : Bytes}
    {slot : Slot} (live : processor.database.view now key = some slot) {command : ExpiryCommand}
    (wellFormed : command.WellFormed) {name : Bytes} (named : uppercase name = command.name)
    (text : Bytes) :
    let answer := processor.execute aof now (name :: key :: command.options text)
    let after := answer.2.2
    (isErrorReply answer.1.payload = true ↔ ¬ ∃ n, command.Admits text now n) ∧
    (isErrorReply answer.1.payload = true → after.database = processor.database) ∧
    ∀ n, command.Admits text now n →
      let deadline := command.deadline now n
      (after.database.data.lookup key = none ↔ deadline ≤ now) ∧
      (now < deadline → after.ReadsBack key now (command.stored slot.value) deadline) ∧
      (command = .expire → 0 < n → ∀ aof name, aof ≠ .failed → uppercase name = ascii "TTL" →
        (after.execute aof now [name, key]).1.payload = respInteger n) := by
  intro answer after
  obtain ⟨reply, database, limit⟩ := Processor.execute_unlimited healthy now
    (ExpiryCommand.resolve_name wellFormed named key text) command.spec_handler unlimited
  have accepts : ∀ n, command.Admits text now n → isErrorReply answer.1.payload = false ∧
      after.database.Expires key now (command.stored slot.value) (command.deadline now n) := by
    intro n admits
    obtain ⟨payload, session', ran, ok, expires⟩ := ExpiryCommand.run_admitted
      ⟨processor.database, aof.attached, []⟩ name wellFormed (by omega) live admits
    rw [ran] at reply database
    rw [show after.database = _ from database]
    exact ⟨(congrArg (isErrorReply ·.payload) reply).trans ok, expires⟩
  by_cases admitted : ∃ n, command.Admits text now n
  · have accepted : isErrorReply answer.1.payload = false :=
      admitted.elim fun n admits => (accepts n admits).1
    refine ⟨iff_of_false (by rw [accepted]; exact Bool.false_ne_true) (not_not.mpr admitted),
      fun error => ?_, fun n admits => ?_⟩
    · rw [accepted] at error
      cases error
    · obtain ⟨_, expires⟩ := accepts n admits
      have reads : now < command.deadline now n →
          after.ReadsBack key now (command.stored slot.value) (command.deadline now n) :=
        fun later => Processor.readsBack limit low admits.sum later (expires.kept later)
      refine ⟨⟨fun gone => ?_, expires.removed⟩, reads, ?_⟩
      · by_contra later
        have shown := expires.kept (by omega)
        rw [view_of_absent gone] at shown
        cases shown
      · rintro rfl positive aof name healthy named
        have later : now < ExpiryCommand.deadline now n .expire := by
          show now < n * 1000 + now
          omega
        rw [(reads later).ttl now aof name le_rfl later healthy named]
        -- whole seconds survive the rounding
        have exact_ : (ExpiryCommand.deadline now n .expire - now + 500) / 1000 = n := by
          show (n * 1000 + now - now + 500) / 1000 = n
          omega
        rw [exact_]
  · obtain ⟨payload, error, ran⟩ := ExpiryCommand.run_refused
      ⟨processor.database, aof.attached, []⟩ name key wellFormed admitted
    rw [ran] at reply database
    have refused : isErrorReply answer.1.payload = true :=
      (congrArg (isErrorReply ·.payload) reply).trans error
    exact ⟨iff_of_true refused admitted, fun _ => database,
      fun n admits => absurd ⟨n, admits⟩ admitted⟩

/-- A stored string is given ten seconds, and has ten seconds left. -/
theorem expiry_exact_seconds :
    let processor : Processor := { database := Op.run [.set [107] [118] 0] }
    let answer := processor.execute .healthy 1000 (ascii "expire" :: [107] ::
      ExpiryCommand.expire.options (ascii "10"))
    (answer.2.2.execute .detached 1000 [ascii "ttl", [107]]).1.payload = respInteger 10 := by
  intro processor answer
  have live : processor.database.view 1000 [107] = some ⟨.string [118], none⟩ := by decide +kernel
  have named : uppercase (ascii "expire") = ExpiryCommand.expire.name := by decide
  have unlimited : processor.database.memoryLimit = 0 := by decide +kernel
  have ten : ExpiryCommand.expire.Admits (ascii "10") 1000 10 :=
    ⟨Decimal.parseSigned_eq_some_iff.mp (by decide), by decide, by decide, by decide,
      fun _ => by decide⟩
  have healthy : AofStatus.healthy ≠ .failed := by decide
  have wellFormed : ExpiryCommand.expire.WellFormed := trivial
  obtain ⟨_, _, sets⟩ := expiry_exact unlimited healthy (by decide) live wellFormed named (ascii "10")
  obtain ⟨_, _, reads⟩ := sets 10 ten
  exact reads rfl (by decide) .detached (ascii "ttl") (by decide) (by decide)

end FlashKV
