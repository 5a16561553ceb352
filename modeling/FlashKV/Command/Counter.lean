import FlashKV.Command.Reachable
import FlashKV.Command.Unlimited

/-!
# Counters

Requests on one counter, from any clients in any order, without a memory limit. `INCR`, `DECR`,
`INCRBY` and `DECRBY` add exact integers: every reply is the sum of what has been accepted so far, and
a request is refused exactly if it asks for something that is not a 64-bit integer.
-/

namespace FlashKV

open StateAction Database

/-- A command on a counter. -/
inductive CounterCommand where
  | incr
  | decr
  | incrby (amount : Bytes)
  | decrby (amount : Bytes)
  deriving DecidableEq, Repr

namespace CounterCommand

def name : CounterCommand → Bytes
  | .incr => ascii "INCR"
  | .decr => ascii "DECR"
  | .incrby _ => ascii "INCRBY"
  | .decrby _ => ascii "DECRBY"

/-- The arguments after the key. -/
def amounts : CounterCommand → List Bytes
  | .incr | .decr => []
  | .incrby amount | .decrby amount => [amount]

/-- What the command adds, if its amount is a numeral. -/
def delta : CounterCommand → Int
  | .incr => 1
  | .decr => -1
  | .incrby amount => (Decimal.parseSigned amount).getD 0
  | .decrby amount => -(Decimal.parseSigned amount).getD 0

/-- The amount is not a numeral of a 64-bit integer. -/
def Malformed : CounterCommand → Prop
  | .incr | .decr => False
  | .incrby amount | .decrby amount => ¬ ∃ d, Decimal.Numeral amount d ∧ IsInt64 d

/-- `DECRBY` of `-2^63`, which cannot be negated. -/
def NegatesMinimum : CounterCommand → Prop
  | .decrby amount => Decimal.Numeral amount (-2 ^ 63)
  | _ => False

/-- The command has to be refused when the counter stands at `total`. -/
def Refused (total : Int) (command : CounterCommand) : Prop :=
  command.Malformed ∨ ¬ IsInt64 (total + command.delta) ∨ command.NegatesMinimum

def handler : CounterCommand → DataHandler
  | .incr => .incr
  | .decr => .decr
  | .incrby _ => .incrby
  | .decrby _ => .decrby

/-- The command's entry in the command table. -/
def spec (command : CounterCommand) : CommandSpec :=
  ⟨.data command.handler, command.amounts.length + 2, true, true⟩

lemma lookup_name (command : CounterCommand) :
    commandTable.lookup command.name = some command.spec := by
  cases command with
  | incr | decr => decide
  | incrby amount =>
    show commandTable.lookup (ascii "INCRBY") = some ⟨.data .incrby, 3, true, true⟩
    decide
  | decrby amount =>
    show commandTable.lookup (ascii "DECRBY") = some ⟨.data .decrby, 3, true, true⟩
    decide

end CounterCommand

/-- The key is a counter that stands at `n` from time `since` on: it is absent, or it holds a numeral
and has no deadline. -/
def Database.Counts (db : Database) (since : Int) (key : Bytes) (n : Int) : Prop :=
  (db.view since key = none ∧ n = 0) ∨
    ∃ text, db.view since key = some ⟨.string text, none⟩ ∧ parseStrictInteger text = some n

namespace Database

/-- A key without a deadline looks the same at all times. -/
lemma view_forever {db : Database} {t : Int} {key : Bytes} {value : Value}
    (shown : db.view t key = some ⟨value, none⟩) (t' : Int) :
    db.view t' key = some ⟨value, none⟩ := by
  obtain ⟨stored, _⟩ := Option.filter_eq_some_iff.mp shown
  rw [view, stored]
  exact Slot.filter_live rfl

lemma Counts.later {db : Database} {since t n : Int} {key : Bytes} (counts : db.Counts since key n)
    (le : since ≤ t) : db.Counts t key n := by
  rcases counts with ⟨absent, rfl⟩ | ⟨text, shown, read⟩
  · refine .inl ⟨?_, rfl⟩
    rw [view_later le, absent]
    rfl
  · exact .inr ⟨text, view_forever shown t, read⟩

lemma Counts.isInt64 {db : Database} {since n : Int} {key : Bytes} (counts : db.Counts since key n) :
    IsInt64 n := by
  rcases counts with ⟨_, rfl⟩ | ⟨_, _, read⟩
  · exact ⟨by decide, by decide⟩
  · exact (parseStrictInteger_eq_some_iff.mp read).2

end Database

section Increment

variable {session : Session Database} {now n d : Int} {key name : Bytes} {rest : List Bytes}

/-- What the slot operation does to a counter. -/
lemma incrementBy_counts {db : Database} (counts : db.Counts now key n) (d : Int) :
    SlotOp.incrementBy d (db.view now key) =
      if IsInt64 (n + d) then (.ok (n + d), some ⟨.string (Decimal.ofInt (n + d)), none⟩)
      else (.error .overflow, db.view now key) := by
  have fit : fit64 (n + d) = if IsInt64 (n + d) then some (n + d) else none := rfl
  have zero : parseStrictInteger (ascii "0") = some 0 := by decide
  by_cases fits : IsInt64 (n + d)
  · rw [if_pos fits] at fit ⊢
    rcases counts with ⟨absent, rfl⟩ | ⟨text, shown, read⟩
    · simp only [absent, SlotOp.incrementBy, SlotOp.write, Option.getD_none, zero, fit,
        Option.map_some]
    · simp only [shown, SlotOp.incrementBy, SlotOp.write, Value.asString, Option.getD_some, read, fit,
        Option.map_some]
  · rw [if_neg fits] at fit ⊢
    rcases counts with ⟨absent, rfl⟩ | ⟨text, shown, read⟩
    · simp only [absent, SlotOp.incrementBy, SlotOp.write, Option.getD_none, zero, fit]
    · simp only [shown, SlotOp.incrementBy, SlotOp.write, Value.asString, Option.getD_some, read, fit]

/-- The counter's operation, as the handlers call it. -/
lemma storage_incrementBy_performs (range : IsInt64 d) :
    Performs key now (Storage.incrementBy key d now) (SlotOp.incrementBy d) :=
  incrementBy_performs range

/-- The common part of the handlers, when the sum is a 64-bit integer. -/
lemma increment_fits (counts : session.store.Counts now key n) (range : IsInt64 d)
    (fits : IsInt64 (n + d)) :
    ∃ session', Handler.increment (name :: key :: rest) d now session =
        (.ok (respInteger (n + d)), session') ∧
      session'.store.view now key = some ⟨.string (Decimal.ofInt (n + d)), none⟩ := by
  have op := incrementBy_counts counts d
  rw [if_pos fits] at op
  obtain ⟨store, ran, view⟩ := call_ok (storage_incrementBy_performs range) session (congrArg Prod.fst op)
  have handled : Handler.increment (name :: key :: rest) d now session =
      (.ok (respInteger (n + d)), ⟨store, session.attached, if session.attached then
        session.records ++ [name :: key :: rest] else session.records⟩) := by
    unfold Handler.increment
    rw [argument_bind rfl, bind_of_ok ran, bind_of_ok (propagate_apply _)]
    rfl
  refine ⟨_, handled, ?_⟩
  show store.view now key = _
  rw [view, op, Function.update_self]

/-- The common part of the handlers, when the sum overflows. -/
lemma increment_overflows (counts : session.store.Counts now key n) (range : IsInt64 d)
    (overflows : ¬ IsInt64 (n + d)) :
    ∃ session', Handler.increment (name :: key :: rest) d now session =
        (.error (.thrown .overflow), session') ∧
      ∀ t, session'.store.view t key = session.store.view t key := by
  have op := incrementBy_counts counts d
  rw [if_neg overflows] at op
  obtain ⟨store, ran, view⟩ := call_throws (storage_incrementBy_performs range) session
    (congrArg Prod.fst op)
  have handled : Handler.increment (name :: key :: rest) d now session =
      (.error (.thrown .overflow), { session with store := store }) := by
    unfold Handler.increment
    rw [argument_bind rfl, bind_of_error ran]
  refine ⟨_, handled, fun t => ?_⟩
  have same := congrFun view key
  rw [op, Function.update_self] at same
  rcases counts with ⟨_, rfl⟩ | ⟨text, shown, _⟩
  -- an absent counter does not overflow
  · rw [zero_add] at overflows
    exact absurd range overflows
  · rw [view_forever shown t]
    exact view_forever (same.trans shown) t

end Increment

namespace CounterCommand

variable {command : CounterCommand} {now n : Int} {key : Bytes}

/-- The amount that a numeral denotes. -/
lemma amount_of_numeral {amount : Bytes} {d : Int} (numeral : Decimal.Numeral amount d) :
    (Decimal.parseSigned amount).getD 0 = d := by
  rw [Decimal.parseSigned_eq_some_iff.mpr numeral]
  rfl

/-- What the handler makes of its amount: it refuses it with an error reply, or it adds a delta that
is a 64-bit integer. -/
lemma run_cases (command : CounterCommand) (session : Session Database) (now : Int)
    (key name : Bytes) :
    let arguments := name :: key :: command.amounts
    ((command.Malformed ∨ command.NegatesMinimum) ∧ ∃ payload, isErrorReply payload = true ∧
      command.handler.run arguments now session = (.ok payload, session)) ∨
    (¬ command.Malformed ∧ ¬ command.NegatesMinimum ∧ IsInt64 command.delta ∧
      command.handler.run arguments now session =
        Handler.increment arguments command.delta now session) := by
  intro arguments
  cases command with
  | incr => exact .inr ⟨id, id, ⟨by decide, by decide⟩, rfl⟩
  | decr => exact .inr ⟨id, id, ⟨by decide, by decide⟩, rfl⟩
  | incrby amount =>
    cases read : parseStrictInteger amount with
    | none =>
      refine .inl ⟨.inl fun ⟨d, integer⟩ => ?_, notAnInteger, by decide, ?_⟩
      · rw [parseStrictInteger_eq_some_iff.mpr integer] at read
        cases read
      · show Handler.incrby arguments now session = _
        unfold Handler.incrby
        rw [argument_bind rfl, read]
        rfl
    | some d =>
      obtain ⟨numeral, range⟩ := parseStrictInteger_eq_some_iff.mp read
      have delta_ : delta (.incrby amount) = d := amount_of_numeral numeral
      rw [delta_]
      refine .inr ⟨fun malformed => malformed ⟨d, numeral, range⟩, id, range, ?_⟩
      show Handler.incrby arguments now session = _
      unfold Handler.incrby
      rw [argument_bind rfl, read]
  | decrby amount =>
    cases read : parseStrictInteger amount with
    | none =>
      refine .inl ⟨.inl fun ⟨d, integer⟩ => ?_, notAnInteger, by decide, ?_⟩
      · rw [parseStrictInteger_eq_some_iff.mpr integer] at read
        cases read
      · show Handler.decrby arguments now session = _
        unfold Handler.decrby
        rw [argument_bind rfl, read]
        rfl
    | some d =>
      obtain ⟨numeral, range⟩ := parseStrictInteger_eq_some_iff.mp read
      have delta_ : delta (.decrby amount) = -d := congrArg (- ·) (amount_of_numeral numeral)
      rw [delta_]
      -- `DECRBY` negates its amount, and the least one has no negation
      by_cases least : d = int64Min
      · subst least
        refine .inl ⟨.inr numeral, respError (ascii "decrement would overflow"), by decide, ?_⟩
        show Handler.decrby arguments now session = _
        unfold Handler.decrby
        rw [argument_bind rfl, read]
        rfl
      · refine .inr ⟨fun malformed => malformed ⟨d, numeral, range⟩, fun least' => ?_, ?_, ?_⟩
        · exact least ((amount_of_numeral numeral).symm.trans (amount_of_numeral least'))
        · unfold IsInt64 int64Min int64Max at *
          omega
        · show Handler.decrby arguments now session = _
          unfold Handler.decrby
          rw [argument_bind rfl, read]
          simp only [if_neg least]

lemma not_refused_iff : ¬ command.Refused n ↔
    ¬ command.Malformed ∧ IsInt64 (n + command.delta) ∧ ¬ command.NegatesMinimum := by
  unfold Refused
  rw [not_or, not_or, not_not]

/-- A command that the counter's value allows. -/
lemma run_accepted (session : Session Database) (name : Bytes)
    (counts : session.store.Counts now key n) (allowed : ¬ command.Refused n) :
    ∃ session', command.handler.run (name :: key :: command.amounts) now session =
        (.ok (respInteger (n + command.delta)), session') ∧
      session'.store.view now key =
        some ⟨.string (Decimal.ofInt (n + command.delta)), none⟩ := by
  obtain ⟨wellFormed, fits, negatable⟩ := not_refused_iff.mp allowed
  rcases command.run_cases session now key name with ⟨bad, _⟩ | ⟨_, _, range, ran⟩
  · exact absurd bad (not_or.mpr ⟨wellFormed, negatable⟩)
  · rw [ran]
    exact increment_fits counts range fits

/-- A command that has to be refused. -/
lemma run_refused (session : Session Database) (name : Bytes)
    (counts : session.store.Counts now key n) (refused : command.Refused n) :
    ∃ outcome session', command.handler.run (name :: key :: command.amounts) now session =
        (outcome, session') ∧ isErrorReply (payloadOf outcome) = true ∧
      ∀ t, session'.store.view t key = session.store.view t key := by
  rcases command.run_cases session now key name with ⟨_, payload, error, ran⟩ |
    ⟨wellFormed, negatable, range, ran⟩
  · exact ⟨_, _, ran, error, fun _ => rfl⟩
  · have overflows : ¬ IsInt64 (n + command.delta) := by
      rcases refused with malformed | overflows | least
      · exact absurd malformed wellFormed
      · exact overflows
      · exact absurd least negatable
    obtain ⟨session', threw, same⟩ := increment_overflows counts range overflows
    exact ⟨_, session', ran.trans threw, by decide, same⟩

end CounterCommand

/-- A request on a counter: the command, under the name that the client gave, the state of the log
and the clock reading. -/
structure CounterRequest where
  aof : AofStatus
  now : Int
  name : Bytes
  command : CounterCommand
  deriving DecidableEq, Repr

namespace CounterRequest

def arguments (key : Bytes) (request : CounterRequest) : List Bytes :=
  request.name :: key :: request.command.amounts

/-- The request as an event of the processor. -/
def event (key : Bytes) (request : CounterRequest) : AofStatus × Event :=
  (request.aof, .command request.now (request.arguments key))

/-- The name is the command's, in any case; the log has not failed; the clock has reached `since`. -/
structure Valid (since : Int) (request : CounterRequest) : Prop where
  named : uppercase request.name = request.command.name
  healthy : request.aof ≠ .failed
  reached : since ≤ request.now

/-- The request finds its handler. -/
lemma Valid.resolve {since : Int} {request : CounterRequest} (valid : request.Valid since)
    (key : Bytes) : FlashKV.resolve (request.arguments key) = .dispatch request.command.spec := by
  obtain ⟨aof, now, name, command⟩ := request
  refine resolve_of_upper valid.named ?_ command.lookup_name ?_
  · cases command <;> (change ascii _ ≠ _; decide)
  · cases command <;> (rw [arityFits_short (by simp [CounterCommand.amounts])]; rfl)

end CounterRequest

namespace Processor

variable {processor : Processor} {since n : Int} {key : Bytes}

/-- The commands with the replies that they get, request by request. -/
def answers (key : Bytes) (processor : Processor) :
    List CounterRequest → List (CounterCommand × Bytes)
  | [] => []
  | request :: requests =>
    (request.command,
      (processor.execute request.aof request.now (request.arguments key)).1.payload) ::
    answers key (processor.next request.aof (request.event key).2) requests

/-- The sum of what the commands add that are not answered with an error. -/
def accepted (answers : List (CounterCommand × Bytes)) : Int :=
  (answers.map fun answer => if isErrorReply answer.2 then 0 else answer.1.delta).sum

lemma accepted_nil : accepted [] = 0 := rfl

lemma accepted_append (before after : List (CounterCommand × Bytes)) :
    accepted (before ++ after) = accepted before + accepted after := by
  unfold accepted
  rw [List.map_append, List.sum_append]

lemma accepted_cons (answer : CounterCommand × Bytes) (after : List (CounterCommand × Bytes)) :
    accepted (answer :: after) = accepted [answer] + accepted after :=
  accepted_append [answer] after

lemma accepted_singleton (command : CounterCommand) (payload : Bytes) :
    accepted [(command, payload)] = if isErrorReply payload then 0 else command.delta :=
  List.sum_singleton

lemma answers_concat (processor : Processor) (before : List CounterRequest)
    (request : CounterRequest) :
    processor.answers key (before ++ [request]) = processor.answers key before ++
      [(request.command, ((processor.after (before.map (·.event key))).execute request.aof request.now
        (request.arguments key)).1.payload)] := by
  induction before generalizing processor with
  | nil => rfl
  | cons first before ih =>
    rw [List.cons_append, answers, ih]
    rfl

/-- What the answer to one request is. -/
lemma execute_counter {request : CounterRequest} (unlimited : processor.database.memoryLimit = 0)
    (counts : processor.database.Counts since key n) (valid : request.Valid since) :
    let answer := processor.execute request.aof request.now (request.arguments key)
    answer.2.2.database.memoryLimit = 0 ∧
    ((request.command.Refused n ∧ isErrorReply answer.1.payload = true ∧
      ∀ t, answer.2.2.database.view t key = processor.database.view t key) ∨
    (¬ request.command.Refused n ∧ answer.1.payload = respInteger (n + request.command.delta) ∧
      ∀ t, answer.2.2.database.view t key =
        some ⟨.string (Decimal.ofInt (n + request.command.delta)), none⟩)) := by
  intro answer
  obtain ⟨reply, database, limit⟩ :=
    execute_unlimited valid.healthy request.now (valid.resolve key) rfl unlimited
  refine ⟨limit, ?_⟩
  have now_ := counts.later valid.reached
  by_cases refused : request.command.Refused n
  · obtain ⟨outcome, session', ran, error, same⟩ :=
      CounterCommand.run_refused ⟨processor.database, request.aof.attached, []⟩ request.name now_ refused
    change request.command.handler.run (request.arguments key) _ _ = _ at ran
    rw [ran] at reply database
    refine .inl ⟨refused, ?_, fun t => ?_⟩
    · exact (congrArg (isErrorReply ·.payload) reply).trans error
    · exact (congrArg (·.view t key) database).trans (same t)
  · obtain ⟨session', ran, shown⟩ :=
      CounterCommand.run_accepted ⟨processor.database, request.aof.attached, []⟩ request.name now_
        refused
    change request.command.handler.run (request.arguments key) _ _ = _ at ran
    rw [ran] at reply database
    refine .inr ⟨refused, congrArg (·.payload) reply, fun t => ?_⟩
    exact (congrArg (·.view t key) database).trans (view_forever shown t)

/-- The counter after one request. -/
lemma counts_execute {request : CounterRequest} (unlimited : processor.database.memoryLimit = 0)
    (counts : processor.database.Counts since key n) (valid : request.Valid since) :
    let answer := processor.execute request.aof request.now (request.arguments key)
    answer.2.2.database.Counts since key
      (n + accepted [(request.command, answer.1.payload)]) := by
  intro answer
  rw [accepted_singleton]
  obtain ⟨_, ⟨_, error, same⟩ | ⟨allowed, payload, shown⟩⟩ := execute_counter unlimited counts valid
  · rw [if_pos error, add_zero]
    unfold Counts
    rw [same since]
    exact counts
  · obtain ⟨_, fits, _⟩ := CounterCommand.not_refused_iff.mp allowed
    rw [show answer.1.payload = _ from payload, isErrorReply_integer, if_neg Bool.false_ne_true]
    exact .inr ⟨_, shown since, Decimal.parseInt_ofInt fits.1 fits.2⟩

/-- The counter stands at the sum of what has been accepted. -/
lemma counts_after (unlimited : processor.database.memoryLimit = 0)
    (counts : processor.database.Counts since key n) {requests : List CounterRequest}
    (valid : ∀ request ∈ requests, request.Valid since) :
    let reached := processor.after (requests.map (·.event key))
    reached.database.memoryLimit = 0 ∧
      reached.database.Counts since key (n + accepted (processor.answers key requests)) := by
  -- by induction on the requests; the first one moves the counter to a new start
  induction requests generalizing processor n with
  | nil =>
    rw [answers, accepted_nil, add_zero]
    exact ⟨unlimited, counts⟩
  | cons request requests ih =>
    obtain ⟨first, rest⟩ := List.forall_mem_cons.mp valid
    rw [answers, accepted_cons, ← add_assoc]
    exact ih (execute_counter unlimited counts first).1 (counts_execute unlimited counts first) rest

/-- A following `GET` reads the counter. -/
lemma execute_get {aof : AofStatus} {now : Int} {name text : Bytes}
    (unlimited : processor.database.memoryLimit = 0) (healthy : aof ≠ .failed)
    (named : uppercase name = ascii "GET")
    (shown : processor.database.view now key = some ⟨.string text, none⟩) :
    (processor.execute aof now [name, key]).1.payload = respBulkString text := by
  have found : resolve [name, key] = .dispatch ⟨.data .get, 2, false, false⟩ :=
    resolve_of_upper named (by decide) (by decide) (by rw [arityFits_short (by simp)]; rfl)
  have returns : (SlotOp.get (processor.database.view now key)).1 = .ok (some text) := by
    rw [shown]
    rfl
  show _ = nullableBulk (some text)
  exact execute_read healthy found rfl unlimited get_performs (argument_bind rfl _) returns

end Processor

/-- Counters neither lose nor invent an update: `before` are the requests so far, in whatever order
the clients' requests arrived. A request is answered with an error exactly if it asks for something
that is not a 64-bit integer, and then the counter is as before; any other reply is the exact sum of
what has been accepted, and what `GET` reads back. -/
theorem counter_exact {processor : Processor} (unlimited : processor.database.memoryLimit = 0)
    {since n : Int} {key : Bytes} (counts : processor.database.Counts since key n)
    (before : List CounterRequest) (request : CounterRequest)
    (valid : ∀ other ∈ before ++ [request], other.Valid since) :
    let reached := processor.after (before.map (·.event key))
    let answer := reached.execute request.aof request.now (request.arguments key)
    let total := n + Processor.accepted (processor.answers key before)
    let sum := n + Processor.accepted (processor.answers key (before ++ [request]))
    (isErrorReply answer.1.payload = true ↔ request.command.Refused total) ∧
    (isErrorReply answer.1.payload = true →
      ∀ t, answer.2.2.database.view t key = reached.database.view t key) ∧
    (isErrorReply answer.1.payload = false →
      answer.1.payload = respInteger sum ∧ IsInt64 sum ∧
      ∀ aof t name, aof ≠ .failed → uppercase name = ascii "GET" →
        (answer.2.2.execute aof t [name, key]).1.payload = respBulkString (Decimal.ofInt sum)) := by
  intro reached answer total sum
  obtain ⟨earlier, this⟩ := List.forall_mem_append.mp valid
  obtain ⟨limit, stands⟩ := Processor.counts_after unlimited counts earlier
  have this := this request (List.mem_singleton_self request)
  have sum_ : sum = total + Processor.accepted [(request.command, answer.1.payload)] := by
    show n + Processor.accepted _ = _
    rw [Processor.answers_concat, Processor.accepted_append, ← add_assoc]
  obtain ⟨limit', ⟨refused, error, same⟩ | ⟨allowed, payload, shown⟩⟩ :=
    Processor.execute_counter limit stands this
  · refine ⟨iff_of_true error refused, fun _ => same, fun ok => ?_⟩
    rw [show isErrorReply answer.1.payload = true from error] at ok
    cases ok
  · have payload : answer.1.payload = respInteger (total + request.command.delta) := payload
    have ok : isErrorReply answer.1.payload = false := by
      rw [payload, isErrorReply_integer]
    rw [Processor.accepted_singleton, ok, if_neg Bool.false_ne_true] at sum_
    refine ⟨iff_of_false (by rw [ok]; exact Bool.false_ne_true) allowed, fun error => ?_, fun _ => ?_⟩
    · rw [ok] at error
      cases error
    · rw [sum_]
      refine ⟨payload, (CounterCommand.not_refused_iff.mp allowed).2.1,
        fun aof t name healthy named => ?_⟩
      exact Processor.execute_get limit' healthy named (shown t)

/-- An absent key counted down to `-2^63`, and then decremented by `-2^63`, which is refused. -/
theorem counter_exact_least :
    let minimum := ascii "-9223372036854775808"
    let first : CounterRequest := ⟨.healthy, 0, ascii "incrby", .incrby minimum⟩
    let request : CounterRequest := ⟨.detached, 7, ascii "DecrBy", .decrby minimum⟩
    let processor : Processor := {}
    isErrorReply ((processor.after ([first].map (·.event [99]))).execute request.aof request.now
      (request.arguments [99])).1.payload = true := by
  intro minimum first request processor
  have unlimited : processor.database.memoryLimit = 0 := rfl
  have absent : processor.database.Counts 0 [99] 0 := .inl ⟨rfl, rfl⟩
  have valid : ∀ other ∈ [first] ++ [request], other.Valid 0 := by
    intro other mem
    rcases List.mem_pair.mp mem with rfl | rfl
    · exact ⟨by decide, by decide, by decide⟩
    · exact ⟨by decide, by decide, by decide⟩
  have least : Decimal.parseSigned minimum = some (-2 ^ 63) := by decide +kernel
  have refused : request.command.NegatesMinimum := Decimal.parseSigned_eq_some_iff.mp least
  obtain ⟨answered, _⟩ := counter_exact unlimited absent [first] request valid
  exact answered.mpr (.inr (.inr refused))

end FlashKV
