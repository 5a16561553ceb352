import FlashKV.Command.Processor
import FlashKV.Resp.Reply

/-!
# Every reply is one RESP value

Each handler, run with as many arguments as the command table asks for, returns the encoding of one
RESP value or throws one of the database's exceptions, and it reads no missing argument. Two
payloads echo client bytes into an error line: the unknown-command error and the error for an
unsupported `CONFIG` parameter. `execute_framed_iff` says exactly when a payload is one RESP value.
-/

namespace FlashKV

section Case

/-- Case conversion does not touch CR and LF. -/
lemma mem_uppercase {text : Bytes} {b : UInt8} (mem : b ∈ text) (small : b < 97) :
    b ∈ uppercase text := by
  refine List.mem_map.mpr ⟨b, mem, if_neg ?_⟩
  rintro ⟨le, _⟩
  exact UInt8.not_le.mpr small le

lemma noBreak_of_uppercase {text : Bytes} (h : NoBreak (uppercase text)) : NoBreak text :=
  ⟨fun mem => h.1 (mem_uppercase mem (by decide)), fun mem => h.2 (mem_uppercase mem (by decide))⟩

/-- A byte below the letters in a lowercase text was there before. -/
lemma mem_of_mem_lowercase {text : Bytes} {b : UInt8} (mem : b ∈ lowercase text) (small : b < 65) :
    b ∈ text := by
  obtain ⟨a, mem, e⟩ := List.mem_map.mp mem
  split at e
  · rename_i range
    subst e
    rw [UInt8.lt_iff_toNat_lt, UInt8.toNat_add] at small
    rw [UInt8.le_iff_toNat_le, UInt8.le_iff_toNat_le] at range
    simp only [UInt8.reduceToNat] at small range
    omega
  · exact e ▸ mem

lemma noBreak_lowercase {text : Bytes} (h : NoBreak text) : NoBreak (lowercase text) :=
  ⟨fun mem => h.1 (mem_of_mem_lowercase mem (by decide)),
    fun mem => h.2 (mem_of_mem_lowercase mem (by decide))⟩

end Case

/-- A failure with a defined outcome: an exception of the database. -/
def Failure.Defined (failure : Failure) : Prop :=
  ∃ error, failure = .thrown error

/-- The handler returns one RESP value or throws an exception of the database. -/
abbrev AnswersOnce {σ : Type} (handler : Handling σ Bytes) : Prop :=
  StateAction.Ends IsReply Failure.Defined handler

/-- What a handler replies with: of the error codes it uses `ERR` only. -/
inductive HandlerReply : Bytes → Prop where
  | simple {text : Bytes} : NoBreak text → HandlerReply (respSimpleString text)
  | error {message : Bytes} : NoBreak message → HandlerReply (respError message)
  | integer (value : Int) : HandlerReply (respInteger value)
  | bulk (value : Bytes) : HandlerReply (respBulkString value)
  | null : HandlerReply respNull
  | encodedArray {elements : List Bytes} :
    (∀ element ∈ elements, IsReply element) →
    HandlerReply (respEncodedArray elements)
  | array (values : List Bytes) : HandlerReply (respArray values)

lemma HandlerReply.isReply {payload : Bytes} (h : HandlerReply payload) : IsReply payload := by
  cases h with
  | simple line => exact isReply_simple line
  | error line => exact isReply_error line
  | integer value => exact isReply_integer value
  | bulk value => exact isReply_bulk value
  | null => exact isReply_null
  | encodedArray elements => exact isReply_encodedArray elements
  | array values => exact isReply_array values

/-- The handler returns such a reply or throws an exception of the database. -/
abbrev HandlerAnswers {σ : Type} (handler : Handling σ Bytes) : Prop :=
  StateAction.Ends HandlerReply Failure.Defined handler

lemma HandlerAnswers.once {σ : Type} {handler : Handling σ Bytes} (h : HandlerAnswers handler) :
    AnswersOnce handler :=
  h.mono fun _ => HandlerReply.isReply

namespace Handler

variable {σ α : Type}

section Steps

variable {arguments : List Bytes} {index : Nat}

lemma call_ends {act : StateAction DbError σ α} :
    StateAction.Ends (fun _ => True) Failure.Defined (call act) := by
  intro session
  rcases h : act session.store with ⟨e | a, store⟩
  · simp only [call, h]
    exact ⟨e, rfl⟩
  · simp only [call, h]

lemma argument_ends (h : index < arguments.length) :
    StateAction.Ends (fun value => arguments[index]? = some value) Failure.Defined
      (argument arguments index : Handling σ Bytes) := by
  unfold argument
  rw [List.getElem?_eq_getElem h]
  exact .pure rfl

lemma argumentsFrom_ends (h : index ≤ arguments.length) :
    StateAction.Ends (fun _ => True) Failure.Defined
      (argumentsFrom arguments index : Handling σ (List Bytes)) := by
  unfold argumentsFrom
  rw [if_pos h]
  exact .pure trivial

lemma propagate_ends {record : List Bytes} :
    StateAction.Ends (fun _ => True) Failure.Defined (propagate record : Handling σ Unit) :=
  fun _ => trivial

lemma propagateIf_ends {changed : Bool} {record : List Bytes} :
    StateAction.Ends (fun _ => True) Failure.Defined (propagateIf changed record : Handling σ Unit) :=
  .ite (fun _ => propagate_ends) fun _ => .pure trivial

lemma propagateEvicted_ends (evicted : List Bytes) :
    StateAction.Ends (fun _ => True) Failure.Defined (propagateEvicted evicted : Handling σ Unit) := by
  induction evicted with
  | nil => exact .pure trivial
  | cons key evicted ih =>
    unfold propagateEvicted
    exact .bind propagate_ends fun _ _ => ih

lemma countKeys_ends (act : Bytes → StateAction DbError σ Bool) (keys : List Bytes) :
    StateAction.Ends (fun _ => True) Failure.Defined (countKeys act keys) :=
  .foldlM (fun _ _ _ => .bind call_ends fun _ _ => .pure trivial) 0 trivial keys

/-- Collecting the fields of `hset` reads no missing argument when their number is even. -/
lemma fieldPairs_ends : ∀ pairs : List Bytes, pairs.length % 2 = 0 →
    StateAction.Ends (fun _ => True) Failure.Defined (fieldPairs (σ := σ) pairs)
  | [], _ => .pure trivial
  | [_], odd => by simp at odd
  | _ :: _ :: rest, even =>
    .bind (fieldPairs_ends rest (by simp only [List.length_cons] at even; omega)) fun _ _ =>
      .pure trivial

/-- The handlers that look up one key and turn what the engine returns into a reply. -/
lemma query_answers {op : Bytes → StateAction DbError σ α} {reply : α → Bytes}
    (enough : 2 ≤ arguments.length) (h : ∀ a, HandlerReply (reply a)) :
    HandlerAnswers (do
      let key ← argument arguments 1
      let a ← call (op key)
      pure (reply a) : Handling σ Bytes) :=
  .bind (argument_ends (by omega)) fun _ _ => .bind call_ends fun a _ => .pure (h a)

/-- The same with a second argument. -/
lemma query2_answers {op : Bytes → Bytes → StateAction DbError σ α} {reply : α → Bytes}
    (enough : 3 ≤ arguments.length) (h : ∀ a, HandlerReply (reply a)) :
    HandlerAnswers (do
      let key ← argument arguments 1
      let second ← argument arguments 2
      let a ← call (op key second)
      pure (reply a) : Handling σ Bytes) :=
  .bind (argument_ends (by omega)) fun _ _ => .bind (argument_ends (by omega)) fun _ _ =>
    .bind call_ends fun a _ => .pure (h a)

end Steps

section Payloads

lemma handlerReply_notAnInteger : HandlerReply notAnInteger :=
  HandlerReply.error (by decide)

lemma handlerReply_syntaxError : HandlerReply syntaxError :=
  HandlerReply.error (by decide)

lemma handlerReply_nullableBulk (value : Option Bytes) : HandlerReply (nullableBulk value) := by
  cases value with
  | none => exact HandlerReply.null
  | some value => exact HandlerReply.bulk value

/-- The early returns of the option loop are error replies. -/
lemma parseSetOptions_error {now : Int} {texts : List Bytes} {options : SetOptions} {payload : Bytes}
    (h : parseSetOptions now texts options = .error payload) : HandlerReply payload := by
  fun_induction parseSetOptions now texts options with
  | case1 => cases h
  | _ =>
    first
      | (cases h; exact HandlerReply.error (by decide))
      | (rename_i ih; exact ih h)

end Payloads

section Data

variable [Storage σ] {arguments : List Bytes} {now : Int}

/-- The expiry commands echo only their own name, which the command table knows. -/
lemma expireGeneric_answers {unitMs : Int} {absolute : Bool} (enough : 3 ≤ arguments.length)
    (name : NoBreak (arguments.headD [])) :
    HandlerAnswers (expireGeneric (σ := σ) arguments unitMs absolute now) := by
  refine .bind (argument_ends (by omega)) fun text _ => ?_
  split
  · exact .pure handlerReply_notAnInteger
  · split
    · refine .bind (argument_ends (by omega)) fun first found => .pure (HandlerReply.error ?_)
      have echoed : first = arguments.headD [] := by
        rw [List.headD_eq_head?_getD, List.head?_eq_getElem?, found]
        rfl
      subst echoed
      exact .append (.append (by decide) (noBreak_lowercase name)) (by decide)
    · refine .bind (argument_ends (by omega)) fun key _ => .bind call_ends fun found _ => ?_
      refine .ite (fun _ => ?_) fun _ => .pure (HandlerReply.integer 0)
      refine .bind call_ends fun present _ => .bind (P := fun _ => True) ?_ fun _ _ =>
        .pure (HandlerReply.integer 1)
      exact .ite (fun _ => propagate_ends) fun _ => propagate_ends

lemma set_answers (enough : 3 ≤ arguments.length) : HandlerAnswers (set (σ := σ) arguments now) := by
  refine .bind (argument_ends (by omega)) fun key _ => ?_
  refine .bind (argument_ends (by omega)) fun value _ => ?_
  split
  · rename_i payload failed
    exact .pure (parseSetOptions_error failed)
  · rename_i options _
    refine .ite (fun _ => .pure handlerReply_syntaxError) fun _ => .bind call_ends fun present _ => ?_
    refine .ite (fun _ => .pure HandlerReply.null) fun _ => .bind call_ends fun _ _ =>
      .bind propagate_ends fun _ _ => .bind (P := fun _ => True) ?_ fun _ _ =>
        .pure (HandlerReply.simple (by decide))
    unfold setExpiry
    split
    · exact .pure trivial
    · exact .bind call_ends fun _ _ => propagate_ends

/-- The pairwise loop of `mset` reads no missing argument when the number of arguments is even. -/
lemma msetLoop_ends : ∀ pairs : List Bytes, pairs.length % 2 = 0 →
    StateAction.Ends (fun _ => True) Failure.Defined (msetLoop (σ := σ) now pairs)
  | [], _ => .pure trivial
  | [_], odd => by simp at odd
  | _ :: _ :: rest, even => .bind call_ends fun _ _ =>
    msetLoop_ends rest (by simp only [List.length_cons] at even; omega)

lemma mset_answers (enough : 1 ≤ arguments.length) : HandlerAnswers (mset (σ := σ) arguments now) := by
  refine .ite (fun _ => .pure (HandlerReply.error (by decide))) fun odd => ?_
  refine .bind (msetLoop_ends _ ?_) fun _ _ => .bind propagate_ends fun _ _ =>
    .pure (HandlerReply.simple (by decide))
  rw [List.length_drop]
  omega

lemma hset_answers (enough : 2 ≤ arguments.length) : HandlerAnswers (hset (σ := σ) arguments now) := by
  refine .ite (fun _ => .pure (HandlerReply.error (by decide))) fun even => ?_
  refine .bind (fieldPairs_ends _ ?_) fun _ _ => .bind (argument_ends (by omega)) fun _ _ =>
    .bind call_ends fun added _ => .bind propagate_ends fun _ _ => .pure (HandlerReply.integer added)
  rw [List.length_drop]
  omega

lemma mget_answers : HandlerAnswers (mget (σ := σ) arguments now) := by
  refine .bind (P := fun values => ∀ value ∈ values, IsReply value) ?_ fun values framed =>
    .pure (HandlerReply.encodedArray framed)
  refine .foldlM (fun values key framed => ?_) [] (by simp) _
  refine .bind (P := HandlerReply) ?_ fun value framed' => .pure ?_
  · refine .tryCatch (P := HandlerReply) (.bind call_ends fun value _ =>
      .pure (handlerReply_nullableBulk value)) ?_
    rintro _ ⟨error, rfl⟩
    cases error with
    | wrongType => exact .pure HandlerReply.null
    | notInteger | overflow => exact .throw ⟨_, rfl⟩
  · intro other mem
    rcases List.mem_append.mp mem with mem | mem
    · exact framed other mem
    · rw [List.mem_singleton.mp mem]
      exact framed'.isReply

/-- The common part of the counter commands. -/
lemma increment_answers {delta : Int} (enough : 2 ≤ arguments.length) :
    HandlerAnswers (increment (σ := σ) arguments delta now) :=
  .bind (argument_ends (by omega)) fun _ _ => .bind call_ends fun result _ =>
    .bind propagate_ends fun _ _ => .pure (HandlerReply.integer result)

lemma incrby_answers (enough : 3 ≤ arguments.length) :
    HandlerAnswers (incrby (σ := σ) arguments now) := by
  refine .bind (argument_ends (by omega)) fun text _ => ?_
  split
  · exact .pure handlerReply_notAnInteger
  · exact increment_answers (by omega)

lemma decrby_answers (enough : 3 ≤ arguments.length) :
    HandlerAnswers (decrby (σ := σ) arguments now) := by
  refine .bind (argument_ends (by omega)) fun text _ => ?_
  split
  · exact .pure handlerReply_notAnInteger
  · exact .ite (fun _ => .pure (HandlerReply.error (by decide))) fun _ => increment_answers (by omega)

lemma append_answers (enough : 3 ≤ arguments.length) : HandlerAnswers (append (σ := σ) arguments now) :=
  .bind (argument_ends (by omega)) fun _ _ => .bind (argument_ends (by omega)) fun _ _ =>
    .bind call_ends fun length _ => .bind propagate_ends fun _ _ => .pure (HandlerReply.integer length)

lemma push_answers {side : ListSide} (enough : 2 ≤ arguments.length) :
    HandlerAnswers (push (σ := σ) arguments side now) :=
  .bind (argument_ends (by omega)) fun _ _ => .bind (argumentsFrom_ends enough) fun _ _ =>
    .bind call_ends fun length _ => .bind propagate_ends fun _ _ => .pure (HandlerReply.integer length)

lemma pop_answers {side : ListSide} (enough : 2 ≤ arguments.length) :
    HandlerAnswers (pop (σ := σ) arguments side now) :=
  .bind (argument_ends (by omega)) fun _ _ => .bind call_ends fun value _ =>
    .bind propagateIf_ends fun _ _ => .pure (handlerReply_nullableBulk value)

omit [Storage σ] in
lemma changeElements_answers {act : Bytes → List Bytes → StateAction DbError σ Nat}
    (enough : 2 ≤ arguments.length) : HandlerAnswers (changeElements act arguments) :=
  .bind (argument_ends (by omega)) fun _ _ => .bind (argumentsFrom_ends enough) fun _ _ =>
    .bind call_ends fun changed _ => .bind propagateIf_ends fun _ _ => .pure (HandlerReply.integer changed)

lemma lrange_answers (enough : 4 ≤ arguments.length) :
    HandlerAnswers (lrange (σ := σ) arguments now) := by
  refine .bind (argument_ends (by omega)) fun startText _ => ?_
  split
  · exact .pure handlerReply_notAnInteger
  · refine .bind (argument_ends (by omega)) fun stopText _ => ?_
    split
    · exact .pure handlerReply_notAnInteger
    · exact .bind (argument_ends (by omega)) fun _ _ => .bind call_ends fun elements _ =>
        .pure (HandlerReply.array elements)

lemma lindex_answers (enough : 3 ≤ arguments.length) :
    HandlerAnswers (lindex (σ := σ) arguments now) := by
  refine .bind (argument_ends (by omega)) fun text _ => ?_
  split
  · exact .pure handlerReply_notAnInteger
  · exact .bind (argument_ends (by omega)) fun _ _ => .bind call_ends fun value _ =>
      .pure (handlerReply_nullableBulk value)

end Data

section Server

variable {stats : ServerStats} {aof : AofStatus} {arguments : List Bytes} {now : Int}

lemma info_answers : HandlerAnswers (info stats aof arguments now) :=
  fun _ => HandlerReply.bulk _

lemma memory_answers (enough : 2 ≤ arguments.length) : HandlerAnswers (memory arguments now) := by
  refine .bind (argument_ends (by omega)) fun subcommand _ => ?_
  refine .ite (fun _ => .pure (HandlerReply.error (by decide))) fun usage => ?_
  refine .bind (argument_ends (by omega)) fun key _ session => ?_
  split
  · rename_i h
    split at h
    · cases h
      exact HandlerReply.null
    · cases h
      exact HandlerReply.integer _
  · rename_i h
    split at h <;> cases h

/-- `CONFIG SET` answers with one value unless it echoes a line break. -/
lemma configSet_answers {parameter value : Bytes}
    (clean : lowercase parameter ≠ ascii "maxmemory" →
      lowercase parameter ≠ ascii "maxmemory-policy" → NoBreak parameter) :
    HandlerAnswers (configSet parameter value) := by
  refine .ite (fun _ => ?_) fun other => .ite (fun _ => ?_) fun other' => ?_
  · split
    · exact .pure (HandlerReply.error (by decide))
    · exact .bind call_ends fun _ _ => .bind call_ends fun evicted _ =>
        .bind (propagateEvicted_ends evicted.2) fun _ _ => .pure (HandlerReply.simple (by decide))
  · split
    · exact .pure (HandlerReply.error (by decide))
    · exact .bind call_ends fun _ _ => .pure (HandlerReply.simple (by decide))
  · exact .pure (HandlerReply.error (.append (by decide) (clean other other')))

end Server

end Handler

/-- How many arguments a data handler reads whatever their number is. -/
def DataHandler.reads : DataHandler → Nat
  | .ping | .commandInfo | .flushall | .mget | .del | .exists | .mset => 1
  | .echo | .select | .type | .keys | .ttl | .pttl | .persist | .get | .incr | .decr | .strlen
  | .lpush | .rpush | .lpop | .rpop | .llen | .hset | .hdel | .hgetall | .hlen | .hkeys | .hvals
  | .sadd | .srem | .smembers | .scard => 2
  | .expire | .pexpire | .expireat | .pexpireat | .set | .incrby | .decrby | .append | .lindex
  | .hget | .hexists | .sismember => 3
  | .lrange => 4

open Handler in
/-- Every data handler answers with one value when it is given the arguments it reads. -/
lemma DataHandler.run_answers {σ : Type} [Storage σ] (handler : DataHandler) {arguments : List Bytes}
    {now : Int} (enough : handler.reads ≤ arguments.length) (name : NoBreak (arguments.headD [])) :
    HandlerAnswers (handler.run (σ := σ) arguments now) := by
  cases handler with
  | ping =>
    refine .ite (fun _ => .pure (HandlerReply.simple (by decide))) fun _ => .ite (fun two => ?_) fun _ =>
      .pure (HandlerReply.error (by decide))
    exact .bind (argument_ends (by omega)) fun message _ => .pure (HandlerReply.bulk message)
  | echo => exact .bind (argument_ends enough) fun message _ => .pure (HandlerReply.bulk message)
  | select =>
    refine .bind (argument_ends enough) fun index _ => .ite (fun _ => ?_) fun _ => ?_
    · exact .pure (HandlerReply.error (by decide))
    · exact .pure (HandlerReply.simple (by decide))
  | commandInfo => exact .pure (HandlerReply.encodedArray (by simp))
  | flushall =>
    exact .bind call_ends fun _ _ => .bind propagate_ends fun _ _ =>
      .pure (HandlerReply.simple (by decide))
  | del =>
    exact .bind (countKeys_ends _ _) fun deleted _ => .bind propagateIf_ends fun _ _ =>
      .pure (HandlerReply.integer deleted)
  | «exists» => exact .bind (countKeys_ends _ _) fun found _ => .pure (HandlerReply.integer found)
  | type =>
    refine query_answers enough fun valueType => HandlerReply.simple ?_
    rcases valueType with _ | _ | _ | _ | _ <;> decide
  | keys => exact query_answers enough HandlerReply.array
  | expire | pexpire | expireat | pexpireat => exact expireGeneric_answers enough name
  | ttl | pttl => exact query_answers enough HandlerReply.integer
  | persist =>
    refine .bind (argument_ends enough) fun key _ => .bind call_ends fun persisted _ => ?_
    exact .ite (fun _ => .bind propagate_ends fun _ _ => .pure (HandlerReply.integer 1)) fun _ =>
      .pure (HandlerReply.integer 0)
  | set => exact set_answers enough
  | get => exact query_answers enough handlerReply_nullableBulk
  | mset => exact mset_answers enough
  | mget => exact mget_answers
  | incr | decr => exact increment_answers enough
  | incrby => exact incrby_answers enough
  | decrby => exact decrby_answers enough
  | append => exact append_answers enough
  | strlen => exact query_answers enough fun length => HandlerReply.integer length
  | lpush | rpush => exact push_answers enough
  | lpop | rpop => exact pop_answers enough
  | lrange => exact lrange_answers enough
  | llen => exact query_answers enough fun length => HandlerReply.integer length
  | lindex => exact lindex_answers enough
  | hset => exact hset_answers enough
  | hget => exact query2_answers enough handlerReply_nullableBulk
  | hdel | sadd | srem => exact changeElements_answers enough
  | hgetall | hkeys | hvals => exact query_answers enough fun fields => HandlerReply.array _
  | hlen => exact query_answers enough fun length => HandlerReply.integer length
  | hexists => exact query2_answers enough fun found => HandlerReply.integer _
  | smembers => exact query_answers enough HandlerReply.array
  | sismember => exact query2_answers enough fun found => HandlerReply.integer _
  | scard => exact query_answers enough fun count => HandlerReply.integer count

/-- How many arguments a handler reads whatever their number is. -/
def HandlerName.reads : HandlerName → Nat
  | .data handler => handler.reads
  | .server .config | .server .memory => 2
  | .server _ => 1

section Table

/-- A command table entry's name is a line, and its arity covers what its handler reads. -/
lemma commandTable_sound : ∀ entry ∈ commandTable,
    NoBreak entry.1 ∧ entry.2.handler.reads ≤ entry.2.arity.natAbs := by
  decide

/-- An argument count that passes the arity test is at least the arity. -/
lemma le_length_of_arityFits {arity : Int} {arguments : List Bytes}
    (fits : arityFits arity arguments = true) : arity.natAbs ≤ arguments.length := by
  have le : toInt arguments.length ≤ arguments.length := by
    unfold toInt
    rw [Int.bmod_def]
    split <;> omega
  unfold arityFits at fits
  simp only [Bool.not_eq_true', Bool.or_eq_false_iff, Bool.and_eq_false_iff, decide_eq_false_iff_not,
    ne_eq, not_not] at fits
  omega

/-- A dispatched handler gets the arguments it reads, under a name that is a line. -/
lemma enough_of_dispatch {arguments : List Bytes} {spec : CommandSpec}
    (h : resolve arguments = .dispatch spec) :
    spec.handler.reads ≤ arguments.length ∧ NoBreak (arguments.headD []) := by
  obtain ⟨found, fits⟩ := resolve_dispatch h
  obtain ⟨line, reads⟩ := commandTable_sound _ (mem_of_lookup found)
  exact ⟨le_trans reads (le_length_of_arityFits fits), noBreak_of_uppercase line⟩

end Table

/-- The client bytes that an error line would echo contain no line break: the name of an unknown
command, and a parameter that `CONFIG SET` does not support. -/
def EchoesNoBreak (arguments : List Bytes) : Prop :=
  (uppercase (arguments.headD []) ≠ ascii "QUIT" →
    commandTable.lookup (uppercase (arguments.headD [])) = none → NoBreak (arguments.headD [])) ∧
  ∀ name subcommand parameter value, arguments = [name, subcommand, parameter, value] →
    uppercase name = ascii "CONFIG" → uppercase subcommand = ascii "SET" →
    lowercase parameter ≠ ascii "maxmemory" → lowercase parameter ≠ ascii "maxmemory-policy" →
    NoBreak parameter

section Execute

variable {stats : ServerStats} {aof : AofStatus} {arguments : List Bytes} {now : Int}
  {spec : CommandSpec}

open Handler in
lemma config_answers (enough : 2 ≤ arguments.length)
    (clean : ∀ name subcommand parameter value, arguments = [name, subcommand, parameter, value] →
      uppercase subcommand = ascii "SET" → lowercase parameter ≠ ascii "maxmemory" →
      lowercase parameter ≠ ascii "maxmemory-policy" → NoBreak parameter) :
    HandlerAnswers (config stats aof arguments) := by
  refine .bind (argument_ends (by omega)) fun subcommand hsub => ?_
  refine .ite (fun get => ?_) fun _ => .ite (fun set => ?_) fun _ => ?_
  · exact .bind (argument_ends (by omega)) fun pattern _ => fun _ => HandlerReply.array _
  · obtain ⟨isSet, four⟩ := set
    obtain ⟨name, sub, parameter, value, rfl⟩ := List.length_eq_four.mp four
    cases hsub
    refine .bind (argument_ends (by omega)) fun found h => ?_
    refine .bind (argument_ends (by omega)) fun _ _ => ?_
    obtain rfl : parameter = found := by simpa using h
    exact configSet_answers (clean name subcommand parameter value rfl isSet)
  · exact .pure (HandlerReply.error (by decide))

/-- The handler of a dispatched command answers with one value. -/
lemma CommandSpec.run_answers (h : resolve arguments = .dispatch spec)
    (clean : EchoesNoBreak arguments) : HandlerAnswers (spec.run stats aof arguments now) := by
  obtain ⟨enough, line⟩ := enough_of_dispatch h
  unfold CommandSpec.run
  split
  · rename_i handler e
    rw [e] at enough
    exact handler.run_answers enough line
  · rename_i handler e
    rw [e] at enough
    cases handler with
    | dbsize => exact fun session => HandlerReply.integer session.store.size
    | info => exact Handler.info_answers
    | config =>
      refine config_answers enough fun name subcommand parameter value shape => ?_
      refine clean.2 name subcommand parameter value shape ?_
      -- only the entry `CONFIG` has this handler
      have found := mem_of_lookup (resolve_dispatch h).1
      have only : ∀ entry ∈ commandTable, entry.2.handler = .server .config →
          entry.1 = ascii "CONFIG" := by decide
      have named := only _ found e
      rwa [shape] at named
    | memory => exact Handler.memory_answers enough

lemma evictBefore_ends : StateAction.Ends (fun _ => True) Failure.Defined evictBefore :=
  .bind Handler.call_ends fun evicted _ => .bind (Handler.propagateEvicted_ends evicted.2) fun _ _ =>
    .pure trivial

lemma CommandSpec.execute_answers (h : resolve arguments = .dispatch spec)
    (clean : EchoesNoBreak arguments) : AnswersOnce (spec.execute stats aof arguments now) := by
  refine .ite (fun _ => .ite (fun _ => ?_) fun _ => ?_) fun _ => (spec.run_answers h clean).once
  · exact .pure (isReply_errorWithCode (by decide) (by decide))
  · refine .bind evictBefore_ends fun withinLimit _ => .ite (fun _ => ?_) fun _ =>
      (spec.run_answers h clean).once
    exact .pure (isReply_errorWithCode (by decide) (by decide))

/-- What `execute` makes of an answer is one RESP value. -/
lemma AnswersOnce.payloadOf {handler : Handling Database Bytes} (h : AnswersOnce handler)
    (session : Session Database) : IsReply (payloadOf (handler session).1) := by
  have ends := h session
  rcases e : (handler session).1 with failure | payload
  · rw [e] at ends
    obtain ⟨error, rfl⟩ := ends
    cases error with
    | wrongType => exact isReply_errorWithCode (by decide) (by decide)
    | notInteger | overflow => exact isReply_error (by decide)
  · rw [e] at ends
    exact ends

end Execute

/-- An unknown command's error echoes the name. -/
lemma execute_unknown {aof : AofStatus} {now : Int} {arguments : List Bytes}
    (nonempty : arguments ≠ []) (notQuit : uppercase (arguments.headD []) ≠ ascii "QUIT")
    (unknown : commandTable.lookup (uppercase (arguments.headD [])) = none) (processor : Processor) :
    (processor.execute aof now arguments).1.payload =
      respError (ascii "unknown command '" ++ arguments.headD [] ++ ascii "'") := by
  have resolved : resolve arguments = .unknown := by
    simp only [resolve, notQuit, if_false, unknown]
  simp only [Processor.execute, nonempty, if_false, resolved]

/-- The error for an unsupported parameter echoes the parameter. -/
lemma execute_unsupported {aof : AofStatus} {now : Int} {name subcommand parameter value : Bytes}
    (config : uppercase name = ascii "CONFIG") (set : uppercase subcommand = ascii "SET")
    (other : lowercase parameter ≠ ascii "maxmemory")
    (other' : lowercase parameter ≠ ascii "maxmemory-policy") (processor : Processor) :
    (processor.execute aof now [name, subcommand, parameter, value]).1.payload =
      respError (ascii "Unsupported CONFIG parameter: " ++ parameter) := by
  have resolved : resolve [name, subcommand, parameter, value] =
      .dispatch ⟨.server .config, -2, false, false⟩ := by
    have fits : arityFits (-2) [name, subcommand, parameter, value] = true := by
      rw [arityFits, show [name, subcommand, parameter, value].length = 4 from rfl]
      decide
    have found : commandTable.lookup (ascii "CONFIG") =
      some ⟨.server .config, -2, false, false⟩ := by decide
    have notQuit : ascii "CONFIG" ≠ ascii "QUIT" := by decide
    simp only [resolve, List.headD_cons, config, notQuit, if_false, found, fits, if_true]
  have notGet : ascii "SET" ≠ ascii "GET" := by decide
  simp only [Processor.execute, reduceCtorEq, if_false, resolved, CommandSpec.execute,
    Bool.false_eq_true, CommandSpec.run, ServerHandler.run, Handler.config, Handler.argument,
    List.getElem?_cons_succ, List.getElem?_cons_zero, StateAction.pure_bind_apply, set, notGet, false_and,
    List.length_cons, List.length_nil, Nat.reduceAdd, and_self, if_true, Handler.configSet, other,
    other', StateAction.pure_apply, payloadOf]

/-- The payload of a reply to a non-empty command is one RESP value exactly when no line break is
echoed. -/
lemma execute_framed_iff (aof : AofStatus) (now : Int) {arguments : List Bytes}
    (nonempty : arguments ≠ []) (processor : Processor) :
    IsReply (processor.execute aof now arguments).1.payload ↔ EchoesNoBreak arguments := by
  constructor
  · intro framed
    refine ⟨fun notQuit unknown => ?_, ?_⟩
    · rw [execute_unknown nonempty notQuit unknown] at framed
      by_contra broken
      refine not_isReply_error (fun whole => broken ?_) framed
      exact whole.of_append.1.of_append.2
    · rintro name subcommand parameter value rfl config set other other'
      rw [execute_unsupported config set other other'] at framed
      by_contra broken
      exact not_isReply_error (fun whole => broken whole.of_append.2) framed
  · intro clean
    unfold Processor.execute
    rw [if_neg nonempty]
    dsimp only
    split
    · exact isReply_simple (by decide)
    · rename_i unknown
      refine isReply_error (.append (.append (by decide) (clean.1 ?_ ?_)) (by decide))
      all_goals
        unfold resolve at unknown
        dsimp only at unknown
        split at unknown
        · cases unknown
        · split at unknown
          · assumption
          · split at unknown <;> cases unknown
    · rename_i short
      refine isReply_error (.append (.append (by decide) (noBreak_lowercase ?_)) (by decide))
      unfold resolve at short
      dsimp only at short
      split at short
      · cases short
      · split at short
        · cases short
        · rename_i spec found
          exact (commandTable_sound _ (mem_of_lookup found)).1
    · rename_i spec dispatched
      exact (spec.execute_answers dispatched clean).payloadOf _

/-- The payloads of the replies to a pipeline of commands. -/
def pipelinePayloads : List (AofStatus × Int × List Bytes) → Processor → List Bytes
  | [], _ => []
  | (aof, now, arguments) :: commands, processor =>
    (processor.execute aof now arguments).1.payload ::
      pipelinePayloads commands (processor.execute aof now arguments).2.2

/-- Every payload of a pipeline that echoes no line break is one RESP value. -/
lemma pipelinePayloads_framed (commands : List (AofStatus × Int × List Bytes)) (processor : Processor)
    (clean : ∀ command ∈ commands, command.2.2 ≠ [] ∧ EchoesNoBreak command.2.2) :
    ∀ payload ∈ pipelinePayloads commands processor, IsReply payload := by
  induction commands generalizing processor with
  | nil => simp [pipelinePayloads]
  | cons command commands ih =>
    obtain ⟨aof, now, arguments⟩ := command
    intro payload mem
    rcases List.mem_cons.mp mem with rfl | mem
    · obtain ⟨nonempty, echoes⟩ := clean (aof, now, arguments) (by simp)
      exact (execute_framed_iff aof now nonempty processor).mpr echoes
    · exact ih _ (fun c hc => clean c (by simp [hc])) payload mem

/-- A reply is exactly one RESP value if and only if no error line echoes a line break, in every
state and for every non-empty command; and a client that reads values off a pipeline of such
commands gets the reply to the n-th command as the n-th value. -/
theorem reply_one_value_iff (processor : Processor) :
    (∀ (aof : AofStatus) (now : Int) (arguments : List Bytes), arguments ≠ [] →
      (IsReply (processor.execute aof now arguments).1.payload ↔ EchoesNoBreak arguments)) ∧
    ∀ commands : List (AofStatus × Int × List Bytes),
      (∀ command ∈ commands, command.2.2 ≠ [] ∧ EchoesNoBreak command.2.2) →
      ∀ (values : List Reply) (rest : Bytes),
        values.length ≤ (pipelinePayloads commands processor).length →
        (pipelinePayloads commands processor).flatten =
          (values.map Reply.encode).flatten ++ rest →
        values.map Reply.encode = (pipelinePayloads commands processor).take values.length :=
  ⟨fun aof now _ nonempty => execute_framed_iff aof now nonempty processor,
    fun commands clean values rest few stream =>
      Reply.read_in_order (pipelinePayloads_framed commands processor clean) values few rest stream⟩

/-- An unknown command is answered with one value, and the two replies to a pipeline of two commands
are read in order. -/
theorem reply_one_value_ping :
    IsReply (Processor.execute .detached 0 [ascii "NOPE"] {}).1.payload ∧
    [Reply.simple ⟨ascii "PONG", by decide⟩].map Reply.encode =
      (pipelinePayloads [(.detached, 0, [ascii "PING"]), (.detached, 1, [ascii "DBSIZE"])] {}).take
        1 := by
  have known : EchoesNoBreak [ascii "PING"] ∧ EchoesNoBreak [ascii "DBSIZE"] := by
    refine ⟨⟨fun _ unknown => ?_, fun _ _ _ _ shape => ?_⟩,
      ⟨fun _ unknown => ?_, fun _ _ _ _ shape => ?_⟩⟩
    · exact absurd unknown (by decide)
    · simp at shape
    · exact absurd unknown (by decide)
    · simp at shape
  have clean : EchoesNoBreak [ascii "NOPE"] := by
    refine ⟨fun _ _ => by decide, fun _ _ _ _ shape => ?_⟩
    simp at shape
  refine ⟨((reply_one_value_iff {}).1 .detached 0 [ascii "NOPE"] (by decide)).mpr clean, ?_⟩
  refine (reply_one_value_iff {}).2 _ ?_ _ (ascii ":0" ++ crlf) (by decide) (by decide)
  intro command mem
  simp only [List.mem_cons, List.not_mem_nil, or_false] at mem
  rcases mem with rfl | rfl
  · exact ⟨by decide, known.1⟩
  · exact ⟨by decide, known.2⟩

/-- The command name `a CR LF b` is unknown, and its error reply is not one RESP value. -/
theorem reply_broken_by_name :
    ¬ IsReply (Processor.execute .detached 0 [ascii "a\r\nb"] {}).1.payload := by
  rw [execute_framed_iff .detached 0 (by decide) {}]
  intro clean
  exact absurd (clean.1 (by decide) (by decide)) (by decide)

end FlashKV
