import FlashKV.Command.Processor

/-!
# Commands on two storage engines

If the operations of two storage engines simulate each other, so do the data handlers: they return
the same payloads and propagate the same records. `K` restricts the keys that are used and `D` the
deadlines; a handler only uses keys among its arguments and the deadlines that these ask for.
-/

namespace FlashKV

open StateAction

/-- The amount that the third argument gives. -/
def amountArgument (arguments : List Bytes) : Option Int :=
  arguments[2]?.bind parseStrictInteger

namespace DataHandler

/-- The deadline that `EXPIRE` and its variants ask for. -/
def requestedDeadline (handler : DataHandler) (arguments : List Bytes) (now : Int) : Option Int :=
  match handler with
  | .expire => (amountArgument arguments).bind fun n => Handler.expireDeadline n 1000 now false
  | .pexpire => (amountArgument arguments).bind fun n => Handler.expireDeadline n 1 now false
  | .expireat => (amountArgument arguments).bind fun n => Handler.expireDeadline n 1000 now true
  | .pexpireat => (amountArgument arguments).bind fun n => Handler.expireDeadline n 1 now true
  | _ => none

/-- The deadlines that a command asks the engine for. -/
def Asks (handler : DataHandler) (arguments : List Bytes) (now deadline : Int) : Prop :=
  handler.requestedDeadline arguments now = some deadline ∨
  handler = .set ∧ ∃ options, Handler.parseSetOptions now (arguments.drop 3) {} = .ok options ∧
    options.deadline = some deadline

/-- A deadline that a command asks for is a `long long`. -/
lemma Asks.range {handler : DataHandler} {arguments : List Bytes} {now deadline : Int}
    (h : handler.Asks arguments now deadline) : int64Min ≤ deadline ∧ deadline ≤ int64Max := by
  obtain requested | ⟨rfl, options, parsed, given⟩ := h
  · cases handler with
    | expire | pexpire | expireat | pexpireat =>
      obtain ⟨amount, _, computed⟩ := Option.bind_eq_some_iff.mp requested
      exact Handler.expireDeadline_range computed
    | _ => cases requested
  · exact (Handler.parseSetOptions_range parsed (by simp) deadline given).2

end DataHandler

variable {σ τ : Type} [Storage σ] [Storage τ]

/-- The reading operations of two storage engines at one clock reading simulate each other, on keys
with `K`. All of them but `ttl` are listed. -/
structure StorageReads (K : Bytes → Prop) (now : Int) (R : σ → τ → Prop) : Prop where
  existsKey : ∀ key, K key → Simulates R (Storage.existsKey key now) (Storage.existsKey key now)
  type : ∀ key, K key → Simulates R (Storage.type key now) (Storage.type key now)
  keys : ∀ pattern, Simulates R (Storage.keys pattern now) (Storage.keys pattern now)
  get : ∀ key, K key → Simulates R (Storage.get key now) (Storage.get key now)
  stringLength : ∀ key, K key →
    Simulates R (Storage.stringLength key now) (Storage.stringLength key now)
  ttlMs : ∀ key, K key → Simulates R (Storage.ttlMs key now) (Storage.ttlMs key now)
  listRange : ∀ key start stop, K key →
    Simulates R (Storage.listRange key start stop now) (Storage.listRange key start stop now)
  listIndex : ∀ key index, K key →
    Simulates R (Storage.listIndex key index now) (Storage.listIndex key index now)
  listLength : ∀ key, K key → Simulates R (Storage.listLength key now) (Storage.listLength key now)
  hashGet : ∀ key field, K key →
    Simulates R (Storage.hashGet key field now) (Storage.hashGet key field now)
  hashGetAll : ∀ key, K key → Simulates R (Storage.hashGetAll key now) (Storage.hashGetAll key now)
  hashLength : ∀ key, K key → Simulates R (Storage.hashLength key now) (Storage.hashLength key now)
  hashExists : ∀ key field, K key →
    Simulates R (Storage.hashExists key field now) (Storage.hashExists key field now)
  setMembers : ∀ key, K key → Simulates R (Storage.setMembers key now) (Storage.setMembers key now)
  setIsMember : ∀ key member, K key →
    Simulates R (Storage.setIsMember key member now) (Storage.setIsMember key member now)
  setCardinality : ∀ key, K key →
    Simulates R (Storage.setCardinality key now) (Storage.setCardinality key now)

/-- So do the operations that take something away or change a deadline. -/
structure StorageShrinks (K : Bytes → Prop) (D : Int → Prop) (now : Int) (R : σ → τ → Prop) : Prop
    extends StorageReads K now R where
  del : ∀ key, K key → Simulates R (Storage.del key now) (Storage.del key now)
  expireAtMs : ∀ key unixTimeMs, K key → D unixTimeMs →
    Simulates R (Storage.expireAtMs key unixTimeMs now) (Storage.expireAtMs key unixTimeMs now)
  persist : ∀ key, K key → Simulates R (Storage.persist key now) (Storage.persist key now)
  listPop : ∀ key side, K key →
    Simulates R (Storage.listPop key side now) (Storage.listPop key side now)
  hashDelete : ∀ key fields, K key →
    Simulates R (Storage.hashDelete key fields now) (Storage.hashDelete key fields now)
  setRemove : ∀ key members, K key →
    Simulates R (Storage.setRemove key members now) (Storage.setRemove key members now)

/-- So do all operations on keys; the amounts are those that a command can pass. -/
structure StorageChanges (K : Bytes → Prop) (D : Int → Prop) (now : Int) (R : σ → τ → Prop) : Prop
    extends StorageShrinks K D now R where
  set : ∀ key value, K key → Simulates R (Storage.set key value now) (Storage.set key value now)
  incrementBy : ∀ key delta, K key → int64Min ≤ delta ∧ delta ≤ int64Max →
    Simulates R (Storage.incrementBy key delta now) (Storage.incrementBy key delta now)
  append : ∀ key value, K key →
    Simulates R (Storage.append key value now) (Storage.append key value now)
  listPush : ∀ key values side, K key →
    Simulates R (Storage.listPush key values side now) (Storage.listPush key values side now)
  hashSet : ∀ key fields, K key →
    Simulates R (Storage.hashSet key fields now) (Storage.hashSet key fields now)
  setAdd : ∀ key members, K key →
    Simulates R (Storage.setAdd key members now) (Storage.setAdd key members now)

/-- So do all operations of the data commands. -/
structure StorageSimulates (K : Bytes → Prop) (D : Int → Prop) (now : Int) (R : σ → τ → Prop) : Prop
    extends StorageChanges K D now R where
  clear : Simulates R Storage.clear Storage.clear

/-- A relation on sessions that allows any change to related engines. -/
structure Lifts (R : σ → τ → Prop) (S : Session σ → Session τ → Prop) : Prop where
  store : ∀ {s t}, S s t → R s.store t.store
  update : ∀ {s t s' t'}, S s t → R s' t' → S { s with store := s' } { t with store := t' }

/-- The records that a command with these arguments can propagate. -/
inductive Written (arguments : List Bytes) : List Bytes → Prop where
  | same : Written arguments arguments
  | flushall : Written arguments [ascii "FLUSHALL"]
  | del {key} :
    key ∈ arguments →
    Written arguments [ascii "DEL", key]
  | set {key value} :
    key ∈ arguments →
    value ∈ arguments →
    Written arguments [ascii "SET", key, value]
  | expiry {key} {unixTimeMs : Int} :
    key ∈ arguments →
    int64Min ≤ unixTimeMs ∧ unixTimeMs ≤ int64Max →
    Written arguments [ascii "PEXPIREAT", key, Decimal.ofInt unixTimeMs]

/-- It also allows propagating the records of a command. -/
structure Propagates (arguments : List Bytes) (R : σ → τ → Prop)
    (S : Session σ → Session τ → Prop) : Prop extends Lifts R S where
  propagate : ∀ {record}, Written arguments record →
    Simulates S (Handler.propagate record) (Handler.propagate record)

/-- Sessions over related engines, with the same records but for those made before. -/
structure SessionRel (before : List (List Bytes)) (R : σ → τ → Prop) (s : Session σ)
    (t : Session τ) : Prop where
  store : R s.store t.store
  attached : s.attached = t.attached
  records : s.records = before ++ t.records

omit [Storage σ] [Storage τ] in
lemma SessionRel.propagates {before : List (List Bytes)} {R : σ → τ → Prop} {arguments : List Bytes} :
    Propagates arguments R (SessionRel before R) where
  store rel := rel.store
  update rel related := ⟨related, rel.attached, rel.records⟩
  propagate _ := by
    refine .modify fun s t rel => ?_
    rw [rel.attached]
    split
    · exact ⟨rel.store, rfl, by rw [rel.records, List.append_assoc]⟩
    · exact rel

namespace Handler

variable {α : Type} {K : Bytes → Prop} {D : Int → Prop} {now : Int} {R : σ → τ → Prop}
  {S : Session σ → Session τ → Prop} {before : List (List Bytes)} {arguments : List Bytes}

section Steps

omit [Storage σ] [Storage τ]

lemma call_simulates {x : StateAction DbError σ α} {y : StateAction DbError τ α} (lift : Lifts R S)
    (h : Simulates R x y) : Simulates S (call x) (call y) := by
  intro s t rel
  obtain ⟨same, store⟩ := h s.store t.store (lift.store rel)
  unfold call
  rcases hx : x s.store with ⟨r, s'⟩
  rcases hy : y t.store with ⟨r', t'⟩
  rw [hx, hy] at same store
  change r = r' at same
  subst same
  cases r with
  | ok a => exact ⟨rfl, lift.update rel store⟩
  | error e => exact ⟨rfl, lift.update rel store⟩

lemma propagateIf_simulates (lift : Propagates arguments R S) {changed : Bool} :
    Simulates S (propagateIf changed arguments) (propagateIf changed arguments) :=
  .ite (lift.propagate .same) (.pure ())

/-- Both sides read the same argument. -/
lemma read_bind_simulates {index : Nat} {f : Bytes → Handling σ α} {g : Bytes → Handling τ α}
    (h : ∀ value, arguments[index]? = some value → Simulates S (f value) (g value)) :
    Simulates S (argument arguments index >>= f) (argument arguments index >>= g) := by
  unfold argument
  cases found : arguments[index]? with
  | none => exact fun _ _ rel => ⟨rfl, rel⟩
  | some value => exact h value found

/-- An argument after the name is one of the arguments after the name. -/
lemma argument_bind_simulates {index : Nat} {f : Bytes → Handling σ α} {g : Bytes → Handling τ α}
    (h : ∀ value ∈ arguments.drop 1, Simulates S (f value) (g value)) :
    Simulates S (argument arguments (index + 1) >>= f) (argument arguments (index + 1) >>= g) := by
  refine read_bind_simulates fun value found => h value (List.mem_of_getElem? (i := index) ?_)
  rw [List.getElem?_drop, Nat.add_comm]
  exact found

lemma argumentsFrom_simulates {index : Nat} :
    Simulates S (argumentsFrom arguments index : Handling σ _)
      (argumentsFrom arguments index : Handling τ _) :=
  .ite (.pure _) (.throw _)

/-- The handlers that look up one key and turn what the engine returns into a reply. -/
lemma query_simulates (lift : Lifts R S) (allowed : ∀ argument ∈ arguments.drop 1, K argument)
    {op : Bytes → StateAction DbError σ α} {op' : Bytes → StateAction DbError τ α} {reply : α → Bytes}
    (h : ∀ key, K key → Simulates R (op key) (op' key)) :
    Simulates S
      (do
        let key ← argument arguments 1
        let a ← call (op key)
        pure (reply a))
      (do
        let key ← argument arguments 1
        let a ← call (op' key)
        pure (reply a)) :=
  argument_bind_simulates fun key mem => .bind (call_simulates lift (h key (allowed key mem))) fun a =>
    .pure (reply a)

/-- The same with a second argument. -/
lemma query2_simulates (lift : Lifts R S) (allowed : ∀ argument ∈ arguments.drop 1, K argument)
    {op : Bytes → Bytes → StateAction DbError σ α} {op' : Bytes → Bytes → StateAction DbError τ α}
    {reply : α → Bytes}
    (h : ∀ key second, K key → Simulates R (op key second) (op' key second)) :
    Simulates S
      (do
        let key ← argument arguments 1
        let second ← argument arguments 2
        let a ← call (op key second)
        pure (reply a))
      (do
        let key ← argument arguments 1
        let second ← argument arguments 2
        let a ← call (op' key second)
        pure (reply a)) :=
  argument_bind_simulates fun key mem => argument_bind_simulates fun second _ =>
    .bind (call_simulates lift (h key second (allowed key mem))) fun a => .pure (reply a)

lemma countKeys_simulates (lift : Lifts R S) (allowed : ∀ argument ∈ arguments.drop 1, K argument)
    {act : Bytes → StateAction DbError σ Bool} {act' : Bytes → StateAction DbError τ Bool}
    (h : ∀ key, K key → Simulates R (act key) (act' key)) :
    Simulates S (countKeys act (arguments.drop 1))
      (countKeys act' (arguments.drop 1)) :=
  .foldlM _ (fun _ key mem => .bind
    (call_simulates lift (h key (allowed key mem))) fun _ => .pure _) 0

/-- The handlers that change some elements of a key and propagate themselves if they did. -/
lemma changeElements_simulates (lift : Propagates arguments R S)
    (allowed : ∀ argument ∈ arguments.drop 1, K argument)
    {act : Bytes → List Bytes → StateAction DbError σ Nat}
    {act' : Bytes → List Bytes → StateAction DbError τ Nat}
    (h : ∀ key elements, K key → Simulates R (act key elements) (act' key elements)) :
    Simulates S (changeElements act arguments) (changeElements act' arguments) :=
  argument_bind_simulates fun key mem => .bind argumentsFrom_simulates fun elements =>
    .bind (call_simulates lift.toLifts (h key elements (allowed key mem))) fun _ =>
      .bind (propagateIf_simulates lift) fun _ => .pure _

end Steps

section Reads

variable (lift : Lifts R S) (sim : StorageReads K now R)
  (allowed : ∀ argument ∈ arguments.drop 1, K argument)
include lift sim allowed

lemma mget_simulates : Simulates S (mget (σ := σ) arguments now)
    (mget (σ := τ) arguments now) := by
  refine .bind (.foldlM _ (fun values key mem => ?_) []) fun _ => .pure _
  have ok := allowed key mem
  refine .bind (.tryCatch (.bind (call_simulates lift (sim.get key ok)) fun _ => .pure _) ?_) fun _ =>
    .pure _
  intro failure
  split
  · exact .pure _
  · exact .throw _

lemma lrange_simulates : Simulates S (lrange (σ := σ) arguments now)
    (lrange (σ := τ) arguments now) := by
  refine argument_bind_simulates fun startText _ => ?_
  split
  · exact .pure _
  · refine argument_bind_simulates fun stopText _ => ?_
    split
    · exact .pure _
    · exact argument_bind_simulates fun key mem =>
        .bind (call_simulates lift (sim.listRange key _ _ (allowed key mem))) fun _ => .pure _

lemma lindex_simulates : Simulates S (lindex (σ := σ) arguments now)
    (lindex (σ := τ) arguments now) := by
  refine argument_bind_simulates fun text _ => ?_
  split
  · exact .pure _
  · exact argument_bind_simulates fun key mem =>
      .bind (call_simulates lift (sim.listIndex key _ (allowed key mem))) fun _ => .pure _

end Reads

section Shrinks

variable (lift : Propagates arguments R S) (sim : StorageShrinks K D now R)
  (allowed : ∀ argument ∈ arguments.drop 1, K argument)
include lift sim allowed

lemma expireGeneric_simulates {unitMs : Int} {absolute : Bool}
    (asks : ∀ deadline, ((amountArgument arguments).bind fun n =>
      expireDeadline n unitMs now absolute) = some deadline → D deadline) :
    Simulates S (expireGeneric (σ := σ) arguments unitMs absolute now)
      (expireGeneric (σ := τ) arguments unitMs absolute now) := by
  refine read_bind_simulates fun text second => ?_
  split
  · exact .pure _
  · rename_i amount parsed
    split
    · exact read_bind_simulates fun name _ => .pure _
    · rename_i deadline computed
      refine argument_bind_simulates fun key mem => ?_
      have asked : D deadline := by
        apply asks
        rw [amountArgument, second, Option.bind_some, parsed, Option.bind_some, computed]
      refine .bind (call_simulates lift.toLifts (sim.expireAtMs key deadline (allowed key mem)
        asked)) fun found => .ite ?_ (.pure _)
      refine .bind (call_simulates lift.toLifts (sim.existsKey key (allowed key mem))) fun present => ?_
      have named := List.mem_of_mem_drop mem
      exact .bind (.ite (lift.propagate (.expiry named (expireDeadline_range computed)))
        (lift.propagate (.del named))) fun _ => .pure _

lemma pop_simulates {side : ListSide} : Simulates S (pop (σ := σ) arguments side now)
    (pop (σ := τ) arguments side now) :=
  argument_bind_simulates fun key mem =>
    .bind (call_simulates lift.toLifts (sim.listPop key side (allowed key mem))) fun _ =>
      .bind (propagateIf_simulates lift) fun _ => .pure _

end Shrinks

section Changes

variable (lift : Propagates arguments R S) (sim : StorageChanges K D now R)
  (allowed : ∀ argument ∈ arguments.drop 1, K argument)
include lift sim allowed

lemma set_simulates (asks : ∀ options deadline,
      parseSetOptions now (arguments.drop 3) {} = .ok options →
      options.deadline = some deadline → D deadline) :
    Simulates S (set (σ := σ) arguments now) (set (σ := τ) arguments now) := by
  refine argument_bind_simulates fun key mem => argument_bind_simulates fun value mem' => ?_
  have ok := allowed key mem
  split
  · exact .pure _
  · rename_i options parsed
    refine .ite (.pure _) (.bind (call_simulates lift.toLifts (sim.existsKey key ok)) fun present => ?_)
    refine .ite (.pure _) (.bind (call_simulates lift.toLifts (sim.set key value ok)) fun _ => ?_)
    have named := List.mem_of_mem_drop mem
    refine .bind (lift.propagate (.set named (List.mem_of_mem_drop mem'))) fun _ => .bind ?_ fun _ =>
      .pure _
    unfold setExpiry
    split
    · exact .pure _
    · rename_i deadline given
      have range := (parseSetOptions_range parsed (by simp) deadline given).2
      exact .bind (call_simulates lift.toLifts (sim.expireAtMs key deadline ok
        (asks options deadline parsed given))) fun _ => lift.propagate (.expiry named range)

lemma mset_simulates : Simulates S (mset (σ := σ) arguments now)
    (mset (σ := τ) arguments now) := by
  have loop : ∀ pairs : List Bytes, (∀ argument ∈ pairs, K argument) →
      Simulates S (msetLoop (σ := σ) now pairs) (msetLoop (σ := τ) now pairs) := by
    intro pairs
    induction pairs using msetLoop.induct with
    | case1 => exact fun _ => .pure ()
    | case2 key value rest ih =>
      intro ok
      exact .bind (call_simulates lift.toLifts (sim.set key value (ok key (by simp)))) fun _ =>
        ih fun a mem => ok a (by simp [mem])
    | case3 => exact fun _ => .throw _
  refine .ite (.pure _) (.bind (loop _ allowed) fun _ => ?_)
  exact .bind (lift.propagate .same) fun _ => .pure _

lemma increment_simulates {delta : Int} (range : int64Min ≤ delta ∧ delta ≤ int64Max) :
    Simulates S (increment (σ := σ) arguments delta now)
      (increment (σ := τ) arguments delta now) :=
  argument_bind_simulates fun key mem =>
    .bind (call_simulates lift.toLifts (sim.incrementBy key delta (allowed key mem) range)) fun _ =>
      .bind (lift.propagate .same) fun _ => .pure _

lemma incrby_simulates : Simulates S (incrby (σ := σ) arguments now)
    (incrby (σ := τ) arguments now) := by
  refine argument_bind_simulates fun text _ => ?_
  split
  · exact .pure _
  · rename_i delta parsed
    exact increment_simulates lift sim allowed (Decimal.parseInt_range parsed)

lemma decrby_simulates : Simulates S (decrby (σ := σ) arguments now)
    (decrby (σ := τ) arguments now) := by
  refine argument_bind_simulates fun text _ => ?_
  split
  · exact .pure _
  · rename_i delta parsed
    have range := Decimal.parseInt_range parsed
    by_cases least : delta = int64Min
    · rw [if_pos least, if_pos least]
      exact .pure _
    · rw [if_neg least, if_neg least]
      refine increment_simulates lift sim allowed ?_
      rw [int64Min, int64Max] at *
      omega

lemma push_simulates {side : ListSide} : Simulates S (push (σ := σ) arguments side now)
    (push (σ := τ) arguments side now) :=
  argument_bind_simulates fun key mem => .bind argumentsFrom_simulates fun values =>
    .bind (call_simulates lift.toLifts (sim.listPush key values side (allowed key mem))) fun _ =>
      .bind (lift.propagate .same) fun _ => .pure _

lemma hset_simulates : Simulates S (hset (σ := σ) arguments now)
    (hset (σ := τ) arguments now) := by
  have pairs : ∀ elements : List Bytes,
      Simulates S (fieldPairs (σ := σ) elements) (fieldPairs (σ := τ) elements) := by
    intro elements
    induction elements using fieldPairs.induct with
    | case1 => exact .pure _
    | case2 field value rest ih => exact .bind ih fun _ => .pure _
    | case3 => exact .throw _
  refine .ite (.pure _) (.bind (pairs _) fun fields => argument_bind_simulates fun key mem => ?_)
  exact .bind (call_simulates lift.toLifts (sim.hashSet key fields (allowed key mem))) fun _ =>
    .bind (lift.propagate .same) fun _ => .pure _

end Changes

end Handler

/-- The handlers of the commands that only read. -/
def DataHandler.isRead : DataHandler → Bool
  | .ping | .echo | .select | .commandInfo | .exists | .type | .keys | .ttl | .pttl | .get | .mget
  | .strlen | .lrange | .llen | .lindex | .hget | .hgetall | .hlen | .hexists | .hkeys | .hvals
  | .smembers | .sismember | .scard => true
  | _ => false

section Run

open Handler

variable {K : Bytes → Prop} {D : Int → Prop} {now : Int} {R : σ → τ → Prop}
  {S : Session σ → Session τ → Prop} {before : List (List Bytes)} {arguments : List Bytes} (handler : DataHandler)

/-- The reading handlers on two storage engines whose reading operations simulate each other. -/
lemma DataHandler.read_simulates (isRead : handler.isRead = true) (lift : Lifts R S)
    (sim : StorageReads K now R)
    (ttl : handler = .ttl → ∀ key, K key → Simulates R (Storage.ttl key now) (Storage.ttl key now))
    (allowed : ∀ argument ∈ arguments.drop 1, K argument) :
    Simulates S (handler.run (σ := σ) arguments now)
      (handler.run (σ := τ) arguments now) := by
  cases handler with
  | ping => exact .ite (.pure _) (.ite (argument_bind_simulates fun _ _ => .pure _) (.pure _))
  | echo => exact argument_bind_simulates fun _ _ => .pure _
  | select => exact argument_bind_simulates fun _ _ => .ite (.pure _) (.pure _)
  | commandInfo => exact .pure _
  | «exists» => exact .bind (countKeys_simulates lift allowed sim.existsKey) fun _ => .pure _
  | type => exact query_simulates lift allowed sim.type
  | keys =>
    exact argument_bind_simulates fun pattern _ =>
      .bind (call_simulates lift (sim.keys pattern)) fun _ => .pure _
  | ttl => exact query_simulates lift allowed (ttl rfl)
  | pttl => exact query_simulates lift allowed sim.ttlMs
  | get => exact query_simulates lift allowed sim.get
  | mget => exact mget_simulates lift sim allowed
  | strlen => exact query_simulates lift allowed sim.stringLength
  | lrange => exact lrange_simulates lift sim allowed
  | llen => exact query_simulates lift allowed sim.listLength
  | lindex => exact lindex_simulates lift sim allowed
  | hget => exact query2_simulates lift allowed sim.hashGet
  | hgetall | hkeys | hvals => exact query_simulates lift allowed sim.hashGetAll
  | hlen => exact query_simulates lift allowed sim.hashLength
  | hexists => exact query2_simulates lift allowed sim.hashExists
  | smembers => exact query_simulates lift allowed sim.setMembers
  | sismember => exact query2_simulates lift allowed sim.setIsMember
  | scard => exact query_simulates lift allowed sim.setCardinality
  | _ => cases isRead

/-- The handlers of the commands that can make a value grow. -/
def DataHandler.grows : DataHandler → Bool
  | .set | .mset | .incr | .decr | .incrby | .decrby | .append | .lpush | .rpush | .hset | .sadd => true
  | _ => false

/-- The handlers that take something away, change a deadline or read. -/
lemma DataHandler.shrink_simulates (shrinks : handler.grows = false) (keeps : handler ≠ .flushall)
    (lift : Propagates arguments R S) (sim : StorageShrinks K D now R)
    (asks : ∀ deadline, handler.Asks arguments now deadline → D deadline)
    (ttl : handler = .ttl → ∀ key, K key → Simulates R (Storage.ttl key now) (Storage.ttl key now))
    (allowed : ∀ argument ∈ arguments.drop 1, K argument) :
    Simulates S (handler.run (σ := σ) arguments now) (handler.run (σ := τ) arguments now) := by
  cases handler with
  | flushall => exact absurd rfl keeps
  | set | mset | incr | decr | incrby | decrby | append | lpush | rpush | hset | sadd => cases shrinks
  | del =>
    exact .bind (countKeys_simulates lift.toLifts allowed sim.del) fun _ =>
      .bind (propagateIf_simulates lift) fun _ => .pure _
  | expire | pexpire | expireat | pexpireat =>
    exact expireGeneric_simulates lift sim allowed fun deadline requested =>
      asks deadline (.inl requested)
  | persist =>
    refine argument_bind_simulates fun key mem => ?_
    exact .bind (call_simulates lift.toLifts (sim.persist key (allowed key mem))) fun _ =>
      .ite (.bind (lift.propagate .same) fun _ => .pure _) (.pure _)
  | lpop | rpop => exact pop_simulates lift sim allowed
  | hdel => exact changeElements_simulates lift allowed sim.hashDelete
  | srem => exact changeElements_simulates lift allowed sim.setRemove
  | _ => exact DataHandler.read_simulates _ rfl lift.toLifts sim.toStorageReads ttl allowed

/-- The data handlers but for `flushall`. -/
lemma DataHandler.change_simulates (keeps : handler ≠ .flushall) (lift : Propagates arguments R S)
    (sim : StorageChanges K D now R)
    (asks : ∀ deadline, handler.Asks arguments now deadline → D deadline)
    (ttl : handler = .ttl → ∀ key, K key → Simulates R (Storage.ttl key now) (Storage.ttl key now))
    (allowed : ∀ argument ∈ arguments.drop 1, K argument) :
    Simulates S (handler.run (σ := σ) arguments now) (handler.run (σ := τ) arguments now) := by
  cases handler with
  | flushall => exact absurd rfl keeps
  | set =>
    exact set_simulates lift sim allowed fun options deadline parsed given =>
      asks deadline (.inr ⟨rfl, options, parsed, given⟩)
  | mset => exact mset_simulates lift sim allowed
  | incr | decr => exact increment_simulates lift sim allowed (by decide)
  | incrby => exact incrby_simulates lift sim allowed
  | decrby => exact decrby_simulates lift sim allowed
  | append =>
    exact argument_bind_simulates fun key mem => argument_bind_simulates fun value _ =>
      .bind (call_simulates lift.toLifts (sim.append key value (allowed key mem))) fun _ =>
        .bind (lift.propagate .same) fun _ => .pure _
  | lpush | rpush => exact push_simulates lift sim allowed
  | hset => exact hset_simulates lift sim allowed
  | sadd => exact changeElements_simulates lift allowed sim.setAdd
  | _ => exact DataHandler.shrink_simulates _ rfl keeps lift sim.toStorageShrinks asks ttl allowed

/-- The data handlers on two storage engines that simulate each other: same payload, same records. -/
lemma DataHandler.run_simulates (lift : Propagates arguments R S) (sim : StorageSimulates K D now R)
    (asks : ∀ deadline, handler.Asks arguments now deadline → D deadline)
    (ttl : handler = .ttl → ∀ key, K key → Simulates R (Storage.ttl key now) (Storage.ttl key now))
    (allowed : ∀ argument ∈ arguments.drop 1, K argument) :
    Simulates S (handler.run (σ := σ) arguments now) (handler.run (σ := τ) arguments now) := by
  by_cases flush : handler = .flushall
  · subst flush
    exact .bind (call_simulates lift.toLifts sim.clear) fun _ =>
      .bind (lift.propagate .flushall) fun _ => .pure _
  · exact handler.change_simulates flush lift sim.toStorageChanges asks ttl allowed

end Run

end FlashKV
