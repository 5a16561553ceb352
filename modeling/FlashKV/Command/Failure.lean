import FlashKV.Command.Limit
import FlashKV.Persistence.Logging

/-!
# A failing command changes nothing

The errors of a command are raised before its first change: by the early returns of its handler, or
by the one call of the storage engine that can throw, which then has found its key and changed
nothing. A key that such a call creates has the type and the value that it goes on with.
-/

namespace FlashKV

open StateAction Database

namespace Database

variable {α : Type} {key : Bytes} {now : Int}

/-- An operation on one key retains the database when it throws, if it does not throw without the
key. -/
lemma retains_intro (key : Bytes) (now : Int) {act : DbAction α}
    (absent : ∀ db db', db.findLive key now = (none, db') → ¬ Thrown (act db).1)
    (present : ∀ db entry, db.findLive key now = (some entry, db) →
      ¬ Thrown (act db).1 ∨ (act db).2 = db) : Retains Thrown act := by
  intro db thrown
  rcases findLive_cases db key now with ⟨entry, hf, _⟩ | ⟨db', hf, _⟩
  · exact (present db entry hf).resolve_left (absurd thrown)
  · exact absurd thrown (absent db db' hf)

lemma get_retains : Retains Thrown (Database.get key now) := by
  apply retains_intro key now
  · intro db db' hf
    simp [Database.get, hf]
  · intro db entry hf
    simp only [Database.get, hf]
    split <;> simp

lemma incrementBy_retains {delta : Int} (range : int64Min ≤ delta ∧ delta ≤ int64Max) :
    Retains Thrown (Database.incrementBy key delta now) := by
  apply retains_intro key now
  · -- a created zero is an integer, and adding the amount to it does not overflow
    intro db db' hf
    have zero : parseStrictInteger (ascii "0") = some 0 := by decide
    have fits : fit64 (0 + delta) = some delta := by rw [zero_add, fit64, if_pos range]
    simp only [Database.incrementBy, findOrCreate, hf, newEntry, zero, fits]
    exact not_thrown
  · intro db entry hf
    simp only [Database.incrementBy, findOrCreate, hf]
    split
    · split
      · simp
      · split <;> simp
    · simp

lemma append_retains {value : Bytes} : Retains Thrown (Database.append key value now) := by
  apply retains_intro key now
  · intro db db' hf
    simp [Database.append, hf]
  · intro db entry hf
    simp only [Database.append, hf]
    split <;> simp

lemma stringLength_retains : Retains Thrown (Database.stringLength key now) := by
  apply retains_intro key now
  · intro db db' hf
    simp [Database.stringLength, hf]
  · intro db entry hf
    simp only [Database.stringLength, hf]
    split <;> simp

lemma listPush_retains {values : List Bytes} {side : ListSide} :
    Retains Thrown (Database.listPush key values side now) := by
  apply retains_intro key now
  · intro db db' hf
    simp [Database.listPush, findOrCreate, hf, newEntry]
  · intro db entry hf
    simp only [Database.listPush, findOrCreate, hf]
    split <;> simp

lemma listPop_retains {side : ListSide} : Retains Thrown (Database.listPop key side now) := by
  apply retains_intro key now
  · intro db db' hf
    simp [Database.listPop, hf]
  · intro db entry hf
    simp only [Database.listPop, hf]
    split
    · split <;> simp
    · simp

lemma listRange_retains {start stop : Int} :
    Retains Thrown (Database.listRange key start stop now) := by
  apply retains_intro key now
  · intro db db' hf
    simp [Database.listRange, hf]
  · intro db entry hf
    simp only [Database.listRange, hf]
    split
    · split_ifs <;> simp
    · simp

lemma listIndex_retains {index : Int} : Retains Thrown (Database.listIndex key index now) := by
  apply retains_intro key now
  · intro db db' hf
    simp [Database.listIndex, hf]
  · intro db entry hf
    simp only [Database.listIndex, hf]
    split
    · split_ifs <;> simp
    · simp

lemma listLength_retains : Retains Thrown (Database.listLength key now) := by
  apply retains_intro key now
  · intro db db' hf
    simp [Database.listLength, hf]
  · intro db entry hf
    simp only [Database.listLength, hf]
    split <;> simp

lemma hashSet_retains {fields : List (Bytes × Bytes)} :
    Retains Thrown (Database.hashSet key fields now) := by
  apply retains_intro key now
  · intro db db' hf
    simp [Database.hashSet, findOrCreate, hf, newEntry]
  · intro db entry hf
    simp only [Database.hashSet, findOrCreate, hf]
    split <;> simp

lemma hashGet_retains {field : Bytes} : Retains Thrown (Database.hashGet key field now) := by
  apply retains_intro key now
  · intro db db' hf
    simp [Database.hashGet, hf]
  · intro db entry hf
    simp only [Database.hashGet, hf]
    split
    · split <;> simp
    · simp

lemma hashDelete_retains {fields : List Bytes} :
    Retains Thrown (Database.hashDelete key fields now) := by
  apply retains_intro key now
  · intro db db' hf
    simp [Database.hashDelete, hf]
  · intro db entry hf
    simp only [Database.hashDelete, hf]
    split <;> simp

lemma hashGetAll_retains : Retains Thrown (Database.hashGetAll key now) := by
  apply retains_intro key now
  · intro db db' hf
    simp [Database.hashGetAll, hf]
  · intro db entry hf
    simp only [Database.hashGetAll, hf]
    split <;> simp

lemma hashLength_retains : Retains Thrown (Database.hashLength key now) := by
  apply retains_intro key now
  · intro db db' hf
    simp [Database.hashLength, hf]
  · intro db entry hf
    simp only [Database.hashLength, hf]
    split <;> simp

lemma hashExists_retains {field : Bytes} : Retains Thrown (Database.hashExists key field now) := by
  apply retains_intro key now
  · intro db db' hf
    simp [Database.hashExists, hf]
  · intro db entry hf
    simp only [Database.hashExists, hf]
    split <;> simp

lemma setAdd_retains {members : List Bytes} : Retains Thrown (Database.setAdd key members now) := by
  apply retains_intro key now
  · intro db db' hf
    simp [Database.setAdd, findOrCreate, hf, newEntry]
  · intro db entry hf
    simp only [Database.setAdd, findOrCreate, hf]
    split <;> simp

lemma setRemove_retains {members : List Bytes} :
    Retains Thrown (Database.setRemove key members now) := by
  apply retains_intro key now
  · intro db db' hf
    simp [Database.setRemove, hf]
  · intro db entry hf
    simp only [Database.setRemove, hf]
    split <;> simp

lemma setMembers_retains : Retains Thrown (Database.setMembers key now) := by
  apply retains_intro key now
  · intro db db' hf
    simp [Database.setMembers, hf]
  · intro db entry hf
    simp only [Database.setMembers, hf]
    split <;> simp

lemma setIsMember_retains {member : Bytes} :
    Retains Thrown (Database.setIsMember key member now) := by
  apply retains_intro key now
  · intro db db' hf
    simp [Database.setIsMember, hf]
  · intro db entry hf
    simp only [Database.setIsMember, hf]
    split <;> simp

lemma setCardinality_retains : Retains Thrown (Database.setCardinality key now) := by
  apply retains_intro key now
  · intro db db' hf
    simp [Database.setCardinality, hf]
  · intro db entry hf
    simp only [Database.setCardinality, hf]
    split <;> simp

lemma del_total (db : Database) : ¬ Thrown (Database.del key now db).1 := by
  unfold Database.del
  split <;> simp

lemma expireAtMs_total {unixTimeMs now' : Int} (db : Database) :
    ¬ Thrown (Database.expireAtMs key unixTimeMs now now' db).1 := by
  unfold Database.expireAtMs
  split
  · simp
  · split <;> simp

lemma persist_total (db : Database) : ¬ Thrown (Database.persist key now db).1 := by
  unfold Database.persist
  split
  · simp
  · split <;> simp

lemma ttlMs_total {now' : Int} (db : Database) :
    ¬ Thrown (Database.ttlMs key now now' db).1 := by
  unfold Database.ttlMs
  split
  · simp
  · split <;> simp

lemma ttl_total {now' : Int} (db : Database) : ¬ Thrown (Database.ttl key now now' db).1 := by
  rintro ⟨e, failed⟩
  unfold Database.ttl at failed
  rcases done : Database.ttlMs key now now' db with ⟨e' | remaining, db'⟩
  · exact ttlMs_total db ⟨e', congrArg Prod.fst done⟩
  · rw [bind_of_ok done] at failed
    cases failed

/-- What `get` throws. -/
lemma get_throws {db : Database} {e : DbError} (failed : (Database.get key now db).1 = .error e) :
    e = .wrongType := by
  unfold Database.get at failed
  split at failed
  · cases failed
  · split at failed <;> cases failed
    rfl

end Database

/-! ### Handlers -/

/-- The outcome of a handler is answered with an error. -/
def Refused (outcome : Except Failure Bytes) : Prop :=
  isErrorReply (payloadOf outcome) = true

/-- The handler is never answered with an error. -/
abbrev Accepts {σ : Type} (handler : Handling σ Bytes) : Prop :=
  Ends (fun payload => isErrorReply payload = false)
    (fun failure => isErrorReply failure.payload = false) handler

lemma Accepts.not_refused {σ : Type} {handler : Handling σ Bytes} (h : Accepts handler)
    (session : Session σ) : ¬ Refused (handler session).1 :=
  h.not_bad (fun _ fine => by simpa [Refused, payloadOf] using fine)
    (fun _ fine => by simpa [Refused, payloadOf] using fine) session

lemma Accepts.retains {σ : Type} {handler : Handling σ Bytes} (h : Accepts handler) :
    Retains Refused handler :=
  fun session refused => absurd refused (h.not_refused session)

namespace Handler

variable {α : Type} {arguments : List Bytes} {now : Int} {E : Failure → Prop}

section Steps

variable {σ : Type}

lemma argument_keeps (index : Nat) (session : Session σ) :
    (argument arguments index session).2 = session := by
  unfold argument
  cases arguments[index]? <;> rfl

lemma argumentsFrom_keeps (index : Nat) (session : Session σ) :
    (argumentsFrom arguments index session).2 = session := by
  unfold argumentsFrom
  split <;> rfl

lemma fieldPairs_keeps (pairs : List Bytes) (session : Session σ) :
    (fieldPairs pairs session).2 = session := by
  induction pairs using fieldPairs.induct with
  | case1 => rfl
  | case2 field value rest ih =>
    unfold fieldPairs
    rcases done : fieldPairs rest session with ⟨e | fields, session'⟩
    · rw [done] at ih
      rw [bind_of_error done]
      exact ih
    · rw [done] at ih
      rw [bind_of_ok done]
      exact ih
  | case3 => rfl

/-- A call retains the session if its operation retains the engine. -/
lemma call_retains {act : StateAction DbError σ α} (h : Retains Thrown act) :
    Retains Thrown (call act) := by
  rintro session ⟨e, failed⟩
  have kept := h session.store
  unfold call at failed ⊢
  rcases done : act session.store with ⟨e | a, store⟩
  · rw [done] at kept
    rw [show store = session.store from kept ⟨e, rfl⟩]
  · rw [done] at failed
    cases failed

lemma call_ends_of {act : StateAction DbError σ α}
    (named : ∀ store e, (act store).1 = .error e → E (.thrown e)) :
    Ends (fun _ => True) E (call act) := by
  intro session
  unfold call
  rcases done : act session.store with ⟨e | a, store⟩
  · exact named session.store e (congrArg Prod.fst done)
  · trivial

/-- A call of an operation that never throws. -/
lemma call_total {act : StateAction DbError σ α} (total : ∀ store, ¬ Thrown (act store).1) :
    Ends (fun _ => True) E (call act) :=
  call_ends_of fun store e failed => absurd ⟨e, failed⟩ (total store)

lemma propagate_total {record : List Bytes} :
    Ends (fun _ => True) E (propagate record : Handling σ Unit) :=
  fun _ => trivial

lemma propagateIf_total {changed : Bool} {record : List Bytes} :
    Ends (fun _ => True) E (propagateIf changed record : Handling σ Unit) :=
  .ite (fun _ => propagate_total) fun _ => .pure trivial

end Steps

section Loops

lemma countKeys_total {act : Bytes → DbAction Bool} (total : ∀ key db, ¬ Thrown (act key db).1)
    (keys : List Bytes) : Ends (fun _ => True) E (countKeys act keys) :=
  .foldlM (fun _ key _ => .bind (call_total (total key)) fun _ _ => .pure trivial) 0 trivial keys

/-- `mset` never fails once its arguments come in pairs; a missing argument is not answered. -/
lemma msetLoop_total : ∀ pairs : List Bytes,
    Ends (fun _ => True) (fun failure => isErrorReply failure.payload = false)
      (msetLoop (σ := Database) now pairs)
  | [] => .pure trivial
  | [_] => .throw rfl
  | _ :: _ :: rest => .bind (call_total fun _ => not_thrown) fun _ _ => msetLoop_total rest

end Loops

section Data

lemma query_retains {op : Bytes → DbAction α} {reply : α → Bytes}
    (h : ∀ key, Retains Thrown (op key)) (fine : ∀ a, isErrorReply (reply a) = false) :
    Retains Refused (do
      let key ← argument arguments 1
      let a ← call (op key)
      pure (reply a) : Handling Database Bytes) :=
  .bind_keeps (argument_keeps 1) fun key => .bind (call_retains (h key)) fun a =>
    Accepts.not_refused (.pure (fine a))

/-- The same with a second argument. -/
lemma query2_retains {op : Bytes → Bytes → DbAction α} {reply : α → Bytes}
    (h : ∀ key second, Retains Thrown (op key second)) (fine : ∀ a, isErrorReply (reply a) = false) :
    Retains Refused (do
      let key ← argument arguments 1
      let second ← argument arguments 2
      let a ← call (op key second)
      pure (reply a) : Handling Database Bytes) :=
  .bind_keeps (argument_keeps 1) fun key => .bind_keeps (argument_keeps 2) fun second =>
    .bind (call_retains (h key second)) fun a => Accepts.not_refused (.pure (fine a))

lemma del_accepts : Accepts (del (σ := Database) arguments now) :=
  .bind (countKeys_total (fun _ => del_total) _) fun _ _ => .bind propagateIf_total fun _ _ =>
    .pure rfl

lemma exists_accepts : Accepts (existsHandler (σ := Database) arguments now) :=
  .bind (countKeys_total (fun _ _ => not_thrown) _) fun _ _ => .pure rfl

lemma flushall_accepts : Accepts (flushall (σ := Database)) :=
  .bind (call_total fun _ => not_thrown) fun _ _ => .bind propagate_total fun _ _ => .pure rfl

/-- `mget` answers a key of another type with nil. -/
lemma mget_accepts : Accepts (mget (σ := Database) arguments now) := by
  refine .bind (P := fun _ => True) (.foldlM (fun values key _ => ?_) [] trivial _) fun _ _ => .pure rfl
  refine .bind (P := fun _ => True) ?_ fun _ _ => .pure trivial
  have thrown : Ends (fun _ => True) (· = Failure.thrown .wrongType)
      (call (Storage.get (σ := Database) key now)) :=
    call_ends_of fun store e failed => congrArg Failure.thrown (get_throws failed)
  refine .tryCatch (.bind thrown fun _ _ => .pure trivial) ?_
  rintro _ rfl
  exact .pure trivial

lemma expireGeneric_retains {unitMs : Int} {absolute : Bool} :
    Retains Refused (expireGeneric (σ := Database) arguments unitMs absolute now) := by
  refine .bind_keeps (argument_keeps 2) fun text => ?_
  split
  · exact .pure _
  · split
    · exact .bind_keeps (argument_keeps 0) fun name => .pure _
    · -- from the first change on, nothing can fail
      refine .bind_keeps (argument_keeps 1) fun key => Accepts.retains ?_
      refine .bind (call_total fun _ => expireAtMs_total _) fun found _ => .ite (fun _ => ?_) fun _ =>
        .pure rfl
      refine .bind (call_total fun _ => not_thrown) fun present _ => .bind (P := fun _ => True) ?_
        fun _ _ => .pure rfl
      exact .ite (fun _ => propagate_total) fun _ => propagate_total

lemma persist_retains : Retains Refused (persist (σ := Database) arguments now) := by
  refine .bind_keeps (argument_keeps 1) fun key => Accepts.retains ?_
  refine .bind (call_total persist_total) fun persisted _ => .ite (fun _ => ?_) fun _ => .pure rfl
  exact .bind propagate_total fun _ _ => .pure rfl

lemma set_retains : Retains Refused (set (σ := Database) arguments now) := by
  refine .bind_keeps (argument_keeps 1) fun key => .bind_keeps (argument_keeps 2) fun value => ?_
  split
  · exact .pure _
  · refine .ite (.pure _) (Accepts.retains ?_)
    refine .bind (call_total fun _ => not_thrown) fun present _ => .ite (fun _ => .pure rfl) fun _ => ?_
    refine .bind (call_total fun _ => not_thrown) fun _ _ => .bind propagate_total fun _ _ =>
      .bind (P := fun _ => True) ?_ fun _ _ => .pure rfl
    unfold setExpiry
    split
    · exact .pure trivial
    · exact .bind (call_total fun _ => expireAtMs_total _) fun _ _ => propagate_total

lemma mset_retains : Retains Refused (mset (σ := Database) arguments now) := by
  refine .ite (.pure _) (Accepts.retains ?_)
  exact .bind (msetLoop_total _) fun _ _ => .bind propagate_total fun _ _ => .pure rfl

lemma increment_retains {delta : Int} (range : int64Min ≤ delta ∧ delta ≤ int64Max) :
    Retains Refused (increment (σ := Database) arguments delta now) :=
  .bind_keeps (argument_keeps 1) fun _ => .bind (call_retains (incrementBy_retains range)) fun _ =>
    Accepts.not_refused (.bind propagate_total fun _ _ => .pure rfl)

lemma incrby_retains : Retains Refused (incrby (σ := Database) arguments now) := by
  refine .bind_keeps (argument_keeps 2) fun text => ?_
  split
  · exact .pure _
  · rename_i delta parsed
    exact increment_retains (Decimal.parseInt_range parsed)

lemma decrby_retains : Retains Refused (decrby (σ := Database) arguments now) := by
  refine .bind_keeps (argument_keeps 2) fun text => ?_
  split
  · exact .pure _
  · rename_i delta parsed
    have range := Decimal.parseInt_range parsed
    by_cases least : delta = int64Min
    · rw [if_pos least]
      exact .pure _
    · rw [if_neg least]
      refine increment_retains ?_
      rw [int64Min, int64Max] at *
      omega

lemma append_retains : Retains Refused (append (σ := Database) arguments now) :=
  .bind_keeps (argument_keeps 1) fun _ => .bind_keeps (argument_keeps 2) fun _ =>
    .bind (call_retains Database.append_retains) fun _ =>
      Accepts.not_refused (.bind propagate_total fun _ _ => .pure rfl)

lemma push_retains {side : ListSide} : Retains Refused (push (σ := Database) arguments side now) :=
  .bind_keeps (argument_keeps 1) fun _ => .bind_keeps (argumentsFrom_keeps 2) fun _ =>
    .bind (call_retains listPush_retains) fun _ =>
      Accepts.not_refused (.bind propagate_total fun _ _ => .pure rfl)

lemma pop_retains {side : ListSide} : Retains Refused (pop (σ := Database) arguments side now) :=
  .bind_keeps (argument_keeps 1) fun _ => .bind (call_retains listPop_retains) fun value =>
    Accepts.not_refused (.bind propagateIf_total fun _ _ => .pure (isErrorReply_nullable value))

lemma lrange_retains : Retains Refused (lrange (σ := Database) arguments now) := by
  refine .bind_keeps (argument_keeps 2) fun startText => ?_
  split
  · exact .pure _
  · refine .bind_keeps (argument_keeps 3) fun stopText => ?_
    split
    · exact .pure _
    · exact .bind_keeps (argument_keeps 1) fun _ => .bind (call_retains listRange_retains) fun _ =>
        Accepts.not_refused (.pure rfl)

lemma lindex_retains : Retains Refused (lindex (σ := Database) arguments now) := by
  refine .bind_keeps (argument_keeps 2) fun text => ?_
  split
  · exact .pure _
  · exact .bind_keeps (argument_keeps 1) fun _ => .bind (call_retains listIndex_retains) fun value =>
      Accepts.not_refused (.pure (isErrorReply_nullable value))

lemma hset_retains : Retains Refused (hset (σ := Database) arguments now) := by
  refine .ite (.pure _) (.bind_keeps (fieldPairs_keeps _) fun fields => ?_)
  exact .bind_keeps (argument_keeps 1) fun _ => .bind (call_retains hashSet_retains) fun _ =>
    Accepts.not_refused (.bind propagate_total fun _ _ => .pure rfl)

lemma changeElements_retains {act : Bytes → List Bytes → DbAction Nat}
    (h : ∀ key elements, Retains Thrown (act key elements)) :
    Retains Refused (changeElements act arguments) :=
  .bind_keeps (argument_keeps 1) fun key => .bind_keeps (argumentsFrom_keeps 2) fun elements =>
    .bind (call_retains (h key elements)) fun _ =>
      Accepts.not_refused (.bind propagateIf_total fun _ _ => .pure rfl)

end Data

end Handler

open Handler in
/-- A data handler that is answered with an error has changed nothing and propagated nothing. -/
lemma DataHandler.run_retains (handler : DataHandler) (arguments : List Bytes) (now : Int) :
    Retains Refused (handler.run (σ := Database) arguments now) := by
  cases handler with
  | ping =>
    exact .ite (.pure _) (.ite (.bind_keeps (argument_keeps 1) fun _ => .pure _) (.pure _))
  | echo => exact .bind_keeps (argument_keeps 1) fun _ => .pure _
  | select => exact .bind_keeps (argument_keeps 1) fun _ => .ite (.pure _) (.pure _)
  | commandInfo => exact .pure _
  | flushall => exact flushall_accepts.retains
  | del => exact del_accepts.retains
  | «exists» => exact exists_accepts.retains
  | type => exact query_retains (fun _ => fun _ failed => absurd failed not_thrown) fun _ => rfl
  | keys => exact query_retains (fun _ => fun _ failed => absurd failed not_thrown) fun _ => rfl
  | expire | pexpire | expireat | pexpireat => exact expireGeneric_retains
  | ttl => exact query_retains (fun _ => fun db failed => absurd failed (ttl_total db)) fun _ => rfl
  | pttl => exact query_retains (fun _ => fun db failed => absurd failed (ttlMs_total db)) fun _ => rfl
  | persist => exact persist_retains
  | set => exact set_retains
  | get => exact query_retains (fun _ => get_retains) isErrorReply_nullable
  | mset => exact mset_retains
  | mget => exact mget_accepts.retains
  | incr | decr => exact increment_retains (by decide)
  | incrby => exact incrby_retains
  | decrby => exact decrby_retains
  | append => exact Handler.append_retains
  | strlen => exact query_retains (fun _ => stringLength_retains) fun _ => rfl
  | lpush | rpush => exact push_retains
  | lpop | rpop => exact pop_retains
  | lrange => exact lrange_retains
  | llen => exact query_retains (fun _ => listLength_retains) fun _ => rfl
  | lindex => exact lindex_retains
  | hset => exact hset_retains
  | hget => exact query2_retains (fun _ _ => hashGet_retains) isErrorReply_nullable
  | hdel => exact changeElements_retains fun _ _ => hashDelete_retains
  | hgetall | hkeys | hvals => exact query_retains (fun _ => hashGetAll_retains) fun _ => rfl
  | hlen => exact query_retains (fun _ => hashLength_retains) fun _ => rfl
  | hexists => exact query2_retains (fun _ _ => hashExists_retains) fun _ => rfl
  | sadd => exact changeElements_retains fun _ _ => setAdd_retains
  | srem => exact changeElements_retains fun _ _ => setRemove_retains
  | smembers => exact query_retains (fun _ => setMembers_retains) fun _ => rfl
  | sismember => exact query2_retains (fun _ _ => setIsMember_retains) fun _ => rfl
  | scard => exact query_retains (fun _ => setCardinality_retains) fun _ => rfl

section Server

variable {stats : ServerStats} {aof : AofStatus} {arguments : List Bytes} {now : Int}

open Handler

lemma configSet_retains {parameter value : Bytes} :
    Retains Refused (configSet parameter value) := by
  refine .ite ?_ (.ite ?_ (.pure _))
  · split
    · exact .pure _
    · refine Accepts.retains (.bind (call_total fun _ => not_thrown) fun _ _ => ?_)
      refine .bind (P := fun _ => True) (fun session => ?_) fun evicted _ => ?_
      · rw [call_evictIfNeeded]
        trivial
      · refine .bind (P := fun _ => True) (fun session => ?_) fun _ _ => .pure rfl
        rw [propagateEvicted_apply]
        trivial
  · split
    · exact .pure _
    · exact Accepts.retains (.bind (call_total fun _ => not_thrown) fun _ _ => .pure rfl)

/-- The other handlers that are answered with an error have changed nothing either. -/
lemma ServerHandler.run_retains (handler : ServerHandler) :
    Retains Refused (handler.run stats aof arguments now) := by
  cases handler with
  | dbsize | info => exact fun _ _ => rfl
  | memory => exact fun session _ => memory_keeps session
  | config =>
    refine .bind_keeps (argument_keeps 1) fun subcommand => .ite ?_ (.ite ?_ (.pure _))
    · exact .bind_keeps (argument_keeps 2) fun pattern => fun _ _ => rfl
    · exact .bind_keeps (argument_keeps 2) fun parameter => .bind_keeps (argument_keeps 3) fun value =>
        configSet_retains

lemma CommandSpec.run_retains (spec : CommandSpec) :
    Retains Refused (spec.run stats aof arguments now) := by
  unfold CommandSpec.run
  split
  · exact DataHandler.run_retains _ arguments now
  · exact ServerHandler.run_retains _

/-- So do the tests before the handler when no eviction is due. -/
lemma CommandSpec.execute_retains (spec : CommandSpec) (session : Session Database)
    (idle : ¬ session.store.EvictionDue)
    (refused : Refused (spec.execute stats aof arguments now session).1) :
    (spec.execute stats aof arguments now session).2 = session := by
  have evict : evictBefore session = (.ok session.store.evictsEnough, session) := by
    rw [evictBefore_apply, victims_of_idle idle]
    simp [evictAll]
  revert refused
  unfold CommandSpec.execute
  split
  · split
    · exact fun _ => rfl
    · have rest : Retains Refused (if ¬ session.store.evictsEnough ∧ spec.denyOom then
          pure (respErrorWithCode (ascii "OOM")
            (ascii "command not allowed when used memory > 'maxmemory'."))
          else spec.run stats aof arguments now) := .ite (.pure _) spec.run_retains
      rw [bind_of_ok evict]
      exact rest session
  · exact spec.run_retains session

end Server

/-- A failing command changes nothing: when no eviction is due, a command that is answered with an
error leaves the whole database as it was, and appends nothing to the log. Not even an expired key
that it names is removed. -/
theorem execute_failure {processor : Processor} (idle : ¬ processor.database.EvictionDue)
    (aof : AofStatus) (now : Int) (arguments : List Bytes)
    (failed : isErrorReply (processor.execute aof now arguments).1.payload = true) :
    (processor.execute aof now arguments).2.1 = [] ∧
    (processor.execute aof now arguments).2.2.database = processor.database := by
  by_cases empty : arguments = []
  · subst empty
    exact ⟨rfl, rfl⟩
  · cases found : resolve arguments with
    | quit | unknown | wrongArity =>
      unfold Processor.execute
      rw [if_neg empty, found]
      exact ⟨rfl, rfl⟩
    | dispatch spec =>
      rw [Processor.execute_of_dispatch found] at failed ⊢
      have kept := spec.execute_retains ⟨processor.database, aof.attached, []⟩ idle failed
      exact ⟨congrArg Session.records kept, congrArg Session.store kept⟩

/-- An increment of a string that is no integer. -/
theorem execute_failure_incr :
    let processor := ((emptyProcessor 0 .noEviction).execute .healthy 0
      [ascii "SET", ascii "k", ascii "x"]).2.2
    (processor.execute .healthy 1 [ascii "INCR", ascii "k"]).2.1 = [] ∧
    (processor.execute .healthy 1 [ascii "INCR", ascii "k"]).2.2.database = processor.database :=
  execute_failure (by decide +kernel) .healthy 1 _ (by decide +kernel)

end FlashKV
