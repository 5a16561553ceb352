import FlashKV.Command.ReplyShape
import FlashKV.Command.Unlimited

/-!
# Reading arguments

The handlers that loop over the argument vector, with the positions that the source reads: every
`arguments[i]` is an `argument` and fails when the position is past the end. They are the handlers on
lists, and no command that is dispatched reads a missing argument.
-/

namespace FlashKV

open StateAction

namespace Handler

variable {σ : Type}

variable {arguments : List Bytes} {now : Int}

section Loops

/-- The loop of `del` and `exists` from position `i`. -/
def countKeysFrom (act : Bytes → StateAction DbError σ Bool) (arguments : List Bytes) (i : Nat)
    (count : Int) : Handling σ Int :=
  if i < arguments.length then do
    let key ← argument arguments i
    let hit ← call (act key)
    countKeysFrom act arguments (i + 1) (if hit then count + 1 else count)
  else pure count
termination_by arguments.length - i

/-- The option loop of `set` from position `i`. -/
def setOptionsFrom (now : Int) (arguments : List Bytes) (i : Nat) (options : SetOptions) :
    Handling σ (Except Bytes SetOptions) :=
  if i < arguments.length then do
    let text ← argument arguments i
    let option := uppercase text
    if option = ascii "NX" then
      setOptionsFrom now arguments (i + 1) { options with onlyIfMissing := true }
    else if option = ascii "XX" then
      setOptionsFrom now arguments (i + 1) { options with onlyIfPresent := true }
    else if (option = ascii "EX" ∨ option = ascii "PX") ∧ i + 1 < arguments.length ∧
        options.deadline = none then do
      let amountText ← argument arguments (i + 1)
      (parseStrictInteger amountText).elim (pure (.error notAnInteger)) fun amount =>
        (setDeadline amount (if option = ascii "EX" then 1000 else 1) now).elim
          (pure (.error (respError (ascii "invalid expire time in 'set' command")))) fun deadline =>
            setOptionsFrom now arguments (i + 2) { options with deadline := some deadline }
    else pure (.error syntaxError)
  else pure (.ok options)
termination_by arguments.length - i

/-- The pairwise loop of `hset` from position `i`. -/
def fieldPairsFrom (arguments : List Bytes) (i : Nat) (fields : List (Bytes × Bytes)) :
    Handling σ (List (Bytes × Bytes)) :=
  if i < arguments.length then do
    let field ← argument arguments i
    let value ← argument arguments (i + 1)
    fieldPairsFrom arguments (i + 2) (fields ++ [(field, value)])
  else pure fields
termination_by arguments.length - i

/-- The rest of the vector from a position in it. -/
lemma argument_at {i : Nat} (h : i < arguments.length) :
    (argument arguments i : Handling σ Bytes) = pure arguments[i] ∧
      arguments.drop i = arguments[i] :: arguments.drop (i + 1) :=
  ⟨argument_some (List.getElem?_eq_getElem h), List.drop_eq_getElem_cons h⟩

lemma countKeysFrom_eq (act : Bytes → StateAction DbError σ Bool) (i : Nat) (count : Int) :
    countKeysFrom act arguments i count = (arguments.drop i).foldlM
      (fun count key => do
        let hit ← call (act key)
        pure (if hit then count + 1 else count)) count := by
  fun_induction countKeysFrom act arguments i count with
  | case1 i count h ih =>
    obtain ⟨read, rest⟩ := argument_at (σ := σ) h
    simp only [dite_eq_ite] at ih
    rw [read, rest, List.foldlM_cons]
    simp only [pure_bind, bind_assoc, ih]
  | case2 i count h =>
    rw [List.drop_eq_nil_of_le (Nat.le_of_not_lt h)]
    rfl

/-- The lookahead of the option loop stays in the vector. -/
lemma setOptionsFrom_eq (i : Nat) (options : SetOptions) :
    setOptionsFrom (σ := σ) now arguments i options =
      pure (parseSetOptions now (arguments.drop i) options) := by
  fun_induction setOptionsFrom (σ := σ) now arguments i options with
  | case1 i options h missing present time =>
    obtain ⟨read, rest⟩ := argument_at (σ := σ) h
    rw [read, rest, pure_bind, parseSetOptions.eq_def]
    dsimp only
    by_cases nx : uppercase arguments[i] = ascii "NX"
    · rw [if_pos nx, if_pos nx, missing]
    rw [if_neg nx, if_neg nx]
    by_cases xx : uppercase arguments[i] = ascii "XX"
    · rw [if_pos xx, if_pos xx, present]
    rw [if_neg xx, if_neg xx]
    by_cases timed : uppercase arguments[i] = ascii "EX" ∨ uppercase arguments[i] = ascii "PX"
    · rw [if_pos timed]
      by_cases more : i + 1 < arguments.length
      · obtain ⟨read', rest'⟩ := argument_at (σ := σ) more
        rw [read', rest']
        cases unset : options.deadline with
        | some deadline => rw [if_neg (by simp)]
        | none =>
          rw [if_pos ⟨timed, more, rfl⟩, pure_bind]
          dsimp only
          cases parseStrictInteger arguments[i + 1] with
          | none => rfl
          | some amount =>
            dsimp only [Option.elim_some]
            cases setDeadline amount (if uppercase arguments[i] = ascii "EX" then 1000 else 1) now with
            | none => rfl
            | some deadline => exact time _ ⟨timed, more, unset⟩ deadline
      · rw [if_neg fun h => more h.2.1, List.drop_eq_nil_of_le (Nat.le_of_not_lt more)]
    · rw [if_neg timed, if_neg fun h => timed h.1]
  | case2 i options h =>
    rw [List.drop_eq_nil_of_le (Nat.le_of_not_lt h)]
    rfl

lemma fieldPairsFrom_eq (i : Nat) (fields : List (Bytes × Bytes))
    (even : (arguments.length - i) % 2 = 0) :
    fieldPairsFrom (σ := σ) arguments i fields =
      fieldPairs (arguments.drop i) >>= fun pairs => pure (fields ++ pairs) := by
  fun_induction fieldPairsFrom (σ := σ) arguments i fields with
  | case1 i fields h ih =>
    obtain ⟨read, rest⟩ := argument_at (σ := σ) h
    obtain ⟨read', rest'⟩ := argument_at (σ := σ) (show i + 1 < arguments.length by omega)
    rw [read, read', rest, rest']
    simp only [pure_bind, fieldPairs, ih _ _ (by omega), bind_assoc, List.append_assoc,
      List.singleton_append]
  | case2 i fields h =>
    rw [List.drop_eq_nil_of_le (Nat.le_of_not_lt h)]
    simp [fieldPairs]

end Loops

section Handlers

variable [Storage σ]

def delAt (arguments : List Bytes) (now : Int) : Handling σ Bytes := do
  let deleted ← countKeysFrom (fun key => Storage.del key now) arguments 1 0
  propagateIf (deleted > 0) arguments
  pure (respInteger deleted)

def existsAt (arguments : List Bytes) (now : Int) : Handling σ Bytes := do
  let found ← countKeysFrom (fun key => Storage.existsKey key now) arguments 1 0
  pure (respInteger found)

def setAt (arguments : List Bytes) (now : Int) : Handling σ Bytes := do
  let key ← argument arguments 1
  let value ← argument arguments 2
  match ← setOptionsFrom now arguments 3 {} with
  | .ok options =>
    if options.onlyIfMissing ∧ options.onlyIfPresent then pure syntaxError
    else do
      let present ← call (Storage.existsKey key now)
      if (options.onlyIfMissing ∧ present) ∨ (options.onlyIfPresent ∧ ¬ present) then pure respNull
      else do
        call (Storage.set key value now)
        propagate [ascii "SET", key, value]
        setExpiry key options.deadline now
        pure (respSimpleString (ascii "OK"))
  | .error payload => pure payload

/-- The pairwise loop of `mset` from position `i`. -/
def msetFrom (now : Int) (arguments : List Bytes) (i : Nat) : Handling σ Unit :=
  if i < arguments.length then do
    let key ← argument arguments i
    let value ← argument arguments (i + 1)
    call (Storage.set key value now)
    msetFrom now arguments (i + 2)
  else pure ()
termination_by arguments.length - i

def msetAt (arguments : List Bytes) (now : Int) : Handling σ Bytes :=
  if arguments.length % 2 = 0 then
    pure (respError (ascii "wrong number of arguments for 'mset' command"))
  else do
    msetFrom now arguments 1
    propagate arguments
    pure (respSimpleString (ascii "OK"))

/-- What `mget` replies for one key: nil for keys holding other types. -/
def mgetValue (key : Bytes) (now : Int) : Handling σ Bytes :=
  StateAction.tryCatch
    (do
      let value ← call (Storage.get key now)
      pure (nullableBulk value))
    fun failure => if failure = .thrown .wrongType then pure respNull else StateAction.throw failure

/-- The loop of `mget` from position `i`. -/
def mgetFrom (now : Int) (arguments : List Bytes) (i : Nat) (values : List Bytes) :
    Handling σ (List Bytes) :=
  if i < arguments.length then do
    let key ← argument arguments i
    let value ← mgetValue key now
    mgetFrom now arguments (i + 1) (values ++ [value])
  else pure values
termination_by arguments.length - i

def mgetAt (arguments : List Bytes) (now : Int) : Handling σ Bytes := do
  let values ← mgetFrom now arguments 1 []
  pure (respEncodedArray values)

def hsetAt (arguments : List Bytes) (now : Int) : Handling σ Bytes :=
  if arguments.length % 2 ≠ 0 then
    pure (respError (ascii "wrong number of arguments for 'hset' command"))
  else do
    let fields ← fieldPairsFrom arguments 2 []
    let key ← argument arguments 1
    let added ← call (Storage.hashSet key fields now)
    propagate arguments
    pure (respInteger added)

lemma delAt_eq : (delAt arguments now : Handling σ Bytes) = del arguments now := by
  rw [delAt, countKeysFrom_eq]
  rfl

lemma existsAt_eq : (existsAt arguments now : Handling σ Bytes) = existsHandler arguments now := by
  rw [existsAt, countKeysFrom_eq]
  rfl

lemma mgetFrom_eq (i : Nat) (values : List Bytes) :
    mgetFrom (σ := σ) now arguments i values = (arguments.drop i).foldlM
      (fun values key => do
        let value ← mgetValue key now
        pure (values ++ [value])) values := by
  fun_induction mgetFrom (σ := σ) now arguments i values with
  | case1 i values h ih =>
    obtain ⟨read, rest⟩ := argument_at (σ := σ) h
    rw [read, rest, List.foldlM_cons]
    simp only [pure_bind, bind_assoc, ih]
  | case2 i values h =>
    rw [List.drop_eq_nil_of_le (Nat.le_of_not_lt h)]
    rfl

lemma mgetAt_eq : (mgetAt arguments now : Handling σ Bytes) = mget arguments now := by
  rw [mgetAt, mgetFrom_eq, mget]
  refine congrArg (fun step => List.foldlM step [] (arguments.drop 1) >>= _) ?_
  funext values key
  refine congrArg (fun handle => StateAction.tryCatch _ handle >>= _) ?_
  funext failure
  cases failure with
  | thrown error => cases error <;> rfl
  | missingArgument index => rfl

/-- The pairwise loops read past the end only when the number of positions left is odd. -/
lemma msetFrom_eq (i : Nat) (even : (arguments.length - i) % 2 = 0) :
    msetFrom (σ := σ) now arguments i = msetLoop now (arguments.drop i) := by
  fun_induction msetFrom (σ := σ) now arguments i with
  | case1 i h ih =>
    obtain ⟨read, rest⟩ := argument_at (σ := σ) h
    obtain ⟨read', rest'⟩ := argument_at (σ := σ) (show i + 1 < arguments.length by omega)
    rw [read, read', rest, rest']
    simp only [pure_bind, msetLoop, ih (by omega)]
  | case2 i h =>
    rw [List.drop_eq_nil_of_le (Nat.le_of_not_lt h)]
    rfl

lemma msetAt_eq : (msetAt arguments now : Handling σ Bytes) = mset arguments now := by
  unfold msetAt mset
  split
  · rfl
  · rw [msetFrom_eq 1 (by omega)]

lemma hsetAt_eq : (hsetAt arguments now : Handling σ Bytes) = hset arguments now := by
  unfold hsetAt hset
  split
  · rfl
  · rw [fieldPairsFrom_eq 2 [] (by omega)]
    simp

lemma setAt_eq : (setAt arguments now : Handling σ Bytes) = set arguments now := by
  unfold setAt set
  simp only [setOptionsFrom_eq, pure_bind]
  refine bind_congr fun key => bind_congr fun value => ?_
  cases parseSetOptions now (arguments.drop 3) {} with
  | ok options => rfl
  | error payload => rfl

end Handlers

section Server

variable {stats : ServerStats} {aof : AofStatus}

/-- `info` uses only the argument at position 1, and reads it only if it is there. -/
def infoAt (stats : ServerStats) (aof : AofStatus) (arguments : List Bytes) (now : Int) :
    Handling Database Bytes :=
  if 1 < arguments.length then do
    let requested ← argument arguments 1
    info stats aof [[], requested] now
  else info stats aof [] now

lemma infoAt_eq : infoAt stats aof arguments now = info stats aof arguments now := by
  cases arguments with
  | nil => rfl
  | cons name rest => cases rest <;> rfl

/-- `config` reads no missing argument, whatever it echoes. -/
lemma config_ends (enough : 2 ≤ arguments.length) :
    StateAction.Ends (fun _ => True) Failure.Defined (config stats aof arguments) := by
  refine .bind (argument_ends (by omega)) fun subcommand _ => ?_
  refine .ite (fun get => ?_) fun _ => .ite (fun set => ?_) fun _ => .pure trivial
  · exact .bind (argument_ends (by omega)) fun pattern _ => fun _ => trivial
  · refine .bind (argument_ends (by omega)) fun parameter _ => ?_
    refine .bind (argument_ends (by omega)) fun value _ => .ite (fun _ => ?_) fun _ =>
      .ite (fun _ => ?_) fun _ => .pure trivial
    · split
      · exact .pure trivial
      · exact .bind call_ends fun _ _ => .bind call_ends fun evicted _ =>
          .bind (propagateEvicted_ends evicted.2) fun _ _ => .pure trivial
    · split
      · exact .pure trivial
      · exact .bind call_ends fun _ _ => .pure trivial

end Server

end Handler

open Handler in
/-- Call a data handler, with the positions that it reads. -/
def DataHandler.runAt {σ : Type} [Storage σ] (handler : DataHandler) (arguments : List Bytes)
    (now : Int) : Handling σ Bytes :=
  match handler with
  | .del => delAt arguments now
  | .exists => existsAt arguments now
  | .set => setAt arguments now
  | .mset => msetAt arguments now
  | .mget => mgetAt arguments now
  | .hset => hsetAt arguments now
  | handler => handler.run arguments now

open Handler in
lemma DataHandler.runAt_eq {σ : Type} [Storage σ] (handler : DataHandler) (arguments : List Bytes)
    (now : Int) : (handler.runAt arguments now : Handling σ Bytes) = handler.run arguments now := by
  cases handler with
  | del => exact delAt_eq
  | «exists» => exact existsAt_eq
  | set => exact setAt_eq
  | mset => exact msetAt_eq
  | mget => exact mgetAt_eq
  | hset => exact hsetAt_eq
  | _ => rfl

section Dispatch

variable {arguments : List Bytes} {spec : CommandSpec}

/-- The handler of a command table entry, with the positions that it reads. -/
def CommandSpec.runAt (spec : CommandSpec) (stats : ServerStats) (aof : AofStatus)
    (arguments : List Bytes) (now : Int) : Handling Database Bytes :=
  match spec.handler with
  | .data handler => handler.runAt arguments now
  | .server .info => Handler.infoAt stats aof arguments now
  | .server handler => handler.run stats aof arguments now

lemma CommandSpec.runAt_eq (spec : CommandSpec) (stats : ServerStats) (aof : AofStatus)
    (arguments : List Bytes) (now : Int) :
    spec.runAt stats aof arguments now = spec.run stats aof arguments now := by
  unfold CommandSpec.runAt CommandSpec.run
  cases spec.handler with
  | data handler => exact handler.runAt_eq arguments now
  | server handler =>
    cases handler with
    | info => exact Handler.infoAt_eq
    | _ => rfl

/-- A dispatched handler returns or throws an exception of the database. -/
lemma CommandSpec.run_ends (found : resolve arguments = .dispatch spec) (stats : ServerStats)
    (aof : AofStatus) (now : Int) :
    StateAction.Ends (fun _ => True) Failure.Defined (spec.run stats aof arguments now) := by
  obtain ⟨enough, line⟩ := enough_of_dispatch found
  unfold CommandSpec.run
  cases name : spec.handler with
  | data handler =>
    rw [name] at enough
    exact (handler.run_answers enough line).mono fun _ _ => trivial
  | server handler =>
    rw [name] at enough
    cases handler with
    | dbsize | info => exact fun _ => trivial
    | config => exact Handler.config_ends enough
    | memory => exact (Handler.memory_answers enough).mono fun _ _ => trivial

/-- No handler reads a missing argument: when a command is dispatched, every position that its handler
reads, in any state, is in the argument vector. The handler with these positions is the handler. -/
theorem dispatched_reads (found : resolve arguments = .dispatch spec) (stats : ServerStats)
    (aof : AofStatus) (now : Int) :
    (∀ session index, (spec.runAt stats aof arguments now session).1 ≠
      .error (.missingArgument index)) ∧
    spec.runAt stats aof arguments now = spec.run stats aof arguments now := by
  refine ⟨fun session index missing => ?_, spec.runAt_eq stats aof arguments now⟩
  have ends := spec.run_ends found stats aof now session
  rw [← spec.runAt_eq, missing] at ends
  obtain ⟨error, e⟩ := ends
  cases e

/-- Two pairs, the second argument of the last being the last of the vector. -/
theorem dispatched_reads_pairs :
    (∀ session index, ((⟨.data .mset, -3, true, true⟩ : CommandSpec).runAt {} .detached
      [ascii "mset", [97], [49], [98], [50]] 0 session).1 ≠ .error (.missingArgument index)) ∧
    (⟨.data .mset, -3, true, true⟩ : CommandSpec).runAt {} .detached
        [ascii "mset", [97], [49], [98], [50]] 0 =
      (⟨.data .mset, -3, true, true⟩ : CommandSpec).run {} .detached
        [ascii "mset", [97], [49], [98], [50]] 0 :=
  dispatched_reads (by decide) {} .detached 0

end Dispatch

end FlashKV
