import FlashKV.Command.ReplyShape
import FlashKV.Command.Unlimited
import FlashKV.Reference.Refinement

/-!
# What the records of a command reproduce

A data handler runs at time `t` on a typed map and propagates records; the records are replayed at a
later time `t'`. `Replays` says that they lead any map that shows the same live entries at `t'` as
the handler's map did, to one that shows the same as the handler's map after the command.

A key that is alive at `t` but no longer at `t'` is what can go wrong: the command worked on it,
while the replay does not find it. `DataHandler.Safe` names the commands that then go different
ways.
-/

namespace FlashKV

open StateAction

section Rewritten

variable {key value : Bytes}

/-- The records that a handler writes instead of its arguments are commands of the table. -/
lemma resolve_del : resolve [ascii "DEL", key] = .dispatch ⟨.data .del, -2, true, false⟩ :=
  resolve_of_name (by decide) (by decide) (by decide) (by rw [arityFits_short (by simp)]; rfl)

lemma resolve_set : resolve [ascii "SET", key, value] = .dispatch ⟨.data .set, -3, true, true⟩ :=
  resolve_of_name (by decide) (by decide) (by decide) (by rw [arityFits_short (by simp)]; rfl)

lemma resolve_pexpireat :
    resolve [ascii "PEXPIREAT", key, value] = .dispatch ⟨.data .pexpireat, 3, true, false⟩ :=
  resolve_of_name (by decide) (by decide) (by decide) (by rw [arityFits_short (by simp)]; rfl)

lemma resolve_flushall : resolve [ascii "FLUSHALL"] = .dispatch ⟨.data .flushall, -1, true, false⟩ :=
  resolve_of_name (by decide) (by decide) (by decide) (by rw [arityFits_short (by simp)]; rfl)

end Rewritten

/-! ### Replaying on a typed map -/

/-- The map takes a record at time `t`: it is a data command, its reply is no error, and it leads
from `m` to `m'`. -/
def Accepted (t : Int) (record : List Bytes) (m m' : TypedMap .native) : Prop :=
  ∃ spec handler, resolve record = .dispatch spec ∧ spec.handler = .data handler ∧
    isErrorReply (payloadOf (handler.run record t ⟨m, false, []⟩).1) = false ∧
    (handler.run record t ⟨m, false, []⟩).2.store = m'

/-- Any map that shows at time `t` what `m` shows takes the record, and then shows what `m'` shows. -/
def RecordReplays (t : Int) (record : List Bytes) (m m' : TypedMap .native) : Prop :=
  ∀ copy : TypedMap .native, copy.purge t = m.purge t →
    ∃ copy', Accepted t record copy copy' ∧ copy'.purge t = m'.purge t

/-- The same for a sequence of records. -/
inductive Replays (t : Int) : List (List Bytes) → TypedMap .native → TypedMap .native → Prop where
  | nil {m m'} :
    m.purge t = m'.purge t →
    Replays t [] m m'
  | cons {record records m m₁ m'} :
    RecordReplays t record m m₁ →
    Replays t records m₁ m' →
    Replays t (record :: records) m m'

lemma Replays.one {t : Int} {record : List Bytes} {m m' : TypedMap .native}
    (h : RecordReplays t record m m') : Replays t [record] m m' :=
  .cons h (.nil rfl)

lemma Replays.append {t : Int} {first second : List (List Bytes)} {m m₁ m' : TypedMap .native}
    (h : Replays t first m m₁) (h' : Replays t second m₁ m') : Replays t (first ++ second) m m' := by
  induction h with
  | nil same =>
    cases h' with
    | nil same' => exact .nil (same.trans same')
    | cons replays rest => exact .cons (fun copy e => replays copy (e.trans same)) rest
  | cons replays _ ih => exact .cons replays (ih h')

/-! ### Operations on one key -/

namespace SlotOp

variable {α β : Type}

/-- What an operation on a slot at the time of the command has to do with the same operation on what
is left of the slot at time `t`. `logged` says for which results the command is recorded. -/
def Replayable (op : SlotOp α) (logged : α → Bool) (t : Int) (slot : Option Slot) : Prop :=
  match (op slot).1 with
  | .error _ => (op slot).2.filter (·.liveAt t) = slot.filter (·.liveAt t)
  | .ok a =>
    if logged a then
      (∃ a', (op (slot.filter (·.liveAt t))).1 = .ok a') ∧
        (op (slot.filter (·.liveAt t))).2.filter (·.liveAt t) = (op slot).2.filter (·.liveAt t)
    else (op slot).2.filter (·.liveAt t) = slot.filter (·.liveAt t)

/-- A write is replayable if it is recorded whenever it changes the value, and if it removes or
leaves alone what is overtaken at time `t`. -/
lemma write_replayable {as : Value → Option β} {wrap : β → Value}
    {f : Option β → Except DbError (α × Option β)} {logged : α → Bool} {t : Int} {slot : Option Slot}
    (inverse : ∀ value v, as value = some v → wrap v = value)
    (quiet : ∀ s, slot = some s → ∀ v a next, as s.value = some v → f (some v) = .ok (a, next) →
      logged a = false → next = some v)
    (absent : ∀ a next, slot = none → f none = .ok (a, next) → logged a = false → next = none)
    (overtaken : ∀ s, slot = some s → s.liveAt t = false → ∀ v a next, as s.value = some v →
      f (some v) = .ok (a, next) → logged a = true → ∃ a', f none = .ok (a', none)) :
    (write as wrap f).Replayable logged t slot := by
  unfold Replayable
  cases slot with
  | none =>
    cases done : f none with
    | error e => simp [write, done]
    | ok result =>
      obtain ⟨a, next⟩ := result
      simp only [write, done, Option.filter_none]
      cases said : logged a with
      | true => simp
      | false => simp [absent a next rfl done said]
  | some s =>
    cases held : as s.value with
    | none => simp [write_other held]
    | some v =>
      cases done : f (some v) with
      | error e => simp [write_error held done]
      | ok result =>
        obtain ⟨a, next⟩ := result
        rw [write_ok held done]
        dsimp only
        cases said : logged a with
        | false =>
          rw [quiet s rfl v a next held done said, Option.map_some, inverse s.value v held]
          rfl
        | true =>
          rw [if_pos rfl]
          cases live : s.liveAt t with
          | true =>
            rw [Slot.filter_live live, write_ok held done]
            exact ⟨⟨a, rfl⟩, rfl⟩
          | false =>
            -- the replay does not find the key, and what the command left of it is gone as well
            obtain ⟨a', gone⟩ := overtaken s rfl live v a next held done said
            rw [Slot.filter_dead live, write_absent gone]
            refine ⟨⟨a', rfl⟩, ?_⟩
            cases next with
            | none => rfl
            | some next =>
              have dead : Slot.liveAt ⟨wrap next, s.deadline⟩ t = false := live
              rw [Option.map_some, Slot.filter_dead dead]
              rfl

end SlotOp

/-! ### Handlers -/

/-- An aggregate without elements. -/
def Value.isEmpty : Value → Bool
  | .string _ => false
  | .list items => items.isEmpty
  | .hash fields => fields.keys.isEmpty
  | .set members => decide (members = ∅)

/-- No live aggregate of the map is empty. -/
def TypedMap.Sound (t : Int) (m : TypedMap .native) : Prop :=
  ∀ key slot, (m.purge t).find key = some slot → slot.value.isEmpty = false

/-- Does `SET` with these options write to a key that is present or not? -/
def Handler.SetOptions.writes (options : Handler.SetOptions) (present : Bool) : Bool :=
  !(options.onlyIfMissing && (present || options.onlyIfPresent)) && (present || !options.onlyIfPresent)

/-- The command is a `SET` that writes a string with a deadline. `view` is the live view at the time
`now` of the command. -/
def DataHandler.SetsDeadline (now : Int) (arguments : List Bytes) (view : Bytes → Option Slot)
    (handler : DataHandler) : Prop :=
  handler = .set ∧ ∃ key options deadline, arguments[1]? = some key ∧
    Handler.parseSetOptions now (arguments.drop 3) {} = .ok options ∧
    options.writes (view key).isSome = true ∧ options.deadline = some deadline

/-- The records of a handler that runs at time `t` reproduce at time `t'` what it does, it leaves no
empty aggregate, and it makes at most one record unless it sets a string with a deadline. -/
structure DataHandler.Logs (handler : DataHandler) (t t' : Int) (arguments : List Bytes)
    (m : TypedMap .native) : Prop where
  replays : Replays t' (handler.run arguments t ⟨m, true, []⟩).2.records m
    (handler.run arguments t ⟨m, true, []⟩).2.store
  sound : (handler.run arguments t ⟨m, true, []⟩).2.store.Sound t
  single : ¬ handler.SetsDeadline t arguments (m.purge t).find →
    (handler.run arguments t ⟨m, true, []⟩).2.records.length ≤ 1

/-- What a handler logs, from its run. -/
lemma DataHandler.Logs.of_run {handler : DataHandler} {t t' : Int} {arguments : List Bytes}
    {m m' : TypedMap .native} {records : List (List Bytes)}
    (ran : (handler.run arguments t ⟨m, true, []⟩).2 = ⟨m', true, records⟩)
    (replays : Replays t' records m m') (sound : m'.Sound t)
    (single : ¬ handler.SetsDeadline t arguments (m.purge t).find → records.length ≤ 1) :
    handler.Logs t t' arguments m where
  replays := by
    rw [ran]
    exact replays
  sound := by
    rw [ran]
    exact sound
  single := by
    rw [ran]
    exact single

section Keyed

variable {α : Type} {m : TypedMap .native} {t t' now : Int} {key : Bytes} {attached : Bool}
  {records : List (List Bytes)} {arguments : List Bytes} {handler : DataHandler} {spec : CommandSpec}
  {op : SlotOp α} {logged : α → Bool} {reply : α → Bytes} {next : Option Slot} {a : α}

open Handler

lemma call_onKey_ok (h : op ((m.purge now).find key) = (.ok a, next)) :
    call (TypedMap.onKey key now op) ⟨m, attached, records⟩ =
      (.ok a, ⟨(m.purge now).put key next, attached, records⟩) := by
  simp only [call, TypedMap.onKey, h]

lemma call_onKey_error {e : DbError} (h : op ((m.purge now).find key) = (.error e, next)) :
    call (TypedMap.onKey key now op) ⟨m, attached, records⟩ =
      (.error (.thrown e), ⟨(m.purge now).put key next, attached, records⟩) := by
  simp only [call, TypedMap.onKey, h]

/-- The handlers that operate on one key and record their arguments if the result says so. -/
def keyed (key : Bytes) (now : Int) (op : SlotOp α) (logged : α → Bool) (reply : α → Bytes)
    (arguments : List Bytes) : Handling (TypedMap .native) Bytes := do
  let a ← call (TypedMap.onKey key now op)
  propagateIf (logged a) arguments
  pure (reply a)

lemma keyed_ok (h : op ((m.purge now).find key) = (.ok a, next)) :
    keyed key now op logged reply arguments ⟨m, attached, []⟩ =
      (.ok (reply a), ⟨(m.purge now).put key next, attached,
        if attached && logged a then [arguments] else []⟩) := by
  rw [keyed, bind_of_ok (call_onKey_ok h), propagateIf]
  cases logged a with
  | false => cases attached <;> rfl
  | true =>
    rw [if_pos rfl, bind_of_ok (propagate_apply arguments)]
    cases attached <;> rfl

lemma keyed_error {e : DbError} (h : op ((m.purge now).find key) = (.error e, next)) :
    keyed key now op logged reply arguments ⟨m, attached, []⟩ =
      (.error (.thrown e), ⟨(m.purge now).put key next, attached, []⟩) := by
  rw [keyed, bind_of_error (call_onKey_error h)]

/-- Storing a slot shows as what is left of it. -/
lemma purge_put_purge (le : t ≤ t') (slot : Option Slot) :
    ((m.purge t).put key slot).purge t' = (m.purge t').put key (slot.filter (·.liveAt t')) := by
  rw [TypedMap.purge_put, TypedMap.purge_purge le]

lemma find_purge_later (le : t ≤ t') :
    (m.purge t').find key = ((m.purge t).find key).filter (·.liveAt t') := by
  rw [← TypedMap.purge_purge le]
  rfl

/-- A map in which a slot that is not empty has been stored. -/
lemma TypedMap.Sound.of_put {m' : TypedMap .native} (sound : m.Sound t) {slot : Option Slot}
    (stored : m'.purge t = (m.purge t).put key slot)
    (nonempty : ∀ s, slot = some s → s.value.isEmpty = false) : m'.Sound t := by
  intro a s found
  rw [stored, TypedMap.find_put] at found
  by_cases e : a = key
  · subst e
    rw [Function.update_self] at found
    exact nonempty s found
  · rw [Function.update_of_ne e] at found
    exact sound a s found

/-- Storing a slot that is not empty. -/
lemma TypedMap.Sound.put (sound : m.Sound t) {slot : Option Slot}
    (nonempty : ∀ s, slot = some s → s.value.isEmpty = false) :
    ((m.purge t).put key slot).Sound t :=
  sound.of_put (purge_put_purge le_rfl slot) fun s found =>
    nonempty s (Option.filter_eq_some_iff.mp found).1

/-- A handler of this kind logs what it does if its operation is replayable. -/
lemma keyed_logs (found : resolve arguments = .dispatch spec) (data : spec.handler = .data handler)
    (run : ∀ now attached m, handler.run arguments now ⟨m, attached, []⟩ =
      keyed key now op logged reply arguments ⟨m, attached, []⟩)
    (answer : ∀ a, isErrorReply (reply a) = false) (le : t ≤ t') (sound : m.Sound t)
    (nonempty : ∀ s, (op ((m.purge t).find key)).2 = some s → s.value.isEmpty = false)
    (replayable : op.Replayable logged t' ((m.purge t).find key)) :
    handler.Logs t t' arguments m := by
  unfold SlotOp.Replayable at replayable
  rcases done : op ((m.purge t).find key) with ⟨_ | a, next⟩
  · -- a failed command is not recorded
    rw [done] at replayable nonempty
    have ran := congrArg Prod.snd (run t true m)
    rw [keyed_error done] at ran
    refine .of_run ran (.nil ?_) (sound.put nonempty) fun _ => Nat.zero_le 1
    rw [purge_put_purge le, replayable, ← find_purge_later le, TypedMap.put_self]
  · rw [done] at replayable nonempty
    have ran := congrArg Prod.snd (run t true m)
    rw [keyed_ok done, Bool.true_and] at ran
    refine .of_run ran ?_ (sound.put nonempty) fun _ => by split <;> simp
    dsimp only at replayable
    cases said : logged a with
    | false =>
      rw [said, if_neg Bool.false_ne_true] at replayable
      refine .nil ?_
      rw [purge_put_purge le, replayable, ← find_purge_later le, TypedMap.put_self]
    | true =>
      rw [said, if_pos rfl] at replayable
      obtain ⟨⟨a', again⟩, same⟩ := replayable
      refine .one fun copy shows => ?_
      have seen : (copy.purge t').find key = ((m.purge t).find key).filter (·.liveAt t') := by
        rw [shows, find_purge_later le]
      have redone : op ((copy.purge t').find key) =
          (.ok a', (op (((m.purge t).find key).filter (·.liveAt t'))).2) := by
        rw [seen, ← again]
      have reran := run t' false copy
      rw [keyed_ok redone] at reran
      refine ⟨_, ⟨spec, handler, found, data, ?_, rfl⟩, ?_⟩
      · rw [reran]
        exact answer a'
      · rw [reran, purge_put_purge le_rfl, shows, same, purge_put_purge le]

end Keyed

/-! ### Safe commands -/

/-- Can the integer that the value holds, if it does, be changed by `delta`? -/
def Value.Increments (value : Value) (delta : Int) : Prop :=
  ∃ text current, value = .string text ∧ parseStrictInteger text = some current ∧
    (fit64 (current + delta)).isSome = true

namespace DataHandler

/-- The commands that change a key which holds `value`, keep it, and would create it if it were
missing; and `PERSIST`. -/
def WritesInPlace (handler : DataHandler) (arguments : List Bytes) (value : Value) : Prop :=
  match handler with
  | .incr => value.Increments 1
  | .decr => value.Increments (-1)
  | .incrby => ∃ delta, amountArgument arguments = some delta ∧ value.Increments delta
  | .decrby => ∃ delta, amountArgument arguments = some delta ∧ delta ≠ int64Min ∧
      value.Increments (-delta)
  | .append => value.type = .string
  | .lpush | .rpush => value.type = .list
  | .hset => arguments.length % 2 = 0 ∧ value.type = .hash
  | .sadd => ∃ members, value = .set members ∧ ∃ member ∈ arguments.drop 2, member ∉ members
  | .persist => True
  | _ => False

end DataHandler

/-- A command that can be replayed at time `restart`: no key that is alive now but not then is
changed in place or given a deadline after `restart`, and no deadline is the sentinel when `restart`
has passed it. `view` is the live view at the time `now` of the command. -/
structure DataHandler.Safe (restart now : Int) (arguments : List Bytes) (view : Bytes → Option Slot)
    (handler : DataHandler) : Prop where
  inPlace : ∀ key slot, arguments[1]? = some key → view key = some slot →
    slot.liveAt restart = false → ¬ handler.WritesInPlace arguments slot.value
  expire : ∀ key slot deadline, arguments[1]? = some key → view key = some slot →
    handler.requestedDeadline arguments now = some deadline → now < deadline →
    (deadline ≤ restart → deadline ≠ noExpiry) ∧ (restart < deadline → slot.liveAt restart = true)
  set : handler = .set → ∀ key options deadline, arguments[1]? = some key →
    Handler.parseSetOptions now (arguments.drop 3) {} = .ok options →
    options.writes (view key).isSome = true → options.deadline = some deadline →
    deadline ≤ restart → deadline ≠ noExpiry

/-- Every command can be replayed at the time it ran. -/
lemma DataHandler.safe_of_now (handler : DataHandler) {now : Int} {arguments : List Bytes}
    {view : Bytes → Option Slot} (live : ∀ key slot, view key = some slot → slot.liveAt now = true) :
    handler.Safe now now arguments view where
  inPlace key slot _ shown dead := by
    rw [live key slot shown] at dead
    cases dead
  expire key slot deadline _ shown _ future := ⟨fun le => by omega, fun _ => live key slot shown⟩
  set _ key options deadline _ parsed _ given le := by
    have := (Handler.parseSetOptions_range parsed (by simp) deadline given).1
    omega

end FlashKV
