import FlashKV.Persistence.Logging

/-!
# Commands that record their arguments

The commands that change one key and record their own arguments: run at time `t`, a safe command of
this kind propagates a record that reproduces at any time `t'` from then on what the command did.
They are all instances of `keyed`.
-/

namespace FlashKV

open StateAction Handler

/-! ### Elements -/

namespace SlotOp

/-- Storing fields never leaves a hash without fields. -/
lemma storeFields_nonempty (fields : List (Bytes × Bytes)) (hash : HashValue) (added : Nat)
    (some_ : fields ≠ [] ∨ hash.keys.isEmpty = false) :
    (storeFields fields hash added).2.keys.isEmpty = false := by
  induction fields generalizing hash added with
  | nil => simpa [storeFields] using some_
  | cons field fields ih =>
    refine ih _ _ (.inr ?_)
    simp [AList.keys_insert]

/-- Removing fields counts up, and by none only if nothing was removed. -/
lemma removeFields_count (fields : List Bytes) (hash : HashValue) (removed : Nat) :
    removed ≤ (removeFields fields hash removed).1 ∧
    ((removeFields fields hash removed).1 = removed → (removeFields fields hash removed).2 = hash) := by
  induction fields generalizing hash removed with
  | nil => exact ⟨le_rfl, fun _ => rfl⟩
  | cons field fields ih =>
    unfold removeFields
    obtain ⟨le, same⟩ := ih (hash.erase field)
      (if (hash.lookup field).isSome then removed + 1 else removed)
    cases found : hash.lookup field with
    | some value =>
      simp only [found, Option.isSome_some, if_true] at le same ⊢
      exact ⟨by omega, fun e => by omega⟩
    | none =>
      have kept : hash.erase field = hash := by
        apply AList.ext
        exact List.kerase_of_notMem_keys (AList.lookup_eq_none.mp found)
      simp only [found, Option.isSome_none, Bool.false_eq_true, if_false, kept] at le same ⊢
      exact ⟨le, same⟩

/-- Adding members counts up, and by none only if there is nothing new. -/
lemma addMembers_count (members : List Bytes) (set : SetValue) (added : Nat) :
    added ≤ (addMembers members set added).1 ∧
    ((addMembers members set added).1 = added →
      (addMembers members set added).2 = set ∧ ∀ member ∈ members, member ∈ set) ∧
    ((∀ member ∈ members, member ∈ set) → (addMembers members set added).1 = added) ∧
    set ⊆ (addMembers members set added).2 := by
  induction members generalizing set added with
  | nil => exact ⟨le_rfl, fun _ => ⟨rfl, by simp⟩, fun _ => rfl, subset_rfl⟩
  | cons member members ih =>
    unfold addMembers
    obtain ⟨le, same, known, grows⟩ := ih (insert member set)
      (if member ∈ set then added else added + 1)
    by_cases old : member ∈ set
    · rw [if_pos old, Finset.insert_eq_of_mem old] at le same known grows ⊢
      refine ⟨le, fun e => ?_, fun all => known fun x mem => all x (by simp [mem]), grows⟩
      obtain ⟨kept, all⟩ := same e
      exact ⟨kept, by simpa [old] using all⟩
    · rw [if_neg old] at le same known grows ⊢
      refine ⟨by omega, fun e => by omega, fun all => absurd (all member (by simp)) old, ?_⟩
      exact (Finset.subset_insert member set).trans grows

lemma addMembers_nonempty {members : List Bytes} (some_ : members ≠ []) (set : SetValue)
    (added : Nat) : (addMembers members set added).2 ≠ ∅ := by
  cases members with
  | nil => exact absurd rfl some_
  | cons member members =>
    have mem := (addMembers_count members (insert member set)
      (if member ∈ set then added else added + 1)).2.2.2 (Finset.mem_insert_self member set)
    exact Finset.ne_empty_of_mem mem

/-- Removing members counts up, and by none only if nothing was removed. -/
lemma removeMembers_count (members : List Bytes) (set : SetValue) (removed : Nat) :
    removed ≤ (removeMembers members set removed).1 ∧
    ((removeMembers members set removed).1 = removed →
      (removeMembers members set removed).2 = set) := by
  induction members generalizing set removed with
  | nil => exact ⟨le_rfl, fun _ => rfl⟩
  | cons member members ih =>
    unfold removeMembers
    obtain ⟨le, same⟩ := ih (set.erase member) (if member ∈ set then removed + 1 else removed)
    by_cases found : member ∈ set
    · rw [if_pos found] at le same ⊢
      exact ⟨by omega, fun e => by omega⟩
    · rw [if_neg found, Finset.erase_eq_of_notMem found] at le same ⊢
      exact ⟨le, same⟩

lemma pushed_nonempty (side : ListSide) (values : List Bytes) (list : ListValue)
    (some_ : values ≠ [] ∨ list ≠ []) :
    values.foldl (fun list value => Database.pushElement side value list) list ≠ [] := by
  induction values generalizing list with
  | nil => simpa using some_
  | cons value values ih =>
    refine ih _ (.inr ?_)
    cases side <;> simp [Database.pushElement]

/-- A write leaves no empty aggregate if the values it stores are not empty. -/
lemma write_nonempty {α β : Type} {as : Value → Option β} {wrap : β → Value}
    {f : Option β → Except DbError (α × Option β)} {slot : Option Slot}
    (inverse : ∀ value v, as value = some v → wrap v = value)
    (held : ∀ s, slot = some s → s.value.isEmpty = false)
    (stored : ∀ v a next, (∀ x, v = some x → (wrap x).isEmpty = false) → f v = .ok (a, some next) →
      (wrap next).isEmpty = false) (s : Slot) (h : (write as wrap f slot).2 = some s) :
    s.value.isEmpty = false := by
  cases slot with
  | none =>
    cases done : f none with
    | error e => simp [write, done] at h
    | ok result =>
      obtain ⟨a, next⟩ := result
      rw [write_absent done] at h
      obtain ⟨value, rfl, rfl⟩ := Option.map_eq_some_iff.mp h
      exact stored none a value (by simp) done
  | some old =>
    have kept := held old rfl
    cases of : as old.value with
    | none =>
      rw [write_other of] at h
      cases h
      exact kept
    | some v =>
      cases done : f (some v) with
      | error e =>
        rw [write_error of done] at h
        cases h
        exact kept
      | ok result =>
        obtain ⟨a, next⟩ := result
        rw [write_ok of done] at h
        obtain ⟨value, rfl, rfl⟩ := Option.map_eq_some_iff.mp h
        refine stored (some v) a value (fun x e => ?_) done
        cases e
        rwa [inverse old.value v of]

end SlotOp

lemma asString_inverse (value : Value) (v : Bytes) (h : value.asString = some v) :
    Value.string v = value := by
  cases value <;> cases h
  rfl

lemma asList_inverse (value : Value) (v : ListValue) (h : value.asList = some v) :
    Value.list v = value := by
  cases value <;> cases h
  rfl

lemma asHash_inverse (value : Value) (v : HashValue) (h : value.asHash = some v) :
    Value.hash v = value := by
  cases value <;> cases h
  rfl

lemma asSet_inverse (value : Value) (v : SetValue) (h : value.asSet = some v) :
    Value.set v = value := by
  cases value <;> cases h
  rfl

/-! ### Handlers -/

/-- The loop of `hset` on an even number of arguments. -/
lemma fieldPairs_even {σ : Type} (elements : List Bytes) (even : elements.length % 2 = 0) :
    ∃ fields, (Handler.fieldPairs elements : Handling σ _) = pure fields ∧
      (elements ≠ [] → fields ≠ []) := by
  induction elements using Handler.fieldPairs.induct with
  | case1 => exact ⟨[], rfl, fun h => absurd rfl h⟩
  | case2 field value rest ih =>
    obtain ⟨fields, e, _⟩ := ih (by simp only [List.length_cons] at even; omega)
    exact ⟨(field, value) :: fields, by rw [Handler.fieldPairs, e]; rfl, fun _ => by simp⟩
  | case3 => simp at even

/-- A command that does nothing at all. -/
lemma still_logs {handler : DataHandler} {t t' : Int} {arguments : List Bytes}
    {m : TypedMap .native} (sound : m.Sound t)
    (still : (handler.run arguments t ⟨m, true, []⟩).2 = ⟨m, true, []⟩) :
    handler.Logs t t' arguments m :=
  .of_run still (.nil rfl) sound fun _ => Nat.zero_le 1

section Handlers

variable {t t' : Int} {arguments : List Bytes} {spec : CommandSpec} {handler : DataHandler}
  {m : TypedMap .native} {key : Bytes}

section InPlace

variable (found : resolve arguments = .dispatch spec) (data : spec.handler = .data handler)
  (le : t ≤ t') (sound : m.Sound t) (safe : handler.Safe t' t arguments (m.purge t).find)
  (first : arguments[1]? = some key)
include found data le sound safe first

lemma increment_logs {delta : Int}
    (run : ∀ now attached m, handler.run arguments now ⟨m, attached, []⟩ =
      Handler.increment (σ := TypedMap .native) arguments delta now ⟨m, attached, []⟩)
    (inPlace : ∀ value : Value, value.Increments delta → handler.WritesInPlace arguments value) :
    handler.Logs t t' arguments m := by
  have run' : ∀ now attached m, handler.run arguments now ⟨m, attached, []⟩ =
      keyed key now (SlotOp.incrementBy delta) (fun _ => true) respInteger arguments
        ⟨m, attached, []⟩ := by
    intro now attached m
    rw [run, Handler.increment, argument_some first]
    rfl
  refine keyed_logs found data run' (fun _ => rfl) le sound ?_ ?_
  · exact SlotOp.write_nonempty asString_inverse (sound key) fun _ _ _ _ _ => rfl
  · refine SlotOp.write_replayable asString_inverse (by simp) (by simp) ?_
    intro s shown dead text result next held done _
    refine absurd (inPlace s.value ?_) (safe.inPlace key s first shown dead)
    dsimp only [Option.getD_some] at done
    split at done
    · cases done
    · rename_i current parsed
      split at done
      · cases done
      · rename_i fits
        exact ⟨text, current, (asString_inverse _ _ held).symm, parsed, by simp [fits]⟩

lemma append_logs (isAppend : handler = .append) {value : Bytes}
    (second : arguments[2]? = some value) : handler.Logs t t' arguments m := by
  subst isAppend
  have run : ∀ now attached m, DataHandler.append.run arguments now ⟨m, attached, []⟩ =
      keyed key now (SlotOp.append value) (fun _ => true) (fun n => respInteger n) arguments
        ⟨m, attached, []⟩ := by
    intro now attached m
    show Handler.append arguments now ⟨m, attached, []⟩ = _
    rw [Handler.append, argument_some first, argument_some second]
    rfl
  refine keyed_logs found data run (fun _ => rfl) le sound ?_ ?_
  · exact SlotOp.write_nonempty asString_inverse (sound key) fun _ _ _ _ _ => rfl
  · refine SlotOp.write_replayable asString_inverse (by simp) (by simp) ?_
    intro s shown dead text _ _ held _ _
    refine absurd ?_ (safe.inPlace key s first shown dead)
    rw [← asString_inverse _ _ held]
    rfl

lemma push_logs {side : ListSide} (three : 3 ≤ arguments.length)
    (run : ∀ now attached m, handler.run arguments now ⟨m, attached, []⟩ =
      Handler.push (σ := TypedMap .native) arguments side now ⟨m, attached, []⟩)
    (inPlace : ∀ value : Value, value.type = .list → handler.WritesInPlace arguments value) :
    handler.Logs t t' arguments m := by
  have run' : ∀ now attached m, handler.run arguments now ⟨m, attached, []⟩ =
      keyed key now (SlotOp.listPush (arguments.drop 2) side) (fun _ => true)
        (fun n => respInteger n) arguments ⟨m, attached, []⟩ := by
    intro now attached m
    rw [run, Handler.push, argument_some first, Handler.argumentsFrom, if_pos (by omega)]
    rfl
  refine keyed_logs found data run' (fun _ => rfl) le sound ?_ ?_
  · refine SlotOp.write_nonempty asList_inverse (sound key) fun list _ next _ done => ?_
    cases done
    simp only [Value.isEmpty, List.isEmpty_eq_false_iff]
    exact SlotOp.pushed_nonempty side _ _ (.inl (by simp; omega))
  · refine SlotOp.write_replayable asList_inverse (by simp) (by simp) ?_
    intro s shown dead list _ _ held _ _
    refine absurd (inPlace s.value ?_) (safe.inPlace key s first shown dead)
    rw [← asList_inverse _ _ held]
    rfl

lemma hset_logs (isHset : handler = .hset) (four : 4 ≤ arguments.length) :
    handler.Logs t t' arguments m := by
  subst isHset
  by_cases odd : arguments.length % 2 ≠ 0
  · apply still_logs sound
    show (Handler.hset arguments t ⟨m, true, []⟩).2 = _
    rw [Handler.hset, if_pos odd]
    rfl
  · push Not at odd
    obtain ⟨fields, pairs, given⟩ := fieldPairs_even (σ := TypedMap .native) (arguments.drop 2)
      (by rw [List.length_drop]; omega)
    have run : ∀ now attached m, DataHandler.hset.run arguments now ⟨m, attached, []⟩ =
        keyed key now (SlotOp.hashSet fields) (fun _ => true) (fun n => respInteger n) arguments
          ⟨m, attached, []⟩ := by
      intro now attached m
      show Handler.hset arguments now ⟨m, attached, []⟩ = _
      rw [Handler.hset, if_neg (by simp [odd]), pairs, argument_some first]
      rfl
    refine keyed_logs found data run (fun _ => rfl) le sound ?_ ?_
    · refine SlotOp.write_nonempty asHash_inverse (sound key) fun hash _ next _ done => ?_
      cases done
      refine SlotOp.storeFields_nonempty fields _ 0 (.inl (given ?_))
      simp only [ne_eq, List.drop_eq_nil_iff]
      omega
    · refine SlotOp.write_replayable asHash_inverse (by simp) (by simp) ?_
      intro s shown dead hash _ _ held _ _
      refine absurd ⟨odd, ?_⟩ (safe.inPlace key s first shown dead)
      rw [← asHash_inverse _ _ held]
      rfl

lemma sadd_logs (isSadd : handler = .sadd) (three : 3 ≤ arguments.length) :
    handler.Logs t t' arguments m := by
  subst isSadd
  have run : ∀ now attached m, DataHandler.sadd.run arguments now ⟨m, attached, []⟩ =
      keyed key now (SlotOp.setAdd (arguments.drop 2)) (fun n => decide (n > 0))
        (fun n => respInteger n) arguments ⟨m, attached, []⟩ := by
    intro now attached m
    show Handler.sadd arguments now ⟨m, attached, []⟩ = _
    rw [Handler.sadd, Handler.changeElements, argument_some first, Handler.argumentsFrom,
      if_pos (by omega)]
    rfl
  have given : arguments.drop 2 ≠ [] := by
    simp only [ne_eq, List.drop_eq_nil_iff]
    omega
  refine keyed_logs found data run (fun _ => rfl) le sound ?_ ?_
  · refine SlotOp.write_nonempty asSet_inverse (sound key) fun set _ next _ done => ?_
    cases done
    exact decide_eq_false (SlotOp.addMembers_nonempty given _ _)
  · refine SlotOp.write_replayable asSet_inverse ?_ ?_ ?_
    · intro s shown set a next held done said
      cases done
      obtain ⟨_, same, _⟩ := SlotOp.addMembers_count (arguments.drop 2) set 0
      rw [Option.getD_some, (same (by simpa using said)).1]
    · -- a member of a missing set is new
      intro a next absent done said
      cases done
      obtain ⟨_, same, _⟩ := SlotOp.addMembers_count (arguments.drop 2) ∅ 0
      obtain ⟨member, mem⟩ := List.exists_mem_of_ne_nil _ given
      exact absurd ((same (by simpa using said)).2 member mem) (Finset.notMem_empty member)
    · intro s shown dead set a next held done said
      cases done
      obtain ⟨_, _, known, _⟩ := SlotOp.addMembers_count (arguments.drop 2) set 0
      refine absurd ⟨set, (asSet_inverse _ _ held).symm, ?_⟩ (safe.inPlace key s first shown dead)
      by_contra none_
      push Not at none_
      rw [Option.getD_some, known none_] at said
      cases said

lemma persist_logs (isPersist : handler = .persist) : handler.Logs t t' arguments m := by
  subst isPersist
  have run : ∀ now attached m, DataHandler.persist.run arguments now ⟨m, attached, []⟩ =
      keyed key now SlotOp.persist id (fun b => respInteger (if b then 1 else 0)) arguments
        ⟨m, attached, []⟩ := by
    intro now attached m
    show Handler.persist arguments now ⟨m, attached, []⟩ = _
    rw [Handler.persist, argument_some first]
    refine congrFun (congrArg (call (TypedMap.onKey key now SlotOp.persist) >>= ·)
      (funext fun persisted => ?_)) _
    cases persisted <;> rfl
  refine keyed_logs found data run (fun _ => rfl) le sound ?_ ?_
  · intro s stored
    cases shown : (m.purge t).find key with
    | none => simp [shown, SlotOp.persist] at stored
    | some slot =>
      have nonempty := sound key slot shown
      rw [shown, SlotOp.persist] at stored
      split at stored <;> cases stored <;> exact nonempty
  · unfold SlotOp.Replayable
    cases shown : (m.purge t).find key with
    | none => rfl
    | some slot =>
      cases limit : slot.deadline with
      | none => simp [SlotOp.persist, limit]
      | some deadline =>
        have live : slot.liveAt t' = true := by
          by_contra dead
          exact safe.inPlace key slot first shown (by simpa using dead) trivial
        have done : SlotOp.persist (some slot) = (.ok true, some ⟨slot.value, none⟩) := by
          simp [SlotOp.persist, limit]
        rw [Slot.filter_live live, done]
        exact ⟨⟨true, rfl⟩, rfl⟩

end InPlace

section Removing

variable (found : resolve arguments = .dispatch spec) (data : spec.handler = .data handler)
  (le : t ≤ t') (sound : m.Sound t) (first : arguments[1]? = some key)
include found data le sound first

lemma pop_logs {side : ListSide}
    (run : ∀ now attached m, handler.run arguments now ⟨m, attached, []⟩ =
      Handler.pop (σ := TypedMap .native) arguments side now ⟨m, attached, []⟩) :
    handler.Logs t t' arguments m := by
  have run' : ∀ now attached m, handler.run arguments now ⟨m, attached, []⟩ =
      keyed key now (SlotOp.listPop side) Option.isSome nullableBulk arguments ⟨m, attached, []⟩ := by
    intro now attached m
    rw [run, Handler.pop, argument_some first]
    rfl
  refine keyed_logs found data run' isErrorReply_nullable le sound ?_ ?_
  · refine SlotOp.write_nonempty asList_inverse (sound key) fun list a next held done => ?_
    split at done
    · cases done
      exact held next rfl
    · split at done
      · cases done
      · rename_i rest
        cases done
        simpa [Value.isEmpty] using rest
  · refine SlotOp.write_replayable asList_inverse ?_ ?_ ?_
    · intro s shown list a next held done said
      split at done
      · cases done
        rfl
      · cases done
        cases said
    · intro a next absent done said
      split at done
      · cases done
        rfl
      · cases done
        cases said
    · intro s shown dead list a next held done said
      exact ⟨none, by cases side <;> rfl⟩

lemma hdel_logs (isHdel : handler = .hdel) (three : 3 ≤ arguments.length) :
    handler.Logs t t' arguments m := by
  subst isHdel
  have run : ∀ now attached m, DataHandler.hdel.run arguments now ⟨m, attached, []⟩ =
      keyed key now (SlotOp.hashDelete (arguments.drop 2)) (fun n => decide (n > 0))
        (fun n => respInteger n) arguments ⟨m, attached, []⟩ := by
    intro now attached m
    show Handler.hdel arguments now ⟨m, attached, []⟩ = _
    rw [Handler.hdel, Handler.changeElements, argument_some first, Handler.argumentsFrom,
      if_pos (by omega)]
    rfl
  refine keyed_logs found data run (fun _ => rfl) le sound ?_ ?_
  · refine SlotOp.write_nonempty asHash_inverse (sound key) fun hash a next held done => ?_
    cases hash with
    | none => cases done
    | some hash =>
      simp only [Except.ok.injEq, Prod.mk.injEq] at done
      obtain ⟨_, done⟩ := done
      split at done
      · cases done
      · rename_i nonempty
        cases done
        simpa [Value.isEmpty] using nonempty
  · refine SlotOp.write_replayable asHash_inverse ?_ (fun a next _ done _ => ?_)
      fun _ _ _ _ _ _ _ _ _ => ⟨0, rfl⟩
    · intro s shown hash a next held done said
      have nonempty := sound key s shown
      rw [← asHash_inverse _ _ held, Value.isEmpty] at nonempty
      cases done
      obtain ⟨_, same⟩ := SlotOp.removeFields_count (arguments.drop 2) hash 0
      rw [same (by simpa using said), if_neg (by simp [nonempty])]
    · cases done
      rfl

lemma srem_logs (isSrem : handler = .srem) (three : 3 ≤ arguments.length) :
    handler.Logs t t' arguments m := by
  subst isSrem
  have run : ∀ now attached m, DataHandler.srem.run arguments now ⟨m, attached, []⟩ =
      keyed key now (SlotOp.setRemove (arguments.drop 2)) (fun n => decide (n > 0))
        (fun n => respInteger n) arguments ⟨m, attached, []⟩ := by
    intro now attached m
    show Handler.srem arguments now ⟨m, attached, []⟩ = _
    rw [Handler.srem, Handler.changeElements, argument_some first, Handler.argumentsFrom,
      if_pos (by omega)]
    rfl
  refine keyed_logs found data run (fun _ => rfl) le sound ?_ ?_
  · refine SlotOp.write_nonempty asSet_inverse (sound key) fun set a next held done => ?_
    cases set with
    | none => cases done
    | some set =>
      simp only [Except.ok.injEq, Prod.mk.injEq] at done
      obtain ⟨_, done⟩ := done
      split at done
      · cases done
      · rename_i nonempty
        cases done
        exact decide_eq_false nonempty
  · refine SlotOp.write_replayable asSet_inverse ?_ (fun a next _ done _ => ?_)
      fun _ _ _ _ _ _ _ _ _ => ⟨0, rfl⟩
    · intro s shown set a next held done said
      have nonempty := sound key s shown
      rw [← asSet_inverse _ _ held] at nonempty
      cases done
      obtain ⟨_, same⟩ := SlotOp.removeMembers_count (arguments.drop 2) set 0
      rw [same (by simpa using said), if_neg (of_decide_eq_false nonempty)]
    · cases done
      rfl

end Removing

end Handlers

end FlashKV
