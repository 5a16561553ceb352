import FlashKV.Persistence.Records

/-!
# The records of the data handlers

`FLUSHALL`, `DEL`, `MSET`, `SET` and the `EXPIRE` family record something else than a change to the
key of their first argument, or not their arguments; the reading commands record nothing.
`DataHandler.logs` collects all data handlers: the records of a safe command reproduce what the
command did.
-/

namespace FlashKV

open StateAction Handler

section Handlers

variable {t t' : Int} {arguments : List Bytes} {spec : CommandSpec} {handler : DataHandler}
  {m : TypedMap .native} {key : Bytes}

lemma flushall_logs (isFlushall : handler = .flushall) : handler.Logs t t' arguments m := by
  subst isFlushall
  constructor
  · refine .one fun copy _ => ?_
    exact ⟨TypedMap.empty, ⟨_, .flushall, resolve_flushall, rfl, rfl, rfl⟩, rfl⟩
  · intro key slot shown
    cases shown
  · exact fun _ => le_rfl

section Del

/-- Remove keys. -/
def TypedMap.without (keys : List Bytes) (m : TypedMap .native) : TypedMap .native :=
  keys.foldl (fun m key => m.put key none) m

lemma TypedMap.purge_without (keys : List Bytes) (m : TypedMap .native) :
    (m.without keys).purge t = (m.purge t).without keys := by
  induction keys generalizing m with
  | nil => rfl
  | cons key keys ih =>
    show ((m.put key none).without keys).purge t = ((m.purge t).put key none).without keys
    rw [ih, TypedMap.purge_put]
    rfl

lemma TypedMap.without_of_absent {keys : List Bytes} {m : TypedMap .native}
    (absent : ∀ key ∈ keys, m.find key = none) : m.without keys = m := by
  induction keys with
  | nil => rfl
  | cons key keys ih =>
    have gone : m.put key none = m := by
      rw [← absent key (by simp), TypedMap.put_self]
    show (m.put key none).without keys = m
    rw [gone]
    exact ih fun key mem => absent key (by simp [mem])

lemma TypedMap.Sound.without {keys : List Bytes} {m m' : TypedMap .native} (sound : m.Sound t)
    (same : m'.purge t = (m.purge t).without keys) : m'.Sound t := by
  have kept : ∀ (keys : List Bytes) (m : TypedMap .native) (a : Bytes) (slot : Slot),
      (m.without keys).find a = some slot → m.find a = some slot := by
    intro keys
    induction keys with
    | nil => exact fun _ _ _ h => h
    | cons key keys ih =>
      intro m a slot h
      have h := ih (m.put key none) a slot h
      rw [TypedMap.find_put] at h
      by_cases e : a = key
      · subst e
        rw [Function.update_self] at h
        cases h
      · rwa [Function.update_of_ne e] at h
  intro a slot found
  rw [same] at found
  exact sound a slot (kept keys _ a slot found)

/-- The loop of `del` removes its keys, and counts none only if none of them is live. -/
lemma delLoop_apply (now : Int) (attached : Bool) (records : List (List Bytes)) (keys : List Bytes)
    (count : Int) (m : TypedMap .native) :
    ∃ count' m', (keys.foldlM
        (fun count key => do
          let hit ← call (Storage.del key now)
          pure (if hit then count + 1 else count)) count : Handling (TypedMap .native) Int)
          ⟨m, attached, records⟩ =
        (.ok count', ⟨m', attached, records⟩) ∧
      m'.purge now = (m.purge now).without keys ∧ count ≤ count' ∧
      (count' = count → ∀ key ∈ keys, (m.purge now).find key = none) := by
  induction keys generalizing count m with
  | nil => exact ⟨count, m, rfl, rfl, le_rfl, by simp⟩
  | cons key keys ih =>
    have called : call (Storage.del key now) (⟨m, attached, records⟩ : Session (TypedMap .native)) =
        (.ok ((m.purge now).find key).isSome, ⟨(m.purge now).put key none, attached, records⟩) :=
      call_onKey_ok rfl
    obtain ⟨count', m', ran, purged, more, zero⟩ := ih
      (if ((m.purge now).find key).isSome then count + 1 else count) ((m.purge now).put key none)
    refine ⟨count', m', ?_, ?_, ?_, ?_⟩
    · rw [List.foldlM_cons, bind_of_ok (by rw [bind_of_ok called]; rfl)]
      exact ran
    · rw [purged, purge_put_purge le_rfl]
      rfl
    · split at more <;> omega
    · intro same
      cases shown : (m.purge now).find key with
      | some slot =>
        rw [shown, Option.isSome_some, if_pos rfl] at more
        omega
      | none =>
        rw [shown, Option.isSome_none, if_neg Bool.false_ne_true] at zero
        intro a mem
        rcases List.mem_cons.mp mem with rfl | mem
        · exact shown
        · have absent := zero same a mem
          rw [purge_put_purge le_rfl, TypedMap.find_put] at absent
          by_cases e : a = key
          · rw [e]
            exact shown
          · rwa [Function.update_of_ne e] at absent

/-- `DEL` of any keys. -/
lemma del_apply (now : Int) (attached : Bool) (arguments : List Bytes) (m : TypedMap .native) :
    ∃ count m', Handler.del arguments now ⟨m, attached, []⟩ =
        (.ok (respInteger count),
          ⟨m', attached, if attached && decide (count > 0) then [arguments] else []⟩) ∧
      m'.purge now = (m.purge now).without (arguments.drop 1) ∧
      (¬ count > 0 → ∀ key ∈ arguments.drop 1, (m.purge now).find key = none) := by
  obtain ⟨count, m', ran, purged, more, zero⟩ := delLoop_apply now attached [] (arguments.drop 1) 0 m
  refine ⟨count, m', ?_, purged, fun none_ => zero (by omega)⟩
  rw [Handler.del, bind_of_ok (x := countKeys _ _) ran, propagateIf]
  cases hit : decide (count > 0) with
  | false => simp
  | true =>
    rw [if_pos rfl, bind_of_ok (propagate_apply arguments)]
    cases attached <;> rfl

/-- Removing keys now shows later as removing them. -/
lemma purge_later_of_without {keys : List Bytes} {m m' : TypedMap .native} (le : t ≤ t')
    (same : m'.purge t = (m.purge t).without keys) : m'.purge t' = (m.purge t').without keys := by
  rw [← TypedMap.purge_purge le, same, TypedMap.purge_without, TypedMap.purge_purge le]

lemma del_logs (isDel : handler = .del) (found : resolve arguments = .dispatch spec)
    (data : spec.handler = .data handler) (le : t ≤ t') (sound : m.Sound t) :
    handler.Logs t t' arguments m := by
  subst isDel
  obtain ⟨count, m', ran, purged, zero⟩ := del_apply t true arguments m
  have later := purge_later_of_without le purged
  refine .of_run (congrArg Prod.snd ran) ?_ (sound.without purged) fun _ => by split <;> simp
  by_cases some_ : count > 0
  · simp only [some_, decide_true, Bool.and_self, if_true]
    refine .one fun copy shows => ?_
    obtain ⟨_, copy', reran, repurged, _⟩ := del_apply t' false arguments copy
    change DataHandler.del.run arguments t' ⟨copy, false, []⟩ = _ at reran
    refine ⟨copy', ⟨spec, .del, found, data, ?_, ?_⟩, ?_⟩
    · rw [reran]
      rfl
    · rw [reran]
    · rw [repurged, shows, later]
  · simp only [some_, decide_false, Bool.and_false, Bool.false_eq_true, if_false]
    refine .nil ?_
    rw [later, TypedMap.without_of_absent]
    intro key mem
    rw [find_purge_later le, zero some_ key mem]
    rfl

/-- The record of a removed key. -/
lemma delRecord_replays {m m' : TypedMap .native} (gone : m'.purge t = (m.purge t).put key none) :
    RecordReplays t [ascii "DEL", key] m m' := by
  intro copy shows
  obtain ⟨_, copy', ran, purged, _⟩ := del_apply t false [ascii "DEL", key] copy
  change DataHandler.del.run _ t ⟨copy, false, []⟩ = _ at ran
  refine ⟨copy', ⟨_, .del, resolve_del, rfl, ?_, ?_⟩, ?_⟩
  · rw [ran]
    rfl
  · rw [ran]
  · rw [purged, shows, gone]
    rfl

end Del

section Mset

/-- Store strings, given as keys followed by values. -/
def TypedMap.putStrings : List Bytes → TypedMap .native → TypedMap .native
  | key :: value :: rest, m => putStrings rest (m.put key (some ⟨.string value, none⟩))
  | _, m => m

lemma TypedMap.purge_putStrings (pairs : List Bytes) (m : TypedMap .native) :
    (m.putStrings pairs).purge t = (m.purge t).putStrings pairs := by
  fun_induction TypedMap.putStrings pairs m with
  | case1 key value rest m ih =>
    rw [ih, TypedMap.purge_put]
    rfl
  | case2 pairs m other =>
    rw [TypedMap.putStrings]
    exact other

lemma TypedMap.Sound.putStrings (pairs : List Bytes) {m : TypedMap .native} (sound : m.Sound t) :
    (m.putStrings pairs).Sound t := by
  fun_induction TypedMap.putStrings pairs m with
  | case1 key value rest m ih =>
    refine ih fun a slot found => ?_
    rw [TypedMap.purge_put, TypedMap.find_put] at found
    by_cases e : a = key
    · subst e
      rw [Function.update_self] at found
      cases (Option.filter_eq_some_iff.mp found).1
      rfl
    · rw [Function.update_of_ne e] at found
      exact sound a slot found
  | case2 => exact sound

/-- The loop of `mset` on an even number of arguments. -/
lemma msetLoop_apply (now : Int) (attached : Bool) (records : List (List Bytes)) (pairs : List Bytes)
    (even : pairs.length % 2 = 0) (m : TypedMap .native) :
    ∃ m', Handler.msetLoop now pairs ⟨m, attached, records⟩ = (.ok (), ⟨m', attached, records⟩) ∧
      m'.purge now = (m.purge now).putStrings pairs := by
  induction pairs using Handler.msetLoop.induct generalizing m with
  | case1 => exact ⟨m, rfl, rfl⟩
  | case2 key value rest ih =>
    have called : call (Storage.set key value now)
        (⟨m, attached, records⟩ : Session (TypedMap .native)) =
        (.ok (), ⟨(m.purge now).put key (some ⟨.string value, none⟩), attached, records⟩) :=
      call_onKey_ok rfl
    obtain ⟨m', ran, purged⟩ := ih (by simp only [List.length_cons] at even; omega)
      ((m.purge now).put key (some ⟨.string value, none⟩))
    refine ⟨m', ?_, ?_⟩
    · rw [Handler.msetLoop, bind_of_ok called]
      exact ran
    · rw [purged, purge_put_purge le_rfl]
      rfl
  | case3 => simp at even

lemma mset_logs (isMset : handler = .mset) (found : resolve arguments = .dispatch spec)
    (data : spec.handler = .data handler) (le : t ≤ t') (sound : m.Sound t) :
    handler.Logs t t' arguments m := by
  subst isMset
  by_cases odd : arguments.length % 2 = 0
  · apply still_logs sound
    show (Handler.mset arguments t ⟨m, true, []⟩).2 = _
    rw [Handler.mset, if_pos odd]
    rfl
  · have apply : ∀ now attached (m : TypedMap .native), ∃ m',
        DataHandler.mset.run arguments now ⟨m, attached, []⟩ =
          (.ok (respSimpleString (ascii "OK")),
            ⟨m', attached, if attached then [arguments] else []⟩) ∧
        m'.purge now = (m.purge now).putStrings (arguments.drop 1) := by
      intro now attached m
      obtain ⟨m', ran, purged⟩ := msetLoop_apply now attached [] (arguments.drop 1)
        (by rw [List.length_drop]; omega) m
      refine ⟨m', ?_, purged⟩
      show Handler.mset arguments now ⟨m, attached, []⟩ = _
      rw [Handler.mset, if_neg odd, bind_of_ok ran, bind_of_ok (propagate_apply arguments)]
      rfl
    obtain ⟨m', ran, purged⟩ := apply t true m
    refine .of_run (congrArg Prod.snd ran) ?_ ?_ fun _ => le_rfl
    · refine .one fun copy shows => ?_
      obtain ⟨copy', reran, repurged⟩ := apply t' false copy
      refine ⟨copy', ⟨spec, .mset, found, data, ?_, ?_⟩, ?_⟩
      · rw [reran]
        rfl
      · rw [reran]
      · rw [repurged, shows, ← TypedMap.purge_purge le, ← TypedMap.purge_putStrings, ← purged,
          TypedMap.purge_purge le]
    · intro a slot shown
      rw [purged, ← TypedMap.purge_putStrings] at shown
      exact sound.putStrings _ a slot shown

end Mset

section Expire

/-- What `expireAtMs` leaves of a slot. -/
def expiredSlot (deadline now : Int) (slot : Option Slot) : Option Slot :=
  if deadline ≤ now then none else slot.map fun s => ⟨s.value, deadlineOf deadline⟩

/-- The records of `expireGeneric`. -/
def expiryRecords (key : Bytes) (deadline now : Int) (slot : Option Slot) : List (List Bytes) :=
  if slot.isSome then
    if deadline ≤ now then [[ascii "DEL", key]]
    else [[ascii "PEXPIREAT", key, Decimal.ofInt deadline]]
  else []

lemma call_existsKey {now : Int} {attached : Bool} {records : List (List Bytes)} :
    call (Storage.existsKey key now) (⟨m, attached, records⟩ : Session (TypedMap .native)) =
      (.ok ((m.purge now).find key).isSome, ⟨m.purge now, attached, records⟩) := by
  have called : call (Storage.existsKey key now)
      (⟨m, attached, records⟩ : Session (TypedMap .native)) =
      (.ok ((m.purge now).find key).isSome,
        ⟨(m.purge now).put key ((m.purge now).find key), attached, records⟩) :=
    call_onKey_ok rfl
  rw [called, TypedMap.put_self]

lemma call_expireAtMs {now deadline : Int} {attached : Bool} {records : List (List Bytes)} :
    call (Storage.expireAtMs key deadline now)
      (⟨m, attached, records⟩ : Session (TypedMap .native)) =
      (.ok ((m.purge now).find key).isSome,
        ⟨(m.purge now).put key (expiredSlot deadline now ((m.purge now).find key)), attached,
          records⟩) := by
  refine call_onKey_ok ?_
  unfold expiredSlot
  cases (m.purge now).find key with
  | none =>
    rw [Option.map_none, ite_self]
    rfl
  | some slot =>
    unfold SlotOp.expireAtMs
    dsimp only
    split <;> rfl

/-- What `expireAtMs` leaves is live or gone. -/
lemma filter_expiredSlot {deadline now : Int} {slot : Option Slot} :
    (expiredSlot deadline now slot).filter (·.liveAt now) = expiredSlot deadline now slot := by
  unfold expiredSlot
  split
  · rfl
  · rename_i future
    cases slot with
    | none => rfl
    | some slot =>
      rw [Option.map_some]
      exact Slot.filter_live (Slot.liveAt_of_future (by omega))

/-- `EXPIRE` and its variants, for a deadline that can be computed. -/
lemma expireGeneric_apply {amount unitMs now deadline : Int} {absolute : Bool} (attached : Bool)
    (first : arguments[1]? = some key) (parsed : amountArgument arguments = some amount)
    (computed : expireDeadline amount unitMs now absolute = some deadline) (m : TypedMap .native) :
    ∃ found m', Handler.expireGeneric arguments unitMs absolute now ⟨m, attached, []⟩ =
        (.ok (respInteger found), ⟨m', attached,
          if attached then expiryRecords key deadline now ((m.purge now).find key) else []⟩) ∧
      m'.purge now = (m.purge now).put key (expiredSlot deadline now ((m.purge now).find key)) := by
  obtain ⟨text, second, parsed⟩ := Option.bind_eq_some_iff.mp parsed
  have run : (Handler.expireGeneric arguments unitMs absolute now : Handling (TypedMap .native) _) =
      (do
        let found ← call (Storage.expireAtMs key deadline now)
        if found then do
          let present ← call (Storage.existsKey key now)
          propagateDeadline key deadline present
          pure (respInteger 1)
        else pure (respInteger 0)) := by
    rw [Handler.expireGeneric, argument_bind second, parsed]
    dsimp only
    rw [computed]
    dsimp only
    rw [argument_bind first]
  rw [run, bind_of_ok call_expireAtMs]
  cases shown : (m.purge now).find key with
  | none =>
    refine ⟨0, (m.purge now).put key (expiredSlot deadline now none), ?_, ?_⟩
    · cases attached <;> rfl
    · rw [purge_put_purge le_rfl, filter_expiredSlot]
  | some slot =>
    refine ⟨1, ((m.purge now).put key (expiredSlot deadline now (some slot))).purge now, ?_, ?_⟩
    · rw [Option.isSome_some, if_pos rfl, bind_of_ok call_existsKey, purge_put_purge le_rfl,
        filter_expiredSlot, TypedMap.find_put, Function.update_self]
      unfold propagateDeadline propagateExpiry expiryRecords expiredSlot
      rw [Option.isSome_some, if_pos rfl]
      by_cases past : deadline ≤ now
      · rw [if_pos past, if_pos past]
        cases attached <;> rfl
      · rw [if_neg past, if_neg past]
        cases attached <;> rfl
    · rw [TypedMap.purge_purge le_rfl, purge_put_purge le_rfl, filter_expiredSlot]

/-- The record of a deadline. -/
lemma expiryRecord_replays {deadline : Int} {m m' : TypedMap .native}
    (range : int64Min ≤ deadline ∧ deadline ≤ int64Max)
    (set : m'.purge t = (m.purge t).put key (expiredSlot deadline t ((m.purge t).find key))) :
    RecordReplays t [ascii "PEXPIREAT", key, Decimal.ofInt deadline] m m' := by
  intro copy shows
  have parsed : amountArgument [ascii "PEXPIREAT", key, Decimal.ofInt deadline] = some deadline :=
    Decimal.parseInt_ofInt range.1 range.2
  have computed : expireDeadline deadline 1 t true = some deadline := by
    simp only [expireDeadline, Int.mul_one, fit64, range, and_self, if_true]
    rfl
  obtain ⟨_, copy', ran, purged⟩ :=
    expireGeneric_apply false rfl parsed computed copy
  change DataHandler.pexpireat.run _ t ⟨copy, false, []⟩ = _ at ran
  refine ⟨copy', ⟨_, .pexpireat, resolve_pexpireat, rfl, ?_, ?_⟩, ?_⟩
  · rw [ran]
    rfl
  · rw [ran]
  · rw [purged, shows, set]

/-- `EXPIRE` and its variants do nothing without a deadline. -/
lemma expireGeneric_still {unitMs now : Int} {absolute : Bool}
    (none_ : ((amountArgument arguments).bind fun n => expireDeadline n unitMs now absolute) = none)
    (session : Session (TypedMap .native)) :
    (Handler.expireGeneric arguments unitMs absolute now session).2 = session := by
  unfold Handler.expireGeneric
  cases second : arguments[2]? with
  | none =>
    unfold argument
    rw [second]
    rfl
  | some text =>
    rw [argument_bind second]
    cases parsed : parseStrictInteger text with
    | none => rfl
    | some amount =>
      have given : amountArgument arguments = some amount := by
        rw [amountArgument, second, Option.bind_some, parsed]
      rw [given, Option.bind_some] at none_
      dsimp only
      rw [none_]
      unfold argument
      cases arguments[0]? <;> rfl

lemma expire_logs {unitMs : Int} {absolute : Bool}
    (run : ∀ now attached m, handler.run arguments now ⟨m, attached, []⟩ =
      Handler.expireGeneric (σ := TypedMap .native) arguments unitMs absolute now ⟨m, attached, []⟩)
    (requested : handler.requestedDeadline arguments t =
      (amountArgument arguments).bind fun n => expireDeadline n unitMs t absolute)
    (le : t ≤ t') (sound : m.Sound t) (safe : handler.Safe t' t arguments (m.purge t).find)
    (first : arguments[1]? = some key) : handler.Logs t t' arguments m := by
  cases asked : handler.requestedDeadline arguments t with
  | none =>
    apply still_logs sound
    rw [run, expireGeneric_still (requested ▸ asked)]
  | some deadline =>
    obtain ⟨amount, parsed, computed⟩ := Option.bind_eq_some_iff.mp (requested ▸ asked)
    obtain ⟨_, m', ran, purged⟩ := expireGeneric_apply true first parsed computed m
    rw [if_pos rfl] at ran
    have ran := (run t true m).trans ran
    have later : m'.purge t' = (m.purge t').put key
        ((expiredSlot deadline t ((m.purge t).find key)).filter (·.liveAt t')) := by
      rw [← TypedMap.purge_purge le, purged, purge_put_purge le]
    refine .of_run (congrArg Prod.snd ran) ?_ ?_ ?_
    · unfold expiryRecords
      cases shown : (m.purge t).find key with
      | none =>
        rw [shown] at later
        refine .nil ?_
        have gone : (m.purge t').find key = none := by
          rw [find_purge_later le, shown]
          rfl
        rw [later, expiredSlot, Option.map_none, ite_self, Option.filter_none, ← gone,
          TypedMap.put_self]
      | some slot =>
        rw [shown] at later
        rw [Option.isSome_some, if_pos rfl]
        by_cases past : deadline ≤ t
        · rw [if_pos past]
          refine .one (delRecord_replays ?_)
          rw [later, expiredSlot, if_pos past]
          rfl
        · -- the deadline is in the future of the command; the replay may find it passed
          rw [if_neg past]
          refine .one (expiryRecord_replays (expireDeadline_range computed) ?_)
          obtain ⟨passed, ahead⟩ := safe.expire key slot deadline first shown asked (by omega)
          rw [later, expiredSlot, if_neg past, Option.map_some]
          by_cases gone : deadline ≤ t'
          · rw [expiredSlot, if_pos gone, Slot.filter_dead]
            rw [Slot.liveAt, deadlineOf, if_neg (passed gone)]
            exact decide_eq_false (by omega)
          · rw [expiredSlot, if_neg gone, Slot.filter_live (Slot.liveAt_of_future (by omega)),
              find_purge_later le, shown, Slot.filter_live (ahead (by omega)), Option.map_some]
    · refine sound.of_put purged fun slot found => ?_
      rw [expiredSlot] at found
      split at found
      · cases found
      · obtain ⟨old, shown, rfl⟩ := Option.map_eq_some_iff.mp found
        exact sound key old shown
    · intro _
      unfold expiryRecords
      split
      · split <;> simp
      · simp

end Expire

section Set

variable {value : Bytes} {options : SetOptions} {now : Int}

/-- `SET` once its options are read. -/
lemma set_run (first : arguments[1]? = some key) (second : arguments[2]? = some value)
    (parsed : parseSetOptions now (arguments.drop 3) {} = .ok options) :
    (Handler.set arguments now : Handling (TypedMap .native) Bytes) =
      if options.onlyIfMissing ∧ options.onlyIfPresent then pure syntaxError
      else (do
        let present ← call (Storage.existsKey key now)
        if (options.onlyIfMissing ∧ present) ∨ (options.onlyIfPresent ∧ ¬ present) then pure respNull
        else do
          call (Storage.set key value now)
          propagate [ascii "SET", key, value]
          setExpiry key options.deadline now
          pure (respSimpleString (ascii "OK"))) := by
  rw [Handler.set, argument_bind first, argument_bind second, parsed]

/-- A `SET` that writes. -/
lemma set_apply (attached : Bool) (first : arguments[1]? = some key)
    (second : arguments[2]? = some value)
    (parsed : parseSetOptions now (arguments.drop 3) {} = .ok options)
    (writes : options.writes ((m.purge now).find key).isSome = true) :
    ∃ m₁, m₁.purge now = (m.purge now).put key (some ⟨.string value, none⟩) ∧
      Handler.set arguments now ⟨m, attached, []⟩ =
        (do
          setExpiry key options.deadline now
          pure (respSimpleString (ascii "OK")))
          ⟨m₁, attached, if attached then [[ascii "SET", key, value]] else []⟩ := by
  refine ⟨((m.purge now).purge now).put key (some ⟨.string value, none⟩), ?_, ?_⟩
  · rw [purge_put_purge le_rfl, TypedMap.purge_purge le_rfl]
    rfl
  · have called : call (Storage.set key value now)
        (⟨m.purge now, attached, []⟩ : Session (TypedMap .native)) =
        (.ok (), ⟨((m.purge now).purge now).put key (some ⟨.string value, none⟩), attached, []⟩) :=
      call_onKey_ok rfl
    unfold SetOptions.writes at writes
    rw [set_run first second parsed, if_neg (by grind), bind_of_ok call_existsKey, if_neg (by grind),
      bind_of_ok called, bind_of_ok (propagate_apply _)]
    rfl

/-- A `SET` that does not write. -/
lemma set_still (attached : Bool) (first : arguments[1]? = some key)
    (second : arguments[2]? = some value)
    (parsed : parseSetOptions now (arguments.drop 3) {} = .ok options)
    (writes : options.writes ((m.purge now).find key).isSome = false) :
    ∃ m', m'.purge now = m.purge now ∧
      (Handler.set arguments now ⟨m, attached, []⟩).2 = ⟨m', attached, []⟩ := by
  unfold SetOptions.writes at writes
  rw [set_run first second parsed]
  by_cases both : options.onlyIfMissing ∧ options.onlyIfPresent
  · rw [if_pos both]
    exact ⟨m, rfl, rfl⟩
  · rw [if_neg both, bind_of_ok call_existsKey, if_pos (by grind)]
    exact ⟨m.purge now, TypedMap.purge_purge le_rfl, rfl⟩

/-- The record of a string without a deadline. -/
lemma setRecord_replays {m m' : TypedMap .native}
    (stored : m'.purge t = (m.purge t).put key (some ⟨.string value, none⟩)) :
    RecordReplays t [ascii "SET", key, value] m m' := by
  intro copy shows
  have first : [ascii "SET", key, value][1]? = some key := rfl
  have second : [ascii "SET", key, value][2]? = some value := rfl
  have parsed : parseSetOptions t ([ascii "SET", key, value].drop 3) {} = .ok {} := rfl
  have writes : SetOptions.writes {} ((copy.purge t).find key).isSome = true := by
    cases ((copy.purge t).find key).isSome <;> rfl
  obtain ⟨copy', purged, ran⟩ := set_apply false first second parsed writes
  change DataHandler.set.run _ t ⟨copy, false, []⟩ = (.ok _, ⟨copy', false, []⟩) at ran
  refine ⟨copy', ⟨_, .set, resolve_set, rfl, ?_, ?_⟩, ?_⟩
  · rw [ran]
    rfl
  · rw [ran]
  · rw [purged, shows, stored]

/-- A map in which a string without a deadline has been stored. -/
lemma string_stored {m' : TypedMap .native} (le : t ≤ t') (sound : m.Sound t)
    (stored : m'.purge t = (m.purge t).put key (some ⟨.string value, none⟩)) :
    m'.purge t' = (m.purge t').put key (some ⟨.string value, none⟩) ∧ m'.Sound t := by
  refine ⟨?_, sound.of_put stored fun s e => ?_⟩
  · rw [← TypedMap.purge_purge le, stored, purge_put_purge le]
    rfl
  · cases e
    rfl

/-- A `SET` that writes without a deadline. -/
lemma set_logs_plain (le : t ≤ t') (sound : m.Sound t) (first : arguments[1]? = some key)
    (second : arguments[2]? = some value)
    (parsed : parseSetOptions t (arguments.drop 3) {} = .ok options)
    (writes : options.writes ((m.purge t).find key).isSome = true) (unset : options.deadline = none) :
    DataHandler.set.Logs t t' arguments m := by
  obtain ⟨m₁, stored, ran⟩ := set_apply true first second parsed writes
  obtain ⟨later, held⟩ := string_stored le sound stored
  rw [unset] at ran
  exact .of_run (congrArg Prod.snd ran) (.one (setRecord_replays later)) held fun _ => le_rfl

/-- The deadline of a `SET` that has written the string. -/
lemma setExpiry_apply {deadline : Int} {records : List (List Bytes)} (future : now < deadline)
    (shown : (m.purge now).find key = some ⟨.string value, none⟩) :
    setExpiry key (some deadline) now (⟨m, true, records⟩ : Session (TypedMap .native)) =
      (.ok (), ⟨(m.purge now).put key (some ⟨.string value, deadlineOf deadline⟩), true,
        records ++ [[ascii "PEXPIREAT", key, Decimal.ofInt deadline]]⟩) := by
  have set : expiredSlot deadline now (some ⟨.string value, none⟩) =
      some ⟨.string value, deadlineOf deadline⟩ := by
    rw [expiredSlot, if_neg (by omega)]
    rfl
  rw [setExpiry, bind_of_ok call_expireAtMs, shown, set]
  rfl

/-- A `SET` that writes with a deadline. -/
lemma set_logs_deadline {deadline : Int} (le : t ≤ t') (sound : m.Sound t)
    (safe : DataHandler.set.Safe t' t arguments (m.purge t).find) (first : arguments[1]? = some key)
    (second : arguments[2]? = some value)
    (parsed : parseSetOptions t (arguments.drop 3) {} = .ok options)
    (writes : options.writes ((m.purge t).find key).isSome = true)
    (given : options.deadline = some deadline) : DataHandler.set.Logs t t' arguments m := by
  obtain ⟨m₁, stored, ran⟩ := set_apply true first second parsed writes
  obtain ⟨future, range⟩ := parseSetOptions_range parsed (by simp) deadline given
  obtain ⟨later, held⟩ := string_stored le sound stored
  have shown : (m₁.purge t).find key = some ⟨.string value, none⟩ := by
    rw [stored, TypedMap.find_put, Function.update_self]
  rw [given, if_pos rfl, bind_of_ok (setExpiry_apply (by omega) shown)] at ran
  refine .of_run (congrArg Prod.snd ran) ?_ ?_ fun other =>
    absurd ⟨rfl, key, options, deadline, first, parsed, writes, given⟩ other
  · refine .cons (setRecord_replays later) (.one (expiryRecord_replays range ?_))
    rw [purge_put_purge le, later, TypedMap.find_put, Function.update_self, expiredSlot]
    by_cases gone : deadline ≤ t'
    · have proper := safe.set rfl key options deadline first parsed writes given gone
      rw [if_pos gone, Slot.filter_dead]
      rw [Slot.liveAt, deadlineOf, if_neg proper]
      exact decide_eq_false (by omega)
    · rw [if_neg gone, Slot.filter_live (Slot.liveAt_of_future (by omega))]
      rfl
  · refine held.put fun s stored => ?_
    cases stored
    rfl

lemma set_logs (isSet : handler = .set) (le : t ≤ t') (sound : m.Sound t)
    (safe : handler.Safe t' t arguments (m.purge t).find) (first : arguments[1]? = some key)
    (second : arguments[2]? = some value) : handler.Logs t t' arguments m := by
  subst isSet
  cases parsed : parseSetOptions t (arguments.drop 3) {} with
  | error payload =>
    apply still_logs sound
    show (Handler.set arguments t ⟨m, true, []⟩).2 = _
    rw [Handler.set, argument_bind first, argument_bind second, parsed]
    rfl
  | ok options =>
    cases writes : options.writes ((m.purge t).find key).isSome with
    | false =>
      obtain ⟨m', same, ran⟩ := set_still true first second parsed writes
      refine .of_run ran (.nil ?_) ?_ fun _ => Nat.zero_le 1
      · rw [← TypedMap.purge_purge le, ← same, TypedMap.purge_purge le]
      · exact fun a slot found => sound a slot (same ▸ found)
    | true =>
      cases given : options.deadline with
      | none => exact set_logs_plain le sound first second parsed writes given
      | some deadline => exact set_logs_deadline le sound safe first second parsed writes given

end Set

section Reads

/-- Both sides are one map, which shows what `m` shows. -/
def SameShown (t : Int) (m s u : TypedMap .native) : Prop :=
  s = u ∧ s.purge t = m.purge t

lemma SameShown.reads {α : Type} {op : SlotOp α} (keeps : ∀ slot, (op slot).2 = slot) (key : Bytes) :
    Simulates (SameShown t m) (TypedMap.onKey key t op) (TypedMap.onKey key t op) := by
  rintro s _ ⟨rfl, same⟩
  refine ⟨rfl, rfl, ?_⟩
  rw [TypedMap.onKey, keeps, TypedMap.put_self, TypedMap.purge_purge le_rfl, same]

open SlotOp in
/-- The reading operations leave what the map shows. -/
lemma storageReads_sameShown :
    StorageReads (σ := TypedMap .native) (τ := TypedMap .native) (fun _ => True) t
      (SameShown t m) where
  existsKey key _ := SameShown.reads (fun _ => rfl) key
  type key _ := SameShown.reads (fun _ => rfl) key
  keys pattern := by
    rintro s _ ⟨rfl, same⟩
    exact ⟨rfl, rfl, (TypedMap.purge_purge le_rfl).trans same⟩
  get key _ := SameShown.reads read_keeps key
  stringLength key _ := SameShown.reads read_keeps key
  ttlMs key _ := SameShown.reads ttlWith_keeps key
  listRange key _ _ _ := SameShown.reads read_keeps key
  listIndex key _ _ := SameShown.reads read_keeps key
  listLength key _ := SameShown.reads read_keeps key
  hashGet key _ _ := SameShown.reads read_keeps key
  hashGetAll key _ := SameShown.reads read_keeps key
  hashLength key _ := SameShown.reads read_keeps key
  hashExists key _ _ := SameShown.reads read_keeps key
  setMembers key _ := SameShown.reads read_keeps key
  setIsMember key _ _ := SameShown.reads read_keeps key
  setCardinality key _ := SameShown.reads read_keeps key

/-- The reading commands record nothing, and there is nothing to reproduce. -/
lemma read_logs (isRead : handler.isRead = true) (le : t ≤ t') (sound : m.Sound t) :
    handler.Logs t t' arguments m := by
  have lifts : Lifts (SameShown t m) fun s u : Session (TypedMap .native) =>
      s = u ∧ s.records = [] ∧ s.store.purge t = m.purge t := by
    constructor
    · rintro s _ ⟨rfl, _, same⟩
      exact ⟨rfl, same⟩
    · rintro s _ s' _ ⟨rfl, none_, _⟩ ⟨rfl, same⟩
      exact ⟨rfl, none_, same⟩
  have run := handler.read_simulates isRead lifts storageReads_sameShown
    (fun _ key _ => SameShown.reads SlotOp.ttlWith_keeps key)
    fun argument (_ : argument ∈ arguments.drop 1) => trivial
  obtain ⟨_, _, none_, same⟩ := run ⟨m, true, []⟩ ⟨m, true, []⟩ ⟨rfl, rfl, rfl⟩
  constructor
  · rw [none_]
    refine .nil ?_
    rw [← TypedMap.purge_purge le, ← same, TypedMap.purge_purge le]
  · intro a slot found
    exact sound a slot (same ▸ found)
  · rw [none_]
    exact fun _ => Nat.zero_le 1

end Reads

/-- The records of a safe data command reproduce what the command did. -/
lemma DataHandler.logs (found : resolve arguments = .dispatch spec)
    (data : spec.handler = .data handler) (le : t ≤ t') (sound : m.Sound t)
    (safe : handler.Safe t' t arguments (m.purge t).find) : handler.Logs t t' arguments m := by
  have enough : handler.reads ≤ arguments.length := by
    have enough := (enough_of_dispatch found).1
    rwa [data] at enough
  have arity := le_length_of_arityFits (resolve_dispatch found).2
  have table : ∀ entry ∈ commandTable,
      (entry.2.handler ∈ [.data .lpush, .data .rpush, .data .sadd, .data .hdel, .data .srem] →
        3 ≤ entry.2.arity.natAbs) ∧
      (entry.2.handler = .data .hset → 4 ≤ entry.2.arity.natAbs) := by decide
  have elements := table _ (mem_of_lookup (resolve_dispatch found).1)
  rw [data] at elements
  have get : ∀ i, i < arguments.length → ∃ value, arguments[i]? = some value :=
    fun i lt => ⟨_, List.getElem?_eq_getElem lt⟩
  cases handler with
  | flushall => exact flushall_logs rfl
  | del => exact del_logs rfl found data le sound
  | mset => exact mset_logs rfl found data le sound
  | set =>
    obtain ⟨key, first⟩ := get 1 (by change 3 ≤ _ at enough; omega)
    obtain ⟨value, second⟩ := get 2 enough
    exact set_logs rfl le sound safe first second
  | expire | pexpire | expireat | pexpireat =>
    obtain ⟨key, first⟩ := get 1 (by change 3 ≤ _ at enough; omega)
    exact expire_logs (fun _ _ _ => rfl) rfl le sound safe first
  | persist =>
    obtain ⟨key, first⟩ := get 1 enough
    exact persist_logs found data le sound safe first rfl
  | incr | decr =>
    obtain ⟨key, first⟩ := get 1 enough
    exact increment_logs found data le sound safe first (fun _ _ _ => rfl) fun _ h => h
  | incrby =>
    obtain ⟨key, first⟩ := get 1 (by change 3 ≤ _ at enough; omega)
    obtain ⟨text, second⟩ := get 2 enough
    cases parsed : parseStrictInteger text with
    | none =>
      apply still_logs sound
      show (Handler.incrby arguments t ⟨m, true, []⟩).2 = _
      rw [Handler.incrby, argument_bind second, parsed]
      rfl
    | some delta =>
      have run : ∀ now session, DataHandler.incrby.run (σ := TypedMap .native) arguments now session =
          increment arguments delta now session := by
        intro now session
        show Handler.incrby arguments now session = _
        rw [Handler.incrby, argument_bind second, parsed]
      refine increment_logs found data le sound safe first (fun _ _ _ => run _ _)
        fun value h => ⟨delta, ?_, h⟩
      rw [amountArgument, second, Option.bind_some, parsed]
  | decrby =>
    obtain ⟨key, first⟩ := get 1 (by change 3 ≤ _ at enough; omega)
    obtain ⟨text, second⟩ := get 2 enough
    cases parsed : parseStrictInteger text with
    | none =>
      apply still_logs sound
      show (Handler.decrby arguments t ⟨m, true, []⟩).2 = _
      rw [Handler.decrby, argument_bind second, parsed]
      rfl
    | some delta =>
      have run : ∀ now session, DataHandler.decrby.run (σ := TypedMap .native) arguments now session =
          (if delta = int64Min then pure (respError (ascii "decrement would overflow"))
          else increment arguments (-delta) now : Handling (TypedMap .native) Bytes) session := by
        intro now session
        show Handler.decrby arguments now session = _
        rw [Handler.decrby, argument_bind second, parsed]
      by_cases least : delta = int64Min
      · apply still_logs sound
        rw [run, if_pos least]
        rfl
      · refine increment_logs found data le sound safe first
          (fun _ _ _ => by rw [run, if_neg least]) fun value h => ⟨delta, ?_, least, h⟩
        rw [amountArgument, second, Option.bind_some, parsed]
  | append =>
    obtain ⟨key, first⟩ := get 1 (by change 3 ≤ _ at enough; omega)
    obtain ⟨value, second⟩ := get 2 enough
    exact append_logs found data le sound safe first rfl second
  | lpush | rpush =>
    obtain ⟨key, first⟩ := get 1 enough
    exact push_logs found data le sound safe first ((elements.1 (by decide)).trans arity)
      (fun _ _ _ => rfl) fun _ h => h
  | lpop | rpop =>
    obtain ⟨key, first⟩ := get 1 enough
    exact pop_logs found data le sound first fun _ _ _ => rfl
  | hset =>
    obtain ⟨key, first⟩ := get 1 enough
    exact hset_logs found data le sound safe first rfl ((elements.2 rfl).trans arity)
  | hdel =>
    obtain ⟨key, first⟩ := get 1 enough
    exact hdel_logs found data le sound first rfl ((elements.1 (by decide)).trans arity)
  | sadd =>
    obtain ⟨key, first⟩ := get 1 enough
    exact sadd_logs found data le sound safe first rfl ((elements.1 (by decide)).trans arity)
  | srem =>
    obtain ⟨key, first⟩ := get 1 enough
    exact srem_logs found data le sound first rfl ((elements.1 (by decide)).trans arity)
  | _ => exact read_logs rfl le sound

end Handlers

end FlashKV
