import FlashKV.Database.ActiveExpire
import FlashKV.Database.Removal

/-!
# What a cycle of active expiration removes

`CycleLoop` is the loop of `activeExpireCycle` without a bound on its rounds. The cycle follows it to
its end, since a round that goes on has removed a key. It removes expired keys only, and if all keys
with a deadline are expired and the time suffices, it removes all of them.
-/

namespace FlashKV

namespace Database

/-- The outer loop of `activeExpireCycle`, from the state before a round to the result. -/
inductive CycleLoop (choices : CycleChoices) (samplesPerLoop : Nat) (now : Int) :
    Nat → Nat → Nat → Database → Nat × Database → Prop where
  | empty {round picked removed db} :
    db.volatileKeys = [] →
    CycleLoop choices samplesPerLoop now round picked removed db (removed, db)
  | stop {round picked removed db sampled expired db'} :
    db.volatileKeys ≠ [] →
    sampleExpired choices.pick now (min samplesPerLoop db.volatileKeys.length) picked (0, 0) db =
      ((sampled, expired), db') →
    expired * 4 ≤ sampled ∨ choices.overBudget round = true →
    CycleLoop choices samplesPerLoop now round picked removed db
      (removed + expired, db'.count fun s => { s with expiredKeys := s.expiredKeys + expired })
  | again {round picked removed db sampled expired db' result} :
    db.volatileKeys ≠ [] →
    sampleExpired choices.pick now (min samplesPerLoop db.volatileKeys.length) picked (0, 0) db =
      ((sampled, expired), db') →
    sampled < expired * 4 →
    choices.overBudget round = false →
    CycleLoop choices samplesPerLoop now (round + 1) (picked + sampled) (removed + expired)
      (db'.count fun s => { s with expiredKeys := s.expiredKeys + expired }) result →
    CycleLoop choices samplesPerLoop now round picked removed db result

/-- Expired keys have been removed, and the shared structures are in order. -/
structure Reclaimed (now : Int) (victims : List Bytes) (db db' : Database) : Prop extends
    Removed victims db db' where
  linked : db'.Linked
  indexed : db'.Indexed
  expired : ∀ key ∈ victims, ∃ entry, db.data.lookup key = some entry ∧
    entry.expiresAtMs ≠ noExpiry ∧ entry.expiresAtMs ≤ now

/-- All keys with a deadline are expired. -/
def AllExpired (now : Int) (db : Database) : Prop :=
  ∀ key ∈ db.volatileKeys, ∀ entry, db.data.lookup key = some entry → entry.expiresAtMs ≤ now

section Sampling

variable {db db' : Database} {now : Int} {victims : List Bytes} {key : Bytes} {entry : Entry}

lemma Reclaimed.refl (now : Int) (linked : db.Linked) (indexed : db.Indexed) :
    Reclaimed now [] db db where
  toRemoved := .refl db
  linked := linked
  indexed := indexed
  expired _ mem := absurd mem List.not_mem_nil

/-- An expired key is sampled. -/
lemma Reclaimed.erase (h : Reclaimed now victims db db') (sampled : key ∈ db'.volatileKeys)
    (present : db'.data.lookup key = some entry) (past : entry.expiresAtMs ≤ now) :
    Reclaimed now (victims ++ [key]) db (db'.erase key) where
  toRemoved := h.toRemoved.erase h.linked present
  linked := h.linked.erase present
  indexed := h.indexed.erase present
  expired := by
    intro a victim
    rcases List.mem_append.mp victim with earlier | last
    · exact h.expired a earlier
    · rw [List.mem_singleton.mp last]
      obtain ⟨old, found, _, expires⟩ := exists_of_holding (h.kept key (h.spared present)) present
      obtain ⟨node, stored, proper⟩ :=
        ((indexConsistent_of h.linked h.indexed).mem_volatile key).mp sampled
      cases present.symm.trans stored
      exact ⟨old, found, by rwa [expires], by rwa [expires]⟩

lemma Reclaimed.count (h : Reclaimed now victims db db') (f : DatabaseStats → DatabaseStats) :
    Reclaimed now victims db (db'.count f) where
  toRemoved := h.toRemoved.count f
  linked := h.linked.congr rfl rfl rfl
  indexed := h.indexed.congr (fun _ => rfl) rfl
  expired := h.expired

/-- The keys with a deadline are those that are left and those that have been removed. -/
lemma Reclaimed.length_volatileKeys (h : Reclaimed now victims db db') (linked : db.Linked)
    (indexed : db.Indexed) :
    db'.volatileKeys.length + victims.length = db.volatileKeys.length := by
  have before := (indexConsistent_of linked indexed).mem_volatile
  have after := (indexConsistent_of h.linked h.indexed).mem_volatile
  -- a removed key is not indexed any more, so the two lists do not overlap
  have disjoint : ∀ a ∈ db'.volatileKeys, ∀ b ∈ victims, a ≠ b := by
    rintro a left b victim rfl
    obtain ⟨entry, present, _⟩ := (after a).mp left
    exact h.spared present victim
  have perm : (db'.volatileKeys ++ victims).Perm db.volatileKeys := by
    refine (List.perm_ext_iff_of_nodup (List.nodup_append.mpr ⟨h.indexed.nodup, h.nodup, disjoint⟩)
      indexed.nodup).mpr fun a => ?_
    rw [List.mem_append, before]
    constructor
    · rintro (left | victim)
      · obtain ⟨entry, present, proper⟩ := (after a).mp left
        obtain ⟨old, found, _, expires⟩ := exists_of_holding (h.kept a (h.spared present)) present
        exact ⟨old, found, by rwa [expires]⟩
      · obtain ⟨entry, found, proper, _⟩ := h.expired a victim
        exact ⟨entry, found, proper⟩
    · rintro ⟨old, found, proper⟩
      by_cases victim : a ∈ victims
      · exact .inr victim
      · obtain ⟨entry, present, _, expires⟩ := exists_of_holding (h.kept a victim).symm found
        exact .inl ((after a).mpr ⟨entry, present, by rwa [expires]⟩)
  rw [← perm.length_eq, List.length_append]

/-- What is left of keys that are all expired. -/
lemma Reclaimed.allExpired (h : Reclaimed now victims db db') (all : db.AllExpired now)
    (linked : db.Linked) (indexed : db.Indexed) : db'.AllExpired now := by
  intro key mem entry present
  obtain ⟨node, stored, proper⟩ := ((indexConsistent_of h.linked h.indexed).mem_volatile key).mp mem
  cases present.symm.trans stored
  obtain ⟨old, found, _, expires⟩ := exists_of_holding (h.kept key (h.spared present)) present
  rw [← expires] at proper ⊢
  exact all key (((indexConsistent_of linked indexed).mem_volatile key).mpr ⟨old, found, proper⟩) old
    found

/-- When no key with a deadline is left, the keys without one remain. -/
lemma Reclaimed.remaining (h : Reclaimed now victims db db') (none_ : db'.volatileKeys = [])
    (key : Bytes) :
    key ∈ db'.data ↔ ∃ entry, db.data.lookup key = some entry ∧ entry.expiresAtMs = noExpiry := by
  rw [← AList.lookup_isSome, Option.isSome_iff_exists]
  constructor
  · rintro ⟨entry, present⟩
    obtain ⟨old, found, _, expires⟩ := exists_of_holding (h.kept key (h.spared present)) present
    refine ⟨old, found, ?_⟩
    by_contra proper
    have mem := ((indexConsistent_of h.linked h.indexed).mem_volatile key).mpr
      ⟨entry, present, by rwa [← expires]⟩
    rw [none_] at mem
    cases mem
  · rintro ⟨old, found, forever⟩
    have spared : key ∉ victims := by
      intro victim
      obtain ⟨entry, found', proper, _⟩ := h.expired key victim
      cases found.symm.trans found'
      exact proper forever
    obtain ⟨entry, present, _⟩ := exists_of_holding (h.kept key spared).symm found
    exact ⟨entry, present⟩

/-- What the picks of one round do: they remove expired keys, and count them. -/
lemma sampleExpired_reclaims (h : Reclaimed now victims db db') (pick : Nat → Nat)
    (samples picked : Nat) (counts : Nat × Nat) :
    ∃ sampled new db'', sampleExpired pick now samples picked counts db' =
        ((sampled, counts.2 + new.length), db'') ∧
      Reclaimed now (victims ++ new) db db'' ∧ db''.statistics = db'.statistics := by
  -- by induction on the picks that are left; the bound was fixed before the index shrank
  induction samples generalizing victims picked counts db' with
  | zero =>
    refine ⟨counts.1, [], db', rfl, ?_, rfl⟩
    rw [List.append_nil]
    exact h
  | succ samples ih =>
    unfold sampleExpired
    split
    · refine ⟨counts.1, [], db', rfl, ?_, rfl⟩
      rw [List.append_nil]
      exact h
    · rename_i key sampled
      split
      · refine ⟨counts.1 + 1, [], db', rfl, ?_, rfl⟩
        rw [List.append_nil]
        exact h
      · rename_i node present
        split
        · rename_i past
          have erased := h.erase (List.mem_of_getElem? sampled) present past
          obtain ⟨sampled', new, db'', e, reclaimed, same⟩ :=
            ih erased (picked + 1) (counts.1 + 1, counts.2 + 1)
          refine ⟨sampled', key :: new, db'', ?_, ?_, ?_⟩
          · rw [e, List.length_cons]
            have count : counts.2 + 1 + new.length = counts.2 + (new.length + 1) := by omega
            rw [← count]
          · rw [← List.singleton_append, ← List.append_assoc]
            exact reclaimed
          · rw [same, statistics_erase]
        · exact ih h _ _

/-- When all keys with a deadline are expired, every pick removes one. -/
lemma sampleExpired_all (linked : db.Linked) (indexed : db.Indexed) (all : db.AllExpired now)
    (pick : Nat → Nat) {samples : Nat} (enough : samples ≤ db.volatileKeys.length) (picked : Nat)
    (counts : Nat × Nat) :
    (sampleExpired pick now samples picked counts db).1 =
      (counts.1 + samples, counts.2 + samples) := by
  induction samples generalizing picked counts db with
  | zero => rfl
  | succ samples ih =>
    -- the index has room for all picks that are left, so this one hits a key
    have index : pick picked % db.volatileKeys.length < db.volatileKeys.length :=
      Nat.mod_lt _ (by omega)
    have sampled := List.getElem?_eq_getElem index
    obtain ⟨node, present, _⟩ := ((indexConsistent_of linked indexed).mem_volatile _).mp
      (List.mem_of_getElem? sampled)
    have past := all _ (List.mem_of_getElem? sampled) node present
    have erased := (Reclaimed.refl now linked indexed).erase (List.mem_of_getElem? sampled) present past
    have left := erased.length_volatileKeys linked indexed
    rw [List.nil_append, List.length_singleton] at left
    unfold sampleExpired
    simp only [sampled, present, if_pos past]
    rw [ih erased.linked erased.indexed (erased.allExpired all linked indexed) (by omega)]
    simp only [Nat.add_assoc, Nat.add_comm 1 samples]

end Sampling

section Loop

variable {db db' : Database} {choices : CycleChoices} {samplesPerLoop : Nat} {now : Int}
  {victims : List Bytes} {round picked removed : Nat} {result : Nat × Database}

/-- With more rounds allowed than there are keys with a deadline, the loop comes to its end. -/
lemma expireRounds_ends (choices : CycleChoices) (samplesPerLoop : Nat) (now : Int)
    (linked : db.Linked) (indexed : db.Indexed) {fuel : Nat}
    (enough : db.volatileKeys.length < fuel) (round picked removed : Nat) :
    CycleLoop choices samplesPerLoop now round picked removed db
      (expireRounds choices samplesPerLoop now fuel round picked removed db) := by
  induction fuel generalizing round picked removed db with
  | zero => omega
  | succ fuel ih =>
    obtain ⟨sampled, new, db', sample, reclaimed, _⟩ :=
      sampleExpired_reclaims (.refl now linked indexed) choices.pick
        (min samplesPerLoop db.volatileKeys.length) picked (0, 0)
    rw [zero_add] at sample
    have counted := reclaimed.count fun s => { s with expiredKeys := s.expiredKeys + new.length }
    unfold expireRounds
    split
    · rename_i none_
      exact .empty none_
    · rename_i some_
      dsimp only
      rw [sample]
      dsimp only
      split
      · rename_i few
        exact .stop some_ sample (.inl few)
      · rename_i many
        split
        · rename_i late
          exact .stop some_ sample (.inr late)
        · rename_i time
          have left := reclaimed.length_volatileKeys linked indexed
          rw [List.nil_append] at left
          -- more than a quarter of the sample was removed, so the index is shorter
          refine .again some_ sample (by omega) (by simpa using time) ?_
          exact ih counted.linked counted.indexed (by change db'.volatileKeys.length < _; omega) _ _ _

/-- The loop removes expired keys, and counts them. -/
lemma CycleLoop.reclaims
    (run : CycleLoop choices samplesPerLoop now round picked removed db' result)
    (h : Reclaimed now victims db db') :
    ∃ new, result.1 = removed + new.length ∧ Reclaimed now (victims ++ new) db result.2 ∧
      result.2.statistics.expiredKeys = db'.statistics.expiredKeys + new.length := by
  induction run generalizing victims with
  | empty _ =>
    refine ⟨[], rfl, ?_, rfl⟩
    rw [List.append_nil]
    exact h
  | @stop _ picked _ db' sampled expired db'' _ sample _ =>
    obtain ⟨_, new, _, sample', reclaimed, same⟩ := sampleExpired_reclaims h choices.pick
      (min samplesPerLoop db'.volatileKeys.length) picked (0, 0)
    rw [zero_add] at sample'
    cases sample.symm.trans sample'
    have counted := reclaimed.count fun s => { s with expiredKeys := s.expiredKeys + new.length }
    refine ⟨new, rfl, counted, ?_⟩
    show db''.statistics.expiredKeys + _ = _
    rw [same]
  | @again _ picked removed db' sampled expired db'' result _ sample _ _ _ ih =>
    obtain ⟨_, new, _, sample', reclaimed, same⟩ := sampleExpired_reclaims h choices.pick
      (min samplesPerLoop db'.volatileKeys.length) picked (0, 0)
    rw [zero_add] at sample'
    cases sample.symm.trans sample'
    obtain ⟨later, count, reclaimed', counted⟩ := ih (reclaimed.count _)
    refine ⟨new ++ later, ?_, ?_, ?_⟩
    · rw [count, List.length_append]
      omega
    · rw [← List.append_assoc]
      exact reclaimed'
    · rw [counted, List.length_append]
      show db''.statistics.expiredKeys + _ + _ = _
      rw [same]
      omega

/-- If all keys with a deadline are expired and the time suffices, the loop ends with none left. -/
lemma CycleLoop.complete
    (run : CycleLoop choices samplesPerLoop now round picked removed db result)
    (linked : db.Linked) (indexed : db.Indexed) (all : db.AllExpired now)
    (samples : 1 ≤ samplesPerLoop) (time : ∀ round, choices.overBudget round = false) :
    result.2.volatileKeys = [] := by
  induction run with
  | empty none_ => exact none_
  | @stop round picked _ db sampled expired db' some_ sample ends =>
    have counts := sampleExpired_all linked indexed all choices.pick
      (Nat.min_le_right samplesPerLoop db.volatileKeys.length) picked (0, 0)
    rw [sample] at counts
    cases counts
    have := List.length_pos_iff.mpr some_
    -- a whole sample has been removed, which is no reason to stop
    rcases ends with few | late
    · omega
    · rw [time round] at late
      cases late
  | @again _ picked _ db sampled expired db' _ _ sample _ _ _ ih =>
    obtain ⟨_, new, _, sample', reclaimed, _⟩ := sampleExpired_reclaims (.refl now linked indexed)
      choices.pick (min samplesPerLoop db.volatileKeys.length) picked (0, 0)
    rw [zero_add] at sample'
    cases sample.symm.trans sample'
    have counted := reclaimed.count fun s => { s with expiredKeys := s.expiredKeys + new.length }
    exact ih counted.linked counted.indexed (counted.allExpired all linked indexed)

end Loop

/-- A cycle of active expiration in a reachable state, for any samples, picks and outcomes of the
budget test. Its loop comes to an end; it removes keys whose deadline is at most the clock reading,
as many as it returns and counts; it leaves the other keys and their order alone. If all keys with a
deadline are expired and the time suffices, exactly the keys without a deadline remain. -/
theorem activeExpireCycle_exact (ops : List Op) (clock : ∀ op ∈ ops, ∀ now ∈ op.readings, 0 ≤ now)
    (choices : CycleChoices) (samplesPerLoop : Nat) (now : Int) :
    let db := Op.run ops
    ∃ removed db', activeExpireCycle choices samplesPerLoop now db = (.ok removed, db') ∧
      CycleLoop choices samplesPerLoop now 0 0 0 db (removed, db') ∧
      (∃ victims, Removed victims db db' ∧
        (∀ key ∈ victims, ∃ entry, db.data.lookup key = some entry ∧ entry.expiresAtMs ≠ noExpiry ∧
          entry.expiresAtMs ≤ now) ∧
        removed = victims.length ∧
        db'.statistics.expiredKeys = db.statistics.expiredKeys + victims.length) ∧
      (db.AllExpired now → 1 ≤ samplesPerLoop → (∀ round, choices.overBudget round = false) →
        db'.volatileKeys = [] ∧
        ∀ key, key ∈ db'.data ↔
          ∃ entry, db.data.lookup key = some entry ∧ entry.expiresAtMs = noExpiry) := by
  intro db
  obtain ⟨linked, indexed⟩ : db.Linked ∧ db.Indexed := run_linked_indexed (fun _ h => h) ops clock
  have run := expireRounds_ends choices samplesPerLoop now linked indexed
    (Nat.lt_succ_self db.volatileKeys.length) 0 0 0
  obtain ⟨victims, count, reclaimed, counted⟩ := run.reclaims (.refl now linked indexed)
  rw [zero_add] at count
  refine ⟨_, _, rfl, run, ⟨victims, reclaimed.toRemoved, reclaimed.expired, count, counted⟩, ?_⟩
  intro all samples time
  have none_ := run.complete linked indexed all samples time
  exact ⟨none_, reclaimed.remaining none_⟩

/-- One of two keys has a deadline that is reached, and is removed. -/
theorem activeExpireCycle_exact_reached :
    let db := Op.run [.set [97] [1] 0, .set [98] [2] 0, .expireAtMs [97] 5 1 1]
    ∃ removed db', activeExpireCycle ⟨id, fun _ => false⟩ 20 9 db = (.ok removed, db') ∧
      db'.volatileKeys = [] := by
  intro db
  have clock : ∀ op ∈ [Op.set [97] [1] 0, .set [98] [2] 0, .expireAtMs [97] 5 1 1],
      ∀ now ∈ op.readings, 0 ≤ now := by decide
  have all : db.AllExpired 9 := by
    intro key mem entry present
    have keys : db.volatileKeys = [[97]] := by decide +kernel
    rw [keys, List.mem_singleton] at mem
    have stored : (db.data.lookup [97]).map (·.expiresAtMs) = some 5 := by decide +kernel
    rw [← mem, present, Option.map_some, Option.some.injEq] at stored
    omega
  obtain ⟨removed, db', ran, _, _, complete⟩ :=
    activeExpireCycle_exact _ clock ⟨id, fun _ => false⟩ 20 9
  exact ⟨removed, db', ran, (complete all (by decide) fun _ => rfl).1⟩

end Database

end FlashKV
