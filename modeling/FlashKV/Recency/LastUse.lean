import FlashKV.Database.Eviction
import FlashKV.Recency.Place

/-!
# Recency over whole runs

The last use of a key is the latest of its creation and of the successful calls that found it and
used its value. The recency list is meant to be in the order of the last uses, so that eviction from
its back evicts the keys that have not been used for the longest time. `run_recency` says exactly
when it is: the calls that forget to touch their key must find it in front already.
-/

namespace FlashKV

open Database

section Sublist

variable {db : Database} {key : Bytes} {now : Int}

lemma Database.Linked.sublist_erase (linked : db.Linked) (key : Bytes) :
    (db.erase key).keysByRecency.Sublist db.keysByRecency := by
  cases found : db.data.lookup key with
  | none =>
    have same : db.erase key = db := by
      simp only [Database.erase, clearExpiry_of_absent found, found]
    rw [same]
  | some entry =>
    rw [linked.keysByRecency_erase found]
    exact List.filter_sublist

lemma Database.Linked.sublist_findLive (linked : db.Linked) (key : Bytes) (now : Int) :
    (db.findLive key now).2.keysByRecency.Sublist db.keysByRecency := by
  unfold findLive
  split
  · exact .refl _
  · split
    · exact linked.sublist_erase key
    · exact .refl _

/-- Erasing keys keeps the others in their order. -/
lemma Database.Linked.sublist_erasing {db' : Database} (linked : db.Linked)
    (steps : Mutations .erasing db db') : db'.keysByRecency.Sublist db.keysByRecency := by
  have both : db'.Linked ∧ db'.keysByRecency.Sublist db.keysByRecency := by
    refine steps.preserves (I := fun db' => db'.Linked ∧ db'.keysByRecency.Sublist db.keysByRecency)
      ?_ ⟨linked, .refl _⟩
    rintro db₁ db₂ m ⟨linked, sub⟩
    refine ⟨linked.mutation m, ?_⟩
    cases m with
    | erase => exact (linked.sublist_erase _).trans sub
    | count => exact sub
    | create _ _ may | touch may | setExpiry _ may | clearExpiry _ may | rewrite _ may
    | settings _ _ may | clear may => exact absurd may id
  exact both.2

lemma keysByRecency_setExpiry (deadline : Int) :
    (db.setExpiry key deadline).keysByRecency = db.keysByRecency := by
  refine congrArg (List.map _) ?_
  unfold Database.setExpiry
  split
  · rfl
  · split <;> exact lru_update _

lemma keysByRecency_clearExpiry : (db.clearExpiry key).keysByRecency = db.keysByRecency :=
  congrArg (List.map _) lru_clearExpiry

lemma Database.Linked.sublist_expireAtMs (linked : db.Linked) {unixTimeMs now' : Int} :
    (Database.expireAtMs key unixTimeMs now now' db).2.keysByRecency.Sublist db.keysByRecency := by
  rcases findLive_cases db key now with ⟨entry, hf, _⟩ | ⟨db', hf, _⟩
  · simp only [Database.expireAtMs, hf]
    split
    · exact linked.sublist_erase key
    · rw [keysByRecency_setExpiry]
  · have sub := linked.sublist_findLive key now
    rw [hf] at sub
    simp only [Database.expireAtMs, hf]
    exact sub

/-- The other operations move no key to the front. -/
lemma Op.sublist_of_other {op : Op} (other : op.access = none) (linked : db.Linked) :
    (op.apply db).keysByRecency.Sublist db.keysByRecency := by
  have looked := fun key now => linked.sublist_findLive key now
  cases op <;> try cases other
  case existsKey key now => exact looked key now
  case type key now => exact looked key now
  case keys => exact .refl _
  case clear => exact List.nil_sublist _
  case setMaxMemory => exact .refl _
  case setEvictionPolicy => exact .refl _
  case del key now =>
    rcases findLive_cases db key now with ⟨entry, hf, _⟩ | ⟨db', hf, _⟩
    · simp only [Op.apply, Database.del, hf]
      exact linked.sublist_erase key
    · have sub := looked key now
      rw [hf] at sub
      simp only [Op.apply, Database.del, hf]
      exact sub
  case expireAtMs => exact linked.sublist_expireAtMs
  case expire key seconds start now now' =>
    show (Database.expire key seconds start now now' db).2.keysByRecency.Sublist _
    unfold Database.expire
    split <;> exact linked.sublist_expireAtMs
  case persist key now =>
    rcases findLive_cases db key now with ⟨entry, hf, _⟩ | ⟨db', hf, _⟩
    · simp only [Op.apply, Database.persist, hf]
      split
      · exact .refl _
      · rw [keysByRecency_clearExpiry]
    · have sub := looked key now
      rw [hf] at sub
      simp only [Op.apply, Database.persist, hf]
      exact sub
  case ttlMs key now now' =>
    show (Database.ttlMs key now now' db).2.keysByRecency.Sublist _
    rw [ttlMs_state]
    exact looked key now
  case ttl key now now' =>
    show (Database.ttl key now now' db).2.keysByRecency.Sublist _
    rw [ttl_state]
    exact looked key now
  case activeExpireCycle => exact linked.sublist_erasing (activeExpireCycle_mutates trivial)
  case evictIfNeeded => exact linked.sublist_erasing (evictIfNeeded_mutates trivial)

end Sublist

/-- The key that the call uses: it finds the key and returns, or it creates the key. -/
def Op.used (db : Database) (op : Op) : Option Bytes :=
  op.access.bind fun (key, now) =>
    if (db.findLive key now).1.isSome then
      if op.succeeds db then some key else none
    else if ((op.apply db).data.lookup key).isSome then some key
    else none

/-- The key that the call uses without moving it to the front. -/
def Op.skipped (db : Database) (op : Op) : Option Bytes :=
  op.access.bind fun (key, now) =>
    match (db.findLive key now).1 with
    | some entry => if op.skips entry.value then some key else none
    | none => none

/-- What a call does to the recency list, by the key that it uses and the one that it skips. -/
inductive Op.Effect (before after : List Bytes) : (used skipped : Option Bytes) → Prop where
  | unused :
    after.Sublist before →
    Effect before after none none
  | skipped {key} :
    after = before →
    key ∈ before →
    Effect before after (some key) (some key)
  | front {key rest} :
    after = key :: rest →
    key ∉ rest →
    rest.Sublist before →
    Effect before after (some key) none
  | gone {key} :
    key ∉ after →
    after.Sublist before →
    Effect before after (some key) none

/-- A key in the list was there before or has been used. -/
lemma Op.Effect.mem {before after : List Bytes} {used skipped : Option Bytes} {a : Bytes}
    (effect : Op.Effect before after used skipped) (mem : a ∈ after) : used = some a ∨ a ∈ before := by
  cases effect with
  | unused sub => exact .inr (sub.subset mem)
  | skipped same => exact .inr (same ▸ mem)
  | front e _ sub =>
    rw [e] at mem
    rcases List.mem_cons.mp mem with rfl | mem
    · exact .inl rfl
    · exact .inr (sub.subset mem)
  | gone _ sub => exact .inr (sub.subset mem)

/-- Every call has one of these effects. -/
lemma Op.effect {db : Database} (linked : db.Linked) (op : Op) :
    Op.Effect db.keysByRecency (op.apply db).keysByRecency (op.used db) (op.skipped db) := by
  cases access : op.access with
  | none =>
    simp only [Op.used, Op.skipped, access, Option.bind_none]
    exact .unused (op.sublist_of_other access linked)
  | some target =>
    obtain ⟨key, now⟩ := target
    obtain ⟨α, succeeds, act, ranks, acts, applied, succeeded⟩ := Op.ranks access
    have linked' : (op.apply db).Linked := linked.mutations (op.mutates db)
    have disturbs : List.Disturbs (· = key) db.keysByRecency (op.apply db).keysByRecency := by
      rw [applied]
      have steps := acts.mutates rfl db
      exact steps.disturbs (K := (· = key)) (fun _ named => named) linked id id
    -- a key in front is there once, and the others have kept their order
    have inFront : ∀ {used skipped}, used = some key → skipped = none →
        (op.apply db).keysByRecency.head? = some key →
        Op.Effect db.keysByRecency (op.apply db).keysByRecency used skipped := by
      rintro _ _ rfl rfl head
      obtain ⟨rest, e⟩ := List.head?_eq_some_iff.mp head
      have nodup : (op.apply db).keysByRecency.Nodup := linked'.nodup
      rw [e] at nodup disturbs
      have once := (List.nodup_cons.mp nodup).1
      exact .front e once (disturbs.tail once)
    rcases findLive_cases db key now with ⟨entry, hf, found, live, _⟩ | ⟨db', hf, gone, _⟩
    · have place := ranks.present db entry hf linked found live
      rw [← applied, ← succeeded] at place
      have used : op.used db = if op.succeeds db then some key else none := by
        simp [Op.used, access, hf]
      have skipped : op.skipped db = if op.skips entry.value then some key else none := by
        simp [Op.skipped, access, hf]
      rw [used, skipped]
      generalize op.succeeds db = succeeded, op.skips entry.value = skips at place
      cases place with
      | failed same => exact .unused (same ▸ .refl _)
      | skipped same => exact .skipped same (linked.mem_keysByRecency.mpr ⟨entry, found⟩)
      | front head => exact inFront rfl rfl head
      | gone absent => exact .gone absent (disturbs.sublist absent)
    · have skipped : op.skipped db = none := by simp [Op.skipped, access, hf]
      have used : op.used db = if ((op.apply db).data.lookup key).isSome then some key else none := by
        simp [Op.used, access, hf]
      have looked : db'.Linked := by
        have steps := findLive_mutates (p := changesOf key) rfl db now
        rw [hf] at steps
        exact linked.mutations steps
      rcases ranks.absent db db' hf looked gone with same | head
      · rw [← applied] at same
        have absent : key ∉ (op.apply db).keysByRecency := by
          rw [same, looked.mem_keysByRecency, gone]
          simp
        have missing : (op.apply db).data.lookup key = none := by
          cases stored : (op.apply db).data.lookup key with
          | none => rfl
          | some entry => exact absurd (linked'.mem_keysByRecency.mpr ⟨entry, stored⟩) absent
        rw [used, skipped, missing]
        exact .unused (disturbs.sublist absent)
      · rw [← applied] at head
        have mem : key ∈ (op.apply db).keysByRecency := List.mem_of_mem_head? head
        obtain ⟨entry, stored⟩ := linked'.mem_keysByRecency.mp mem
        exact inFront (by rw [used, stored]; rfl) skipped head

/-- A database with the times of the last uses; time counts the calls. -/
structure Usage where
  database : Database := {}
  calls : Nat := 0
  lastUse : Bytes → Nat := fun _ => 0

namespace Usage

def next (usage : Usage) (op : Op) : Usage where
  database := op.apply usage.database
  calls := usage.calls + 1
  lastUse :=
    match op.used usage.database with
    | some key => Function.update usage.lastUse key (usage.calls + 1)
    | none => usage.lastUse

/-- The last uses after a run from the empty database. -/
def after (ops : List Op) : Usage :=
  ops.foldl next {}

/-- The keys stand in the order of their last uses, and eviction goes by it. -/
structure Ordered (usage : Usage) : Prop where
  recent : List.Recent usage.lastUse usage.database.keysByRecency
  evicted : ∀ victim ∈ usage.database.victims,
    ∀ survivor ∈ (evictIfNeeded usage.database).2.keysByRecency,
      usage.lastUse victim < usage.lastUse survivor

lemma after_concat (ops : List Op) (op : Op) : after (ops ++ [op]) = (after ops).next op :=
  List.foldl_concat ..

/-- The ghost does not change the run. -/
lemma database_after (ops : List Op) : (after ops).database = Op.run ops := by
  induction ops using List.reverseRecOn with
  | nil => rfl
  | append_singleton ops op ih =>
    rw [after_concat, Op.run, List.foldl_concat]
    exact congrArg (Op.apply · op) ih

/-- What holds whether keys are skipped or not: no stored key has a last use in the future. -/
structure Sound (usage : Usage) : Prop where
  linked : usage.database.Linked
  past : ∀ key ∈ usage.database.keysByRecency, usage.lastUse key ≤ usage.calls

section Steps

variable {usage : Usage} {op : Op}

/-- The last uses after a call. -/
lemma lastUse_next (key : Bytes) :
    (usage.next op).lastUse key =
      if op.used usage.database = some key then usage.calls + 1 else usage.lastUse key := by
  unfold next
  cases used : op.used usage.database with
  | none => simp
  | some other =>
    by_cases e : other = key
    · subst e
      simp
    · simp [e, Function.update_of_ne (Ne.symm e)]

lemma Sound.next (sound : usage.Sound) (op : Op) : (usage.next op).Sound := by
  refine ⟨sound.linked.mutations (op.mutates usage.database), fun key mem => ?_⟩
  rw [lastUse_next]
  split
  · exact le_rfl
  · rename_i unused
    have old := ((Op.effect sound.linked op).mem mem).resolve_left unused
    exact (sound.past key old).trans (Nat.le_succ _)

lemma sound_after (ops : List Op) : (after ops).Sound := by
  induction ops using List.reverseRecOn with
  | nil => exact ⟨linked_empty, fun _ mem => by cases mem⟩
  | append_singleton ops op ih =>
    rw [after_concat]
    exact ih.next op

/-- A call keeps the order of the last uses if a key that it skips is in front. -/
lemma Sound.recent_next (sound : usage.Sound)
    (recent : List.Recent usage.lastUse usage.database.keysByRecency)
    (front : ∀ key, op.skipped usage.database = some key →
      usage.database.keysByRecency.head? = some key) :
    List.Recent (usage.next op).lastUse (usage.next op).database.keysByRecency := by
  have latest : ∀ key ∈ usage.database.keysByRecency, usage.lastUse key < usage.calls + 1 :=
    fun key mem => Nat.lt_succ_of_le (sound.past key mem)
  have effect := Op.effect sound.linked op
  unfold Usage.next
  dsimp only
  revert effect front
  generalize op.used usage.database = used, op.skipped usage.database = skipped
  intro front effect
  cases effect with
  | unused sub => exact recent.sublist sub
  | @skipped key same mem =>
    obtain ⟨rest, e⟩ := List.head?_eq_some_iff.mp (front key rfl)
    have nodup : usage.database.keysByRecency.Nodup := sound.linked.nodup
    rw [same, e]
    rw [e] at recent latest nodup
    have others : List.Recent usage.lastUse rest := recent.sublist (List.sublist_cons_self key rest)
    exact others.cons (List.nodup_cons.mp nodup).1 fun b mem => latest b (List.mem_cons_of_mem key mem)
  | front e once sub =>
    rw [e]
    exact (recent.sublist sub).cons once fun b mem => latest b (sub.subset mem)
  | gone absent sub => exact (recent.sublist sub).update absent _

/-- A key that is skipped and not in front stands behind a key with an earlier last use. -/
lemma Sound.front_of_recent {key : Bytes} (sound : usage.Sound)
    (recent : List.Recent (usage.next op).lastUse (usage.next op).database.keysByRecency)
    (skips : op.skipped usage.database = some key) :
    usage.database.keysByRecency.head? = some key := by
  have effect := Op.effect sound.linked op
  obtain ⟨used, same, mem⟩ : op.used usage.database = some key ∧
      (op.apply usage.database).keysByRecency = usage.database.keysByRecency ∧
      key ∈ usage.database.keysByRecency := by
    rw [skips] at effect
    revert effect
    generalize op.used usage.database = used
    intro effect
    cases effect with
    | skipped same mem => exact ⟨rfl, same, mem⟩
  change List.Recent _ (op.apply usage.database).keysByRecency at recent
  rw [same] at recent
  cases list : usage.database.keysByRecency with
  | nil =>
    rw [list] at mem
    cases mem
  | cons first rest =>
    rw [list] at mem recent
    by_cases e : first = key
    · rw [e]
      rfl
    · have behind : key ∈ rest := (List.mem_cons.mp mem).resolve_left (Ne.symm e)
      have less := (List.pairwise_cons.mp recent).1 key behind
      have other : op.used usage.database ≠ some first := by
        rw [used]
        exact fun same => e (Option.some.inj same).symm
      rw [lastUse_next, lastUse_next, if_pos used, if_neg other] at less
      have old := sound.past first (list ▸ List.mem_cons_self)
      omega

end Steps

end Usage

section Eviction

/-- Eviction from the back of a list in the order of the last uses evicts the keys with the earliest
ones. -/
lemma evictLoop_recent {use : Bytes → Nat} (fuel : Nat) {db : Database} (linked : db.Linked)
    (recent : List.Recent use db.keysByRecency) :
    ∀ victim ∈ (evictLoop fuel db).1.2, ∀ survivor ∈ (evictLoop fuel db).2.keysByRecency,
      use victim < use survivor := by
  induction fuel generalizing db with
  | zero => exact fun _ mem => by cases mem
  | succ fuel ih =>
    unfold evictLoop
    split
    · exact fun _ mem => by cases mem
    · split
      · exact fun _ mem => by cases mem
      · split
        · exact fun _ mem => by cases mem
        · rename_i last found
          have back : db.keysByRecency.getLast? = some last.key := by
            rw [keysByRecency, List.getLast?_map, found]
            rfl
          obtain ⟨entry, present⟩ := linked.mem_keysByRecency.mp (List.mem_of_getLast? back)
          have steps : Mutations .erasing db (db.evictOne last.key) :=
            evictOne_mutates trivial last.key db
          have left : (db.evictOne last.key).keysByRecency = db.keysByRecency.filter (· ≠ last.key) :=
            linked.keysByRecency_erase present
          have linked' := linked.mutations steps
          have rest := ih linked' (recent.sublist (linked.sublist_erasing steps))
          intro victim evicted survivor survives
          rcases List.mem_cons.mp evicted with rfl | evicted
          · -- what survives was in front of the last key
            have later : Mutations .erasing (db.evictOne last.key)
                (evictLoop fuel (db.evictOne last.key)).2 := evictLoop_mutates trivial fuel _
            have mem := (linked'.sublist_erasing later).subset survives
            rw [left] at mem
            obtain ⟨mem, other⟩ := List.mem_filter.mp mem
            exact (recent.getLast back mem).resolve_left (by simpa using other)
          · exact rest victim evicted survivor survives

lemma Usage.Sound.ordered {usage : Usage} (sound : usage.Sound)
    (recent : List.Recent usage.lastUse usage.database.keysByRecency) : usage.Ordered where
  recent := recent
  evicted := by
    by_cases unlimited : usage.database.memoryLimit = 0
    · rw [victims_of_unlimited unlimited]
      exact fun _ mem => by cases mem
    · have loop := evictLoop_recent (usage.database.lru.length + 1) sound.linked recent
      unfold victims evictIfNeeded
      rw [if_neg unlimited]
      exact loop

end Eviction

/-- The recency list is in the order of the last uses, and eviction goes by it, in every state of a
run if and only if every call that skips its key finds it in front. -/
theorem run_recency (ops : List Op) :
    (∀ before, before <+: ops → (Usage.after before).Ordered) ↔
    ∀ before op, before ++ [op] <+: ops → ∀ key, op.skipped (Op.run before) = some key →
      (Op.run before).keysByRecency.head? = some key := by
  constructor
  · intro ordered before op cut key skips
    have recent := (ordered _ cut).recent
    rw [Usage.after_concat] at recent
    rw [← Usage.database_after] at skips ⊢
    exact (Usage.sound_after before).front_of_recent recent skips
  · intro front before cut
    refine (Usage.sound_after before).ordered ?_
    induction before using List.reverseRecOn with
    | nil => exact List.Pairwise.nil
    | append_singleton before op ih =>
      have recent := ih ((List.prefix_append before [op]).trans cut)
      rw [Usage.after_concat]
      refine (Usage.sound_after before).recent_next recent fun key skips => ?_
      rw [Usage.database_after] at skips ⊢
      exact front before op cut key skips

/-- A key whose length has just been asked for is evicted before one that was used earlier. -/
theorem run_recency_stringLength :
    let usage := Usage.after [.setEvictionPolicy .allKeysLru, .setMaxMemory 100,
      .set (ascii "a") (ascii "1") 0, .set (ascii "b") (ascii "1") 0, .stringLength (ascii "a") 0]
    usage.database.keysByRecency = [ascii "b", ascii "a"] ∧ usage.database.victims = [ascii "a"] ∧
    usage.lastUse (ascii "b") < usage.lastUse (ascii "a") ∧ ¬ usage.Ordered := by
  intro usage
  have list : usage.database.keysByRecency = [ascii "b", ascii "a"] := by decide +kernel
  have later : usage.lastUse (ascii "b") < usage.lastUse (ascii "a") := by decide +kernel
  refine ⟨list, by decide +kernel, later, fun ordered => ?_⟩
  have recent := ordered.recent
  rw [list] at recent
  have earlier := (List.pairwise_cons.mp recent).1 (ascii "a") (by simp)
  omega

end FlashKV
