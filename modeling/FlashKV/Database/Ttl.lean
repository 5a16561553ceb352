import FlashKV.Database.Frame

/-!
# Remaining times when the clock ticks

`ttlMs` reads the clock twice: once to see whether the key is live, and once to subtract. When a
tick falls in between, the difference can be negative, and then `-1` and `-2` no longer mean what
they are documented to mean.
-/

namespace FlashKV

/-- The `long long` arguments of a call. -/
def Op.integers : Op → List Int
  | .incrementBy _ delta _ => [delta]
  | .expireAtMs _ unixTimeMs _ _ => [unixTimeMs]
  | .expire _ seconds _ _ _ => [seconds]
  | .listRange _ start stop _ => [start, stop]
  | .listIndex _ index _ => [index]
  | _ => []

/-- The integers that a call is given and the clock readings are `long long`s. -/
def Op.Typed (op : Op) : Prop :=
  ∀ z ∈ op.integers ++ op.readings, IsInt64 z

lemma expireDeadlineOf_typed (seconds : Int) {start : Int} (typed : IsInt64 start) :
    IsInt64 (Database.expireDeadlineOf seconds start) := by
  have greatest : IsInt64 int64Max := ⟨by decide, le_rfl⟩
  unfold Database.expireDeadlineOf
  split
  · exact typed
  · cases fit64 (seconds * 1000) with
    | none => exact greatest
    | some ms =>
      rw [Option.bind_some]
      cases sum : fit64 (start + ms) with
      | none => exact greatest
      | some deadline => exact (fit64_eq_some_iff.mp sum).2

lemma Op.Typed.deadline {op : Op} (typed : op.Typed) {d : Int} (asked : op.deadline = some d) :
    IsInt64 d := by
  cases op with
  | expireAtMs key unixTimeMs now now' =>
    cases asked
    exact typed _ (by simp [Op.integers])
  | expire key seconds start now now' =>
    cases asked
    exact expireDeadlineOf_typed seconds (typed start (by simp [Op.readings]))
  | _ => cases asked

namespace Database

/-- All deadlines are `long long`s. -/
def DeadlinesTyped (db : Database) : Prop :=
  ∀ key entry, db.data.lookup key = some entry → IsInt64 entry.expiresAtMs

lemma DeadlinesTyped.mutation {p : Permits} {db db' : Database} (h : db.DeadlinesTyped)
    (typed : ∀ d, p.deadline d → IsInt64 d) (m : Mutation p db db') : db'.DeadlinesTyped := by
  intro key entry present
  rcases m.deadline_of present with none_ | new | ⟨old, found, same⟩
  · rw [none_]
    exact ⟨by decide, by decide⟩
  · exact typed _ new
  · rw [← same]
    exact h key old found

/-- So they are after every run. -/
lemma run_deadlinesTyped {ops : List Op} (typed : ∀ op ∈ ops, op.Typed) :
    (Op.run ops).DeadlinesTyped := by
  refine Op.run_invariant Op.Typed (fun _ _ present => by cases present) (fun op db typed h => ?_)
    ops typed
  have steps : Mutations (.any IsInt64) db (op.apply db) :=
    op.mutates_of db fun d asked _ => typed.deadline asked
  exact steps.preserves (fun _ _ m h => h.mutation (fun _ ok => ok) m) h

/-- A reply of `ttlMs` or `ttl` that says of a key what it is documented to say, `now'` being the
last clock reading of the call. -/
structure Truthful (db : Database) (key : Bytes) (now' reply : Int) : Prop where
  noDeadline : reply = -1 →
    ∃ entry, db.data.lookup key = some entry ∧ entry.expiresAtMs = noExpiry
  missing : reply = -2 → ∀ entry, db.data.lookup key = some entry →
    entry.expiresAtMs ≠ noExpiry ∧ entry.expiresAtMs ≤ now'
  nonneg : reply ≠ -1 → reply ≠ -2 → 0 ≤ reply

/-- The time left until a deadline comes out truthfully, `slack` more milliseconds being added to it
on the way: the deadline has not passed and nothing overflows; or it passed two milliseconds ago; or
the subtraction underflows and wraps around to something that does not overflow. -/
def Settled (slack deadline now' : Int) : Prop :=
  (0 ≤ deadline - now' ∧ deadline - now' + slack ≤ int64Max) ∨ deadline - now' = -2 ∨
    (deadline - now' < int64Min ∧ deadline - now' + 2 ^ 64 + slack ≤ int64Max)

section Replies

variable {db : Database} {key : Bytes} {now now' : Int} {entry : Entry}

lemma ttl_of_ttlMs {reply : Int} (ms : (ttlMs key now now' db).1 = .ok reply) :
    (ttl key now now' db).1 = .ok (ttlSeconds reply) := by
  unfold ttl
  rcases e : ttlMs key now now' db with ⟨_ | _, db'⟩
  · rw [e] at ms
    cases ms
  · rw [e] at ms
    cases ms
    rw [StateAction.bind_of_ok e]
    rfl

/-- What `ttlMs` replies about a key that has no deadline to come is truthful, and not rounded. -/
lemma ttlMs_of_past (tick : now ≤ now')
    (past : ∀ entry, db.data.lookup key = some entry → entry.expiresAtMs ≠ noExpiry →
      entry.expiresAtMs ≤ now) :
    ∃ reply, (ttlMs key now now' db).1 = .ok reply ∧ ttlSeconds reply = reply ∧
      Truthful db key now' reply := by
  unfold ttlMs findLive
  cases present : db.data.lookup key with
  | none =>
    refine ⟨-2, rfl, rfl, (fun e => by cases e), fun _ _ found => ?_, fun _ e => absurd rfl e⟩
    cases present.symm.trans found
  | some entry =>
    by_cases forever : entry.expiresAtMs = noExpiry
    · have live : entry.expired now = false := by simp [Entry.expired, forever]
      refine ⟨-1, ?_, rfl, fun _ => ⟨entry, present, forever⟩, (fun e => by cases e),
        fun e => absurd rfl e⟩
      simp [live, forever]
    · have reached := past entry present forever
      have dead : entry.expired now = true := by simp [Entry.expired, forever, reached]
      refine ⟨-2, ?_, rfl, (fun e => by cases e), fun _ _ found => ?_, fun _ e => absurd rfl e⟩
      · simp [dead]
      · cases present.symm.trans found
        exact ⟨forever, reached.trans tick⟩

/-- What `ttlMs` replies about a key with a deadline to come. -/
lemma ttlMs_of_future (now' : Int) (present : db.data.lookup key = some entry)
    (proper : entry.expiresAtMs ≠ noExpiry) (future : now < entry.expiresAtMs) :
    (ttlMs key now now' db).1 = .ok (wrap64 (entry.expiresAtMs - now')) := by
  have live : entry.expired now = false := by simp [Entry.expired, future]
  simp [ttlMs, findLive, present, live, proper]

/-- What is truthful about a key with a deadline. -/
lemma truthful_iff (present : db.data.lookup key = some entry)
    (proper : entry.expiresAtMs ≠ noExpiry) (reply : Int) :
    Truthful db key now' reply ↔ 0 ≤ reply ∨ reply = -2 ∧ entry.expiresAtMs ≤ now' := by
  constructor
  · intro h
    by_cases two : reply = -2
    · exact .inr ⟨two, (h.missing two entry present).2⟩
    · refine .inl (h.nonneg (fun one => ?_) two)
      obtain ⟨_, found, none_⟩ := h.noDeadline one
      cases present.symm.trans found
      exact proper none_
  · rintro (nonneg | ⟨rfl, reached⟩)
    · exact ⟨fun e => by omega, fun e => by omega, fun _ _ => nonneg⟩
    · refine ⟨(fun e => by cases e), fun _ _ found => ?_, fun _ e => absurd rfl e⟩
      cases present.symm.trans found
      exact ⟨proper, reached⟩

/-- Where the difference of two `long long`s is after the subtraction. -/
lemma wrap64_cases {z : Int} (least : -2 ^ 64 < z) (greatest : z < 2 ^ 64) :
    (IsInt64 z ∧ wrap64 z = z) ∨ (int64Max < z ∧ wrap64 z = z - 2 ^ 64) ∨
      (z < int64Min ∧ wrap64 z = z + 2 ^ 64) := by
  by_cases above : int64Max < z
  · refine .inr (.inl ⟨above, ?_⟩)
    have shifted : wrap64 z = wrap64 (z - 2 ^ 64) := by
      unfold wrap64
      exact (Int.sub_bmod_right z _).symm
    rw [shifted, wrap64_of_fits]
    · unfold int64Min int64Max at *
      omega
    · unfold int64Max
      omega
  · by_cases below : z < int64Min
    · refine .inr (.inr ⟨below, ?_⟩)
      have shifted : wrap64 z = wrap64 (z + 2 ^ 64) := by
        unfold wrap64
        exact (Int.add_bmod_right z _).symm
      rw [shifted, wrap64_of_fits]
      · unfold int64Min
        omega
      · unfold int64Min int64Max at *
        omega
    · have range : IsInt64 z := ⟨by omega, by omega⟩
      exact .inl ⟨range, wrap64_of_fits range.1 range.2⟩

/-- The rounding of `ttl`, where it does not overflow. -/
lemma ttlSeconds_of_fits {remaining : Int} (nonneg : 0 ≤ remaining)
    (fits : remaining + 500 ≤ int64Max) : ttlSeconds remaining = (remaining + 500) / 1000 := by
  have same : wrap64 (remaining + 500) = remaining + 500 := by
    refine wrap64_of_fits ?_ fits
    rw [int64Min]
    omega
  rw [ttlSeconds, if_neg (by omega), same]
  exact Int.tdiv_eq_ediv_of_nonneg (by omega)

/-- A remaining time that is rounded without an overflow stays what it is about; one that
overflows becomes a large negative number. -/
lemma ttlSeconds_iff {remaining : Int} (range : IsInt64 remaining) (reached : Prop) :
    (0 ≤ ttlSeconds remaining ∨ ttlSeconds remaining = -2 ∧ reached) ↔
      (0 ≤ remaining ∧ remaining + 500 ≤ int64Max) ∨ remaining = -2 ∧ reached := by
  obtain ⟨least, greatest⟩ := range
  have max : int64Max = 2 ^ 63 - 1 := rfl
  by_cases negative : remaining < 0
  · rw [ttlSeconds, if_pos negative]
    simp only [not_le.mpr negative, false_and, false_or]
  · by_cases fits : remaining + 500 ≤ int64Max
    · rw [ttlSeconds_of_fits (by omega) fits]
      exact ⟨fun _ => .inl ⟨by omega, fits⟩, fun _ => .inl (by omega)⟩
    · have wrapped : wrap64 (remaining + 500) = remaining + 500 - 2 ^ 64 := by
        rcases wrap64_cases (z := remaining + 500) (by omega) (by omega) with
          ⟨⟨_, small⟩, _⟩ | ⟨_, e⟩ | ⟨small, _⟩
        · exact absurd small fits
        · exact e
        · unfold int64Min at small
          omega
      have seconds : ttlSeconds remaining = -((2 ^ 64 - 500 - remaining) / 1000) := by
        rw [ttlSeconds, if_neg negative, wrapped]
        have flip : remaining + 500 - 2 ^ 64 = -(2 ^ 64 - 500 - remaining) := by omega
        rw [flip, Int.neg_tdiv, Int.tdiv_eq_ediv_of_nonneg (by omega)]
      rw [seconds]
      refine ⟨?_, ?_⟩
      · rintro (nonneg | ⟨two, _⟩) <;> omega
      · rintro (⟨_, small⟩ | ⟨two, _⟩) <;> omega

/-- When the replies about a key with a deadline to come are truthful. -/
lemma truthful_of_future (present : db.data.lookup key = some entry)
    (proper : entry.expiresAtMs ≠ noExpiry) (typed : IsInt64 entry.expiresAtMs)
    (reading : IsInt64 now') :
    (Truthful db key now' (wrap64 (entry.expiresAtMs - now')) ↔ Settled 0 entry.expiresAtMs now') ∧
    (Truthful db key now' (ttlSeconds (wrap64 (entry.expiresAtMs - now'))) ↔
      Settled 500 entry.expiresAtMs now') := by
  rw [truthful_iff present proper, truthful_iff present proper]
  unfold Settled
  obtain ⟨least, greatest⟩ := typed
  obtain ⟨least', greatest'⟩ := reading
  have max : int64Max = 2 ^ 63 - 1 := rfl
  have min : int64Min = -2 ^ 63 := rfl
  rcases wrap64_cases (z := entry.expiresAtMs - now') (by omega) (by omega) with
    ⟨range, e⟩ | ⟨above, e⟩ | ⟨below, e⟩
  · rw [e, ttlSeconds_iff range]
    obtain ⟨low, high⟩ := range
    omega
  · have negative : IsInt64 (entry.expiresAtMs - now' - 2 ^ 64) := ⟨by omega, by omega⟩
    rw [e, ttlSeconds_iff negative]
    omega
  · have positive : IsInt64 (entry.expiresAtMs - now' + 2 ^ 64) := ⟨by omega, by omega⟩
    rw [e, ttlSeconds_iff positive]
    omega

end Replies

/-- When the replies about a key are truthful. In a reachable state, `ttlMs` is truthful exactly if
the second reading settles the deadline that the first one has found to come, and `ttl` if moreover
the rounding does not overflow. -/
theorem ttl_truthful_iff (ops : List Op) (typed : ∀ op ∈ ops, op.Typed) (key : Bytes)
    {now now' : Int} (tick : now ≤ now') (reading : int64Min ≤ now ∧ now' ≤ int64Max) :
    let db := Op.run ops
    ((∃ reply, (ttlMs key now now' db).1 = .ok reply ∧ Truthful db key now' reply) ↔
      ∀ entry, db.data.lookup key = some entry → entry.expiresAtMs ≠ noExpiry →
        now < entry.expiresAtMs → Settled 0 entry.expiresAtMs now') ∧
    ((∃ reply, (ttl key now now' db).1 = .ok reply ∧ Truthful db key now' reply) ↔
      ∀ entry, db.data.lookup key = some entry → entry.expiresAtMs ≠ noExpiry →
        now < entry.expiresAtMs → Settled 500 entry.expiresAtMs now') := by
  intro db
  have range : IsInt64 now' := ⟨by omega, reading.2⟩
  by_cases future : ∃ entry, db.data.lookup key = some entry ∧ entry.expiresAtMs ≠ noExpiry ∧
      now < entry.expiresAtMs
  · obtain ⟨entry, present, proper, later⟩ := future
    have ms := ttlMs_of_future now' present proper later
    have only : ∀ slack, Settled slack entry.expiresAtMs now' ↔
        ∀ entry, db.data.lookup key = some entry → entry.expiresAtMs ≠ noExpiry →
          now < entry.expiresAtMs → Settled slack entry.expiresAtMs now' := by
      intro slack
      refine ⟨fun settled other found _ _ => ?_, fun all => all entry present proper later⟩
      cases present.symm.trans found
      exact settled
    obtain ⟨msIff, secondsIff⟩ := truthful_of_future present proper
      (run_deadlinesTyped typed key entry present) range
    rw [← only, ← only, ← msIff, ← secondsIff, ms, ttl_of_ttlMs ms]
    simp
  · have past : ∀ entry, db.data.lookup key = some entry → entry.expiresAtMs ≠ noExpiry →
        entry.expiresAtMs ≤ now := by
      intro entry present proper
      by_contra later
      exact future ⟨entry, present, proper, by omega⟩
    have vacuous : ∀ slack, ∀ entry, db.data.lookup key = some entry →
        entry.expiresAtMs ≠ noExpiry → now < entry.expiresAtMs →
        Settled slack entry.expiresAtMs now' := by
      intro slack entry present proper later
      exact absurd ⟨entry, present, proper, later⟩ future
    obtain ⟨reply, ms, kept, truthful⟩ := ttlMs_of_past tick past
    refine ⟨iff_of_true ⟨reply, ms, truthful⟩ (vacuous 0), iff_of_true ⟨reply, ?_, truthful⟩
      (vacuous 500)⟩
    rw [ttl_of_ttlMs ms, kept]

/-- At the same instant the replies about a key that expires later are truthful. -/
theorem ttl_truthful_iff_instant :
    let db := Op.run [.set [107] [118] 0, .expireAtMs [107] 10 0 0]
    (∃ reply, (ttlMs [107] 9 9 db).1 = .ok reply ∧ Truthful db [107] 9 reply) ∧
    ∃ reply, (ttl [107] 9 9 db).1 = .ok reply ∧ Truthful db [107] 9 reply := by
  intro db
  have typed : ∀ op ∈ [Op.set [107] [118] 0, .expireAtMs [107] 10 0 0], op.Typed := by
    simp [Op.Typed, Op.integers, Op.readings, IsInt64, int64Min, int64Max]
  obtain ⟨ms, seconds⟩ := ttl_truthful_iff _ typed [107] (le_refl 9) (by decide)
  have expires : ∀ entry, db.data.lookup [107] = some entry → entry.expiresAtMs = 10 := by
    intro entry found
    have stored : (db.data.lookup [107]).map (·.expiresAtMs) = some 10 := by decide +kernel
    rw [found] at stored
    exact Option.some.inj stored
  refine ⟨ms.mpr fun entry found _ _ => ?_, seconds.mpr fun entry found _ _ => ?_⟩
  · rw [expires entry found]
    exact .inl (by decide)
  · rw [expires entry found]
    exact .inl (by decide)

/-- When the clock passes the deadline by one millisecond between the two readings, the reply says
that the key has no deadline. -/
theorem ttl_truthful_ticked :
    let db := Op.run [.set [107] [118] 0, .expireAtMs [107] 10 0 0]
    (ttlMs [107] 9 11 db).1 = .ok (-1) ∧ (ttl [107] 9 11 db).1 = .ok (-1) ∧
    ¬ Truthful db [107] 11 (-1) := by
  intro db
  refine ⟨by decide +kernel, by decide +kernel, fun h => ?_⟩
  obtain ⟨entry, found, none_⟩ := h.noDeadline rfl
  have stored : (db.data.lookup [107]).map (·.expiresAtMs) = some 10 := by decide +kernel
  rw [found, Option.map_some, none_] at stored
  cases stored

end Database

end FlashKV
