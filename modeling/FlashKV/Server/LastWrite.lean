import FlashKV.Command.Frame
import FlashKV.Server.Cache

/-!
# A client reads what has been written last

What a cache holds for a key changes only by commands that name the key, so the reply to a `GET` is
the value of the last plain `SET` of its key (one without options, so that it sets no deadline), whoever
has sent the two and whatever the other clients have done in between. As for the cache, it is assumed
that the clock is read once for each request.
-/

namespace FlashKV

open StateAction Database

section Map

variable {α : Type} {now : Int} {key : Bytes} {held : Option Slot} {arguments : List Bytes}
  {m : TypedMap .native}

/-- Both sides are one map that holds this for the key. -/
def SameHolding (key : Bytes) (held : Option Slot) (m m' : TypedMap .native) : Prop :=
  m = m' ∧ m.find key = held

/-- An operation on another key. -/
lemma onKey_unnamed (live : held.filter (·.liveAt now) = held) {other : Bytes} (ne : other ≠ key)
    (op : SlotOp α) :
    Simulates (SameHolding key held) (TypedMap.onKey other now op) (TypedMap.onKey other now op) := by
  rintro m _ ⟨rfl, holds⟩
  refine ⟨rfl, rfl, ?_⟩
  show Function.update (m.purge now).find other _ key = held
  rw [Function.update_of_ne ne.symm]
  show (m.find key).filter (·.liveAt now) = held
  rw [holds, live]

/-- The operations on other keys. -/
lemma unnamed_changes (live : held.filter (·.liveAt now) = held) :
    StorageChanges (σ := TypedMap .native) (τ := TypedMap .native) (· ≠ key)
      (fun _ => True) now (SameHolding key held) where
  existsKey _ ne := onKey_unnamed live ne _
  type _ ne := onKey_unnamed live ne _
  keys _ := by
    rintro m _ ⟨rfl, holds⟩
    refine ⟨rfl, rfl, ?_⟩
    show (m.find key).filter (·.liveAt now) = held
    rw [holds, live]
  get _ ne := onKey_unnamed live ne _
  stringLength _ ne := onKey_unnamed live ne _
  ttlMs _ ne := onKey_unnamed live ne _
  listRange _ _ _ ne := onKey_unnamed live ne _
  listIndex _ _ ne := onKey_unnamed live ne _
  listLength _ ne := onKey_unnamed live ne _
  hashGet _ _ ne := onKey_unnamed live ne _
  hashGetAll _ ne := onKey_unnamed live ne _
  hashLength _ ne := onKey_unnamed live ne _
  hashExists _ _ ne := onKey_unnamed live ne _
  setMembers _ ne := onKey_unnamed live ne _
  setIsMember _ _ ne := onKey_unnamed live ne _
  setCardinality _ ne := onKey_unnamed live ne _
  del _ ne := onKey_unnamed live ne _
  expireAtMs _ _ ne _ := onKey_unnamed live ne _
  persist _ ne := onKey_unnamed live ne _
  listPop _ _ ne := onKey_unnamed live ne _
  hashDelete _ _ ne := onKey_unnamed live ne _
  setRemove _ _ ne := onKey_unnamed live ne _
  set _ _ ne := onKey_unnamed live ne _
  incrementBy _ _ ne _ := onKey_unnamed live ne _
  append _ _ ne := onKey_unnamed live ne _
  listPush _ _ _ ne := onKey_unnamed live ne _
  hashSet _ _ ne := onKey_unnamed live ne _
  setAdd _ _ ne := onKey_unnamed live ne _

/-- The command does not name the key, and it does not drop all keys. -/
def Unnamed (key : Bytes) (arguments : List Bytes) : Prop :=
  key ∉ arguments.drop 1 ∧ Other ["FLUSHALL", "FLUSHDB"] arguments

instance (key : Bytes) (arguments : List Bytes) : Decidable (Unnamed key arguments) :=
  inferInstanceAs (Decidable (_ ∧ _))

/-- A command that does not name the key leaves what is held for it. -/
lemma TypedMap.execute_unnamed (live : held.filter (·.liveAt now) = held)
    (unnamed : Unnamed key arguments) (holds : m.find key = held) :
    (m.execute now arguments).2.find key = held := by
  by_cases given : arguments = []
  · subst given
    exact holds
  · cases found : resolve arguments with
    | quit | unknown | wrongArity =>
      simp only [TypedMap.execute, if_neg given, found]
      exact holds
    | dispatch spec =>
      cases name : spec.handler with
      | server handler =>
        rw [TypedMap.execute_server found name]
        exact holds
      | data handler =>
        have keeps : handler ≠ .flushall := by
          rintro rfl
          exact unnamed.2.handler (by decide) found name
        have sim : Simulates (fun s t : Session (TypedMap .native) =>
            SameHolding key held s.store t.store) (handler.run arguments now)
            (handler.run arguments now) :=
          handler.change_simulates keeps propagates_store (unnamed_changes live) (fun _ _ => trivial)
            (fun _ _ ne => onKey_unnamed live ne _)
            fun argument mem same => unnamed.1 (same ▸ mem)
        rw [TypedMap.execute_data found name]
        exact (sim ⟨m, false, []⟩ ⟨m, false, []⟩ ⟨rfl, holds⟩).2.2

end Map

section Cache

variable {limited failing : Prop} {now : Int} {name key value payload : Bytes} {arguments : List Bytes}
  {m m' : TypedMap .native}

/-- A string without a deadline is stored under the key, or the key has been forgotten. -/
def Remembers (limited : Prop) (key value : Bytes) (m : TypedMap .native) : Prop :=
  m.find key = some ⟨.string value, none⟩ ∨ limited ∧ m.find key = none

lemma Remembers.forgets (h : Remembers limited key value m) (forgets : m.Forgets limited m') :
    Remembers limited key value m' := by
  rcases forgets with rfl | ⟨may, kept⟩
  · exact h
  · cases found : m'.find key with
    | none => exact .inr ⟨may, found⟩
    | some slot =>
      have before := kept key slot found
      rcases h with h | ⟨_, h⟩
      · exact .inl (found.trans (before.symm.trans h))
      · rw [h] at before
        cases before

/-- Commands that do not name the key change nothing about it, but it may be forgotten. -/
lemma CacheAnswer.remembers (h : Remembers limited key value m) (unnamed : Unnamed key arguments)
    (answer : CacheAnswer limited failing now arguments m payload m') : Remembers limited key value m' := by
  have kept : ∀ {m : TypedMap .native}, Remembers limited key value m →
      Remembers limited key value (m.execute now arguments).2 := by
    rintro m (h | ⟨may, h⟩)
    · exact .inl (TypedMap.execute_unnamed rfl unnamed h)
    · exact .inr ⟨may, TypedMap.execute_unnamed rfl unnamed h⟩
  cases answer with
  | answers forgets executed =>
    have after := kept (h.forgets forgets)
    rwa [executed] at after
  | reports payload forgets _ => exact h.forgets forgets
  | refuses => exact h

/-- A plain `SET`: a key and a value, and no options. -/
def IsSet (key value : Bytes) (arguments : List Bytes) : Prop :=
  ∃ name, arguments = [name, key, value] ∧ uppercase name = ascii "SET"

/-- A `GET`. -/
def IsGet (key : Bytes) (arguments : List Bytes) : Prop :=
  ∃ name, arguments = [name, key] ∧ uppercase name = ascii "GET"

/-- A plain `SET` on a map. -/
lemma set_stores (name key value : Bytes) (m : TypedMap .native) :
    (DataHandler.set.run [name, key, value] now ⟨m, false, []⟩).2.store.find key =
      some ⟨.string value, none⟩ := by
  have writes : ({} : Handler.SetOptions).writes ((m.purge now).find key).isSome = true := by
    simp [Handler.SetOptions.writes]
  have first : [name, key, value][1]? = some key := rfl
  obtain ⟨m', purged, done⟩ := set_apply false first rfl rfl writes
  have stored : (m'.find key).filter (·.liveAt now) = some ⟨.string value, none⟩ := by
    have found := congrArg (fun m : TypedMap .native => m.find key) purged
    rwa [TypedMap.find_put, Function.update_self] at found
  rw [show DataHandler.set.run [name, key, value] now = Handler.set [name, key, value] now from rfl,
    done]
  exact (Option.filter_eq_some_iff.mp stored).1

/-- A plain `SET` that is answered with `OK` is remembered. -/
lemma CacheAnswer.of_set (isSet : IsSet key value arguments)
    (answer : CacheAnswer limited failing now arguments m payload m')
    (done : payload = respSimpleString (ascii "OK")) : Remembers limited key value m' := by
  obtain ⟨name, rfl, upper⟩ := isSet
  have found : resolve [name, key, value] = .dispatch ⟨.data .set, -3, true, true⟩ :=
    resolve_of_upper upper (by decide) (by decide) (by rw [arityFits_short (by simp)]; rfl)
  cases answer with
  | answers forgets executed =>
    rw [TypedMap.execute_data found rfl] at executed
    cases executed
    exact .inl (set_stores name key value _)
  | reports payload forgets executed =>
    rw [TypedMap.execute_data found rfl] at executed
    cases executed
  | refuses _ error =>
    rcases error with ⟨error, _⟩ | ⟨error, _⟩
    · rw [error] at done
      exact absurd done (by decide)
    · rw [error] at done
      exact absurd done (by decide)

/-- A `GET` on a map. -/
lemma get_returns (name : Bytes) {slot : Option Slot} {found : Option Bytes}
    (held : (m.purge now).find key = slot) (read : SlotOp.get slot = (.ok found, slot)) :
    payloadOf (DataHandler.get.run [name, key] now ⟨m, false, []⟩).1 = nullableBulk found := by
  have called : Handler.call (Storage.get key now) (⟨m, false, []⟩ : Session (TypedMap .native)) =
      (.ok found, ⟨(m.purge now).put key slot, false, []⟩) := by
    refine call_onKey_ok ?_
    rw [held]
    exact read
  show payloadOf ((Handler.call (Storage.get key now) >>= fun value => pure (nullableBulk value) :
    Handling (TypedMap .native) Bytes) ⟨m, false, []⟩).1 = _
  rw [bind_of_ok called]
  rfl

/-- A `GET` of a key that is remembered. -/
lemma CacheAnswer.of_get (isGet : IsGet key arguments) (h : Remembers limited key value m)
    (answer : CacheAnswer limited failing now arguments m payload m') :
    payload = respBulkString value ∨ limited ∧ payload = respNull := by
  obtain ⟨name, rfl, upper⟩ := isGet
  have found : resolve [name, key] = .dispatch ⟨.data .get, 2, false, false⟩ :=
    resolve_of_upper upper (by decide) (by decide) (by rw [arityFits_short (by simp)]; rfl)
  cases answer with
  | @answers kept reply m' forgets executed =>
    rw [TypedMap.execute_data found rfl] at executed
    cases executed
    dsimp only
    rcases h.forgets forgets with h | ⟨may, h⟩
    · have held : (kept.purge now).find key = some ⟨.string value, none⟩ := by
        show (kept.find key).filter (·.liveAt now) = _
        rw [h]
        rfl
      exact .inl (get_returns name held rfl)
    · have held : (kept.purge now).find key = none := by
        show (kept.find key).filter (·.liveAt now) = _
        rw [h]
        rfl
      exact .inr ⟨may, get_returns name held rfl⟩
  | reports payload forgets executed =>
    rw [TypedMap.execute_data found rfl] at executed
    cases executed
  | refuses write =>
    obtain ⟨spec, same, write⟩ := write
    rw [found] at same
    cases same
    cases write

/-- The last exchange of a run. -/
lemma CacheRun.concat_inv {start : TypedMap .native} {exchanges : List Exchange} {exchange : Exchange}
    (run : CacheRun limited failing start (exchanges ++ [exchange]) m) :
    ∃ m', CacheRun limited failing start exchanges m' ∧
      CacheAnswer limited failing exchange.now exchange.arguments m' exchange.payload m := by
  generalize whole : exchanges ++ [exchange] = all at run
  cases run with
  | nil => simp at whole
  | @concat exchanges' exchange' m' m run answer =>
    obtain ⟨rfl, last⟩ := List.append_inj' whole rfl
    cases last
    exact ⟨m', run, answer⟩

/-- A run up to an exchange, the exchange, and the run after it. -/
lemma CacheRun.split {start : TypedMap .native} {before after : List Exchange} {exchange : Exchange}
    (run : CacheRun limited failing start (before ++ exchange :: after) m) :
    ∃ m₁ m₂, CacheRun limited failing start before m₁ ∧
      CacheAnswer limited failing exchange.now exchange.arguments m₁ exchange.payload m₂ ∧
      CacheRun limited failing m₂ after m := by
  induction after using List.reverseRecOn generalizing m with
  | nil =>
    obtain ⟨m₁, run, answer⟩ := run.concat_inv
    exact ⟨m₁, m, run, answer, .nil⟩
  | append_singleton after last ih =>
    rw [← List.cons_append, ← List.append_assoc] at run
    obtain ⟨m', run, final⟩ := run.concat_inv
    obtain ⟨m₁, m₂, first, answer, rest⟩ := ih run
    exact ⟨m₁, m₂, first, answer, rest.concat final⟩

/-- Exchanges that do not name the key. -/
lemma CacheRun.remembers {start : TypedMap .native} {exchanges : List Exchange}
    (run : CacheRun limited failing start exchanges m) (h : Remembers limited key value start)
    (unnamed : ∀ exchange ∈ exchanges, Unnamed key exchange.arguments) :
    Remembers limited key value m := by
  induction run with
  | nil => exact h
  | concat _ answer ih =>
    obtain ⟨earlier, here⟩ := List.forall_mem_append.mp unnamed
    exact answer.remembers (ih earlier) (here _ (List.mem_singleton_self _))

/-- In a run, a `GET` answers with the last plain `SET` of its key. -/
lemma CacheRun.last_write {start : TypedMap .native} {before middle after : List Exchange}
    {set get : Exchange} (run : CacheRun limited failing start (before ++ set :: (middle ++ get :: after)) m)
    (isSet : IsSet key value set.arguments) (done : set.payload = respSimpleString (ascii "OK"))
    (unnamed : ∀ exchange ∈ middle, Unnamed key exchange.arguments)
    (isGet : IsGet key get.arguments) :
    get.payload = respBulkString value ∨ limited ∧ get.payload = respNull := by
  obtain ⟨_, m₁, _, written, rest⟩ := run.split
  obtain ⟨m₂, _, between, read, _⟩ := rest.split
  exact read.of_get isGet (between.remembers (written.of_set isSet done) unnamed)

end Cache

section Server

variable {clock : Nat → Int} {core : Core}

/-- The last write wins, for all clients of the server: along every run of the event loop there is one
order of the exchanges of all clients, which keeps the order of each client, and in it a `GET` answers
with the value of a plain `SET` of its key that has been answered with `OK`, if no command in between
names the key or drops all keys; the value can only be missing under a memory limit. -/
theorem run_last_write (mono : Monotone clock) (late : ∀ i, noExpiry ≤ clock i)
    (intact : core.processor.database.Intact) (events : List ServerEvent)
    (timely : TimelyCycles clock core events) :
    ∃ exchanges : List Exchange,
      (∀ client, exchanges.filter (·.client = client) =
        ((Server.run clock { core := core } events).answeredTo clock client).map
          Answered.exchange) ∧
      ∀ before set middle get after key value,
        exchanges = before ++ set :: (middle ++ get :: after) →
        IsSet key value set.arguments → set.payload = respSimpleString (ascii "OK") →
        (∀ exchange ∈ middle, Unnamed key exchange.arguments) → IsGet key get.arguments →
        get.payload = respBulkString value ∨ MayForget core exchanges ∧ get.payload = respNull := by
  obtain ⟨actions, explains, caches⟩ := run_explains_caches mono late intact events timely
  obtain ⟨m, run, _⟩ := caches.run
  refine ⟨_, explains.exchanges, ?_⟩
  intro before set middle get after key value whole isSet done unnamed isGet
  rw [whole] at run ⊢
  exact run.last_write isSet done unnamed isGet

/-- Two clients: one sets a key and the other one reads it. -/
theorem run_last_write_shared :
    let core : Core := { processor := emptyProcessor 0 .noEviction }
    let sends (client : Nat) (text : String) : ServerEvent :=
      .client client { readable := true, recvs := [.received (ascii text)] } []
    let events := [.accept, .accept, sends 0 "SET k v\r\nSET other w\r\n",
      .cycle ⟨fun _ => 0, fun _ => false⟩ 20 2, sends 1 "GET k\r\n"]
    let clock (i : Nat) : Int := i
    ∃ exchanges : List Exchange,
      (∀ client, exchanges.filter (·.client = client) =
        ((Server.run clock { core := core } events).answeredTo clock client).map
          Answered.exchange) ∧
      ∀ before set middle get after key value,
        exchanges = before ++ set :: (middle ++ get :: after) →
        IsSet key value set.arguments → set.payload = respSimpleString (ascii "OK") →
        (∀ exchange ∈ middle, Unnamed key exchange.arguments) → IsGet key get.arguments →
        get.payload = respBulkString value ∨ MayForget core exchanges ∧ get.payload = respNull := by
  refine run_last_write (fun i j le => Int.ofNat_le.mpr le) (fun i => ?_) (intact_empty _ _) _ ?_
  · exact (show noExpiry ≤ 0 by decide).trans (Int.natCast_nonneg i)
  · intro before choices samplesPerLoop now after split
    rcases before with _ | ⟨_, _ | ⟨_, _ | ⟨_, _ | ⟨_, _ | ⟨_, _ | ⟨_, before⟩⟩⟩⟩⟩⟩ <;> cases split
    decide +kernel

end Server

end FlashKV
