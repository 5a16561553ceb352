import FlashKV.Persistence.Aof

/-!
# What is not synced

`sync` issues an `fsync` only if `needsSync` is set. `flush` sets it when the buffer is written
completely, and `sync` clears it before it knows the outcome of `fsync`. So bytes of the file are
forgotten when a flush breaks off after it has written some, and when `fsync` fails.
-/

namespace FlashKV

/-- A log, with what the last successful `fsync` covers. -/
structure SyncState where
  aof : AppendOnlyFile
  /-- Ghost: the number of bytes that the file had at the last successful `fsync`. -/
  covered : Nat

namespace SyncState

/-- The number of bytes in the file. -/
def size (state : SyncState) : Nat :=
  (state.aof.file.getD []).length

/-- The call issues an `fsync`, which succeeds. -/
def covers (state : SyncState) : AofOp → Bool
  | .sync synced => state.aof.needsSync && state.aof.opened && synced
  | _ => false

def apply (state : SyncState) (op : AofOp) : SyncState where
  aof := op.apply state.aof
  covered := if state.covers op then state.size else state.covered

/-- The states of a run on an opened log start here: what was in the file before is taken as synced. -/
def start (initial : Option Bytes) : SyncState where
  aof := AppendOnlyFile.open { file := initial }
  covered := (initial.getD []).length

def run (initial : Option Bytes) (ops : List AofOp) : SyncState :=
  ops.foldl apply (start initial)

/-- Some byte has been written to the file since the last successful `fsync`. -/
def Unsynced (state : SyncState) : Prop :=
  state.covered < state.size

/-- Bytes that are not synced are remembered, so that the next `sync` issues an `fsync` that covers
them. -/
def Remembers (state : SyncState) : Prop :=
  state.Unsynced → state.aof.needsSync = true ∧ ¬ (state.apply (.sync true)).Unsynced

end SyncState

/-- The call forgets nothing: a flush whose writes fail after some of the bytes is called when
`needsSync` is already set, and no `fsync` fails. -/
def SyncState.Safe (state : SyncState) : AofOp → Prop
  | .append _ => True
  | .flush outcomes => state.aof.needsSync = true ∨
    ∀ written, FailsAfter outcomes state.aof.buffer.length written → written = 0
  | .sync synced => state.aof.needsSync = false ∨ synced = true

namespace AppendOnlyFile

section Flush

variable {outcomes : List WriteOutcome}

lemma length_extend (bytes : Bytes) (aof : AppendOnlyFile) :
    ((aof.extend bytes).file.getD []).length = (aof.file.getD []).length + bytes.length :=
  List.length_append

/-- The loop of `flush` when the writes fail: what has been written is in the file, and `needsSync`
is as it was. -/
lemma flushLoop_fails {written : Nat} (pending : Bytes) (aof : AppendOnlyFile)
    (fails : FailsAfter outcomes pending.length written) :
    ((flushLoop outcomes pending aof).2.file.getD []).length =
        (aof.file.getD []).length + written ∧
      (flushLoop outcomes pending aof).2.needsSync = aof.needsSync := by
  obtain ⟨earlier, outcome, later, rfl, fine, bad, sum, few⟩ := fails
  induction earlier generalizing pending aof written with
  | nil =>
    have left : pending ≠ [] := List.ne_nil_of_length_pos (Nat.zero_lt_of_lt few)
    cases sum
    rw [List.nil_append, flushLoop.eq_def]
    dsimp only
    rw [if_neg left]
    rcases bad with rfl | rfl <;> exact ⟨rfl, rfl⟩
  | cons first earlier ih =>
    have left : pending ≠ [] := List.ne_nil_of_length_pos (Nat.zero_lt_of_lt few)
    obtain ⟨⟨notFailed, notZero⟩, others⟩ := List.forall_mem_cons.mp fine
    rw [List.map_cons, List.sum_cons] at sum
    rw [List.cons_append, flushLoop.eq_def]
    dsimp only
    rw [if_neg left]
    cases first with
    | failed => exact absurd rfl notFailed
    | interrupted => exact ih pending aof others (by simpa [WriteOutcome.bytes] using sum) few
    | wrote count =>
      cases count with
      | zero => exact absurd rfl notZero
      | succ count =>
        rw [WriteOutcome.bytes] at sum
        obtain ⟨size, flag⟩ := ih (pending.drop (count + 1)) (aof.extend (pending.take (count + 1)))
          others rfl (by rw [List.length_drop]; omega)
        refine ⟨size.trans ?_, flag⟩
        rw [length_extend, List.length_take_of_le (by omega)]
        omega

/-- The loop of `flush` otherwise: everything is in the file, and `needsSync` is set. -/
lemma flushLoop_completes (pending : Bytes) (aof : AppendOnlyFile)
    (complete : ∀ written, ¬ FailsAfter outcomes pending.length written) :
    ((flushLoop outcomes pending aof).2.file.getD []).length =
        (aof.file.getD []).length + pending.length ∧
      (flushLoop outcomes pending aof).2.needsSync = true := by
  induction outcomes generalizing pending aof with
  | nil => exact ⟨length_extend pending aof, rfl⟩
  | cons first outcomes ih =>
    by_cases done : pending = []
    · rw [flushLoop.eq_def]
      dsimp only
      rw [if_pos done, done]
      exact ⟨rfl, rfl⟩
    rw [flushLoop.eq_def]
    dsimp only
    rw [if_neg done]
    have more : 0 < pending.length := List.length_pos_of_ne_nil done
    cases first with
    | failed =>
      exact absurd ⟨[], .failed, outcomes, rfl, List.forall_mem_nil _, .inl rfl, rfl, more⟩ (complete 0)
    | interrupted =>
      refine ih pending aof fun written fails => complete written ?_
      obtain ⟨earlier, outcome, later, rfl, fine, bad, sum, few⟩ := fails
      exact ⟨.interrupted :: earlier, outcome, later, rfl,
        List.forall_mem_cons.mpr ⟨by decide, fine⟩, bad, by simpa [WriteOutcome.bytes] using sum, few⟩
    | wrote count =>
      cases count with
      | zero =>
        exact absurd ⟨[], .wrote 0, outcomes, rfl, List.forall_mem_nil _, .inr rfl, rfl, more⟩
          (complete 0)
      | succ count =>
        have rest : ∀ written,
            ¬ FailsAfter outcomes (pending.drop (count + 1)).length written := by
          rintro written ⟨earlier, outcome, later, rfl, fine, bad, sum, few⟩
          rw [List.length_drop] at few
          refine complete (count + 1 + written) ⟨.wrote (count + 1) :: earlier, outcome, later, rfl,
            List.forall_mem_cons.mpr ⟨⟨by simp, by simp⟩, fine⟩, bad, ?_, by omega⟩
          rw [List.map_cons, List.sum_cons, sum, WriteOutcome.bytes]
        obtain ⟨size, flag⟩ := ih (pending.drop (count + 1)) (aof.extend (pending.take (count + 1))) rest
        refine ⟨size.trans ?_, flag⟩
        rw [length_extend, List.length_take, List.length_drop]
        omega

end Flush

end AppendOnlyFile

namespace SyncState

/-- What holds in every state of a run: the log is open, the synced bytes are in the file, and
`needsSync` is set only if some byte is not synced. -/
structure Sound (state : SyncState) : Prop where
  opened : state.aof.opened = true
  within : state.covered ≤ state.size
  needed : state.aof.needsSync = true → state.Unsynced

section Step

variable {state : SyncState} {outcomes : List WriteOutcome}

lemma apply_flush (opened : state.aof.opened = true) (left : state.aof.buffer ≠ []) :
    state.apply (.flush outcomes) =
      ⟨(AppendOnlyFile.flushLoop outcomes state.aof.buffer state.aof).2, state.covered⟩ := by
  have loop : (state.aof.flush outcomes).2 =
      (AppendOnlyFile.flushLoop outcomes state.aof.buffer state.aof).2 := by
    rw [AppendOnlyFile.flush, if_neg left, if_neg (by rw [opened]; decide)]
  show (⟨(state.aof.flush outcomes).2, state.covered⟩ : SyncState) = _
  rw [loop]

/-- A flush whose writes fail. -/
lemma flush_fails {written : Nat} (opened : state.aof.opened = true)
    (fails : FailsAfter outcomes state.aof.buffer.length written) :
    (state.apply (.flush outcomes)).size = state.size + written ∧
      (state.apply (.flush outcomes)).aof.needsSync = state.aof.needsSync := by
  have left : state.aof.buffer ≠ [] := by
    obtain ⟨_, _, _, _, _, _, _, few⟩ := fails
    exact List.ne_nil_of_length_pos (Nat.zero_lt_of_lt few)
  rw [apply_flush opened left]
  exact AppendOnlyFile.flushLoop_fails _ _ fails

/-- A flush does nothing without a buffer, its writes fail, or it writes everything. -/
lemma flush_cases (opened : state.aof.opened = true) (outcomes : List WriteOutcome) :
    state.apply (.flush outcomes) = state ∨
    (∃ written, FailsAfter outcomes state.aof.buffer.length written) ∨
    state.size < (state.apply (.flush outcomes)).size ∧
      (state.apply (.flush outcomes)).aof.needsSync = true := by
  by_cases empty : state.aof.buffer = []
  · have same : (state.aof.flush outcomes).2 = state.aof := by
      rw [AppendOnlyFile.flush, if_pos empty]
    refine .inl ?_
    show (⟨(state.aof.flush outcomes).2, state.covered⟩ : SyncState) = state
    rw [same]
  by_cases fails : ∃ written, FailsAfter outcomes state.aof.buffer.length written
  · exact .inr (.inl fails)
  · obtain ⟨size, flag⟩ :=
      AppendOnlyFile.flushLoop_completes state.aof.buffer state.aof (not_exists.mp fails)
    have more := List.length_pos_of_ne_nil empty
    rw [apply_flush opened empty]
    exact .inr (.inr ⟨(Nat.lt_add_of_pos_right more).trans_eq size.symm, flag⟩)

lemma apply_sync (synced : Bool) :
    state.apply (.sync synced) = ⟨(state.aof.sync synced).2,
      if state.aof.needsSync && state.aof.opened && synced then state.size else state.covered⟩ := rfl

/-- Without `needsSync`, `sync` does nothing. -/
lemma sync_idle (clean : state.aof.needsSync = false) (synced : Bool) :
    state.apply (.sync synced) = state := by
  have same : (state.aof.sync synced).2 = state.aof := by
    rw [AppendOnlyFile.sync, if_pos (.inl clean)]
  rw [apply_sync, same, clean]
  rfl

/-- With it, `sync` clears it and issues an `fsync`. -/
lemma sync_issued (opened : state.aof.opened = true) (dirty : state.aof.needsSync = true)
    (synced : Bool) :
    state.apply (.sync synced) =
      ⟨{ state.aof with needsSync := false }, if synced then state.size else state.covered⟩ := by
  have cleared : (state.aof.sync synced).2 = { state.aof with needsSync := false } := by
    rw [AppendOnlyFile.sync, if_neg (by simp [dirty, opened])]
  rw [apply_sync, cleared, dirty, opened]
  rfl

/-- In such a state the next `sync` covers everything, if it issues an `fsync`. -/
lemma Sound.remembers_iff (sound : state.Sound) :
    state.Remembers ↔ (state.Unsynced → state.aof.needsSync = true) := by
  refine ⟨fun remembers unsynced => (remembers unsynced).1, fun needs unsynced => ?_⟩
  refine ⟨needs unsynced, ?_⟩
  rw [sync_issued sound.opened (needs unsynced)]
  exact lt_irrefl state.size

lemma Sound.step (sound : state.Sound) (op : AofOp) : (state.apply op).Sound := by
  cases op with
  | append arguments => exact ⟨sound.opened, sound.within, sound.needed⟩
  | flush outcomes =>
    have opened := (state.aof.flush_opened outcomes).trans sound.opened
    obtain same | ⟨written, fails⟩ | ⟨grows, _⟩ := flush_cases sound.opened outcomes
    · rw [same]
      exact sound
    · obtain ⟨size, flag⟩ := flush_fails sound.opened fails
      have within : state.covered ≤ (state.apply (.flush outcomes)).size := by
        rw [size]
        exact sound.within.trans (Nat.le_add_right _ _)
      refine ⟨opened, within, fun dirty => ?_⟩
      rw [flag] at dirty
      show state.covered < (state.apply (.flush outcomes)).size
      rw [size]
      exact (sound.needed dirty).trans_le (Nat.le_add_right _ _)
    · have more : state.covered < (state.apply (.flush outcomes)).size := sound.within.trans_lt grows
      exact ⟨opened, more.le, fun _ => more⟩
  | sync synced =>
    cases dirty : state.aof.needsSync with
    | false =>
      rw [sync_idle dirty]
      exact sound
    | true =>
      rw [sync_issued sound.opened dirty]
      refine ⟨sound.opened, ?_, fun set => by cases set⟩
      cases synced with
      | false => exact sound.within
      | true => exact le_rfl

/-- A safe call forgets nothing. -/
lemma Sound.safe_remembers (sound : state.Sound) {op : AofOp} (safe : state.Safe op)
    (remembers : state.Remembers) : (state.apply op).Remembers := by
  rw [(sound.step op).remembers_iff]
  rw [sound.remembers_iff] at remembers
  cases op with
  | append arguments => exact remembers
  | flush outcomes =>
    obtain same | ⟨written, fails⟩ | ⟨_, set⟩ := flush_cases sound.opened outcomes
    · rw [same]
      exact remembers
    · obtain ⟨size, flag⟩ := flush_fails sound.opened fails
      rw [flag]
      intro unsynced
      rcases safe with dirty | none_
      · exact dirty
      · -- nothing was written, so nothing new is to be synced
        have same : state.covered < (state.apply (.flush outcomes)).size := unsynced
        rw [size, none_ written fails] at same
        exact remembers same
    · exact fun _ => set
  | sync synced =>
    rcases safe with clean | rfl
    · rw [sync_idle clean]
      exact remembers
    · cases dirty : state.aof.needsSync with
      | false =>
        rw [sync_idle dirty]
        exact remembers
      | true =>
        rw [sync_issued sound.opened dirty]
        exact fun unsynced => absurd unsynced (lt_irrefl state.size)

/-- Any other call forgets some byte. -/
lemma Sound.unsafe_forgets (sound : state.Sound) {op : AofOp} (unsafe_ : ¬ state.Safe op) :
    ¬ (state.apply op).Remembers := by
  rw [(sound.step op).remembers_iff]
  intro remembers
  cases op with
  | append arguments => exact unsafe_ trivial
  | flush outcomes =>
    have clean : state.aof.needsSync = false :=
      Bool.eq_false_iff.mpr fun dirty => unsafe_ (.inl dirty)
    have some_ : ∃ written, FailsAfter outcomes state.aof.buffer.length written ∧ written ≠ 0 := by
      by_contra none_
      exact unsafe_ (.inr fun written fails => not_not.mp fun pos => none_ ⟨written, fails, pos⟩)
    obtain ⟨written, fails, pos⟩ := some_
    obtain ⟨size, flag⟩ := flush_fails sound.opened fails
    have unsynced : state.covered < (state.apply (.flush outcomes)).size := by
      have := sound.within
      omega
    have set := remembers unsynced
    rw [flag, clean] at set
    cases set
  | sync synced =>
    obtain ⟨set, failed⟩ := not_or.mp unsafe_
    have dirty : state.aof.needsSync = true := Bool.not_eq_false _ ▸ set
    have lost : synced = false := Bool.not_eq_true _ ▸ failed
    have unsynced := sound.needed dirty
    rw [sync_issued sound.opened dirty, lost] at remembers
    cases remembers unsynced

end Step

section Run

variable {initial : Option Bytes} {ops : List AofOp}

lemma start_sound (initial : Option Bytes) : (start initial).Sound :=
  ⟨rfl, le_rfl, fun dirty => by cases dirty⟩

lemma start_remembers (initial : Option Bytes) : (start initial).Remembers :=
  fun unsynced => absurd unsynced (lt_irrefl (initial.getD []).length)

lemma run_concat (initial : Option Bytes) (ops : List AofOp) (op : AofOp) :
    run initial (ops ++ [op]) = (run initial ops).apply op :=
  List.foldl_concat ..

lemma run_sound (initial : Option Bytes) (ops : List AofOp) : (run initial ops).Sound :=
  List.foldlRecOn (motive := Sound) ops _ (start_sound initial) fun _ sound op _ => sound.step op

/-- Safe calls forget nothing. -/
lemma run_remembers (safe : ∀ earlier op later, ops = earlier ++ op :: later →
    (run initial earlier).Safe op) : (run initial ops).Remembers := by
  induction ops using List.reverseRecOn with
  | nil => exact start_remembers initial
  | append_singleton ops op ih =>
    rw [run_concat]
    refine (run_sound initial ops).safe_remembers (safe ops op [] rfl) (ih ?_)
    intro earlier other later split
    exact safe earlier other (later ++ [op]) (by rw [split, List.append_assoc, List.cons_append])

end Run

end SyncState

/-- When unsynced data is remembered: in every state of a run on an opened log, bytes written since
the last successful `fsync` are remembered, exactly if every call of the run is safe. -/
theorem unsynced_remembered_iff (initial : Option Bytes) (ops : List AofOp) :
    (∀ earlier later, ops = earlier ++ later → (SyncState.run initial earlier).Remembers) ↔
      ∀ earlier op later, ops = earlier ++ op :: later →
        (SyncState.run initial earlier).Safe op := by
  constructor
  · intro remembers earlier op later split
    by_contra unsafe_
    have forgets := (SyncState.run_sound initial earlier).unsafe_forgets unsafe_
    rw [← SyncState.run_concat] at forgets
    exact forgets (remembers (earlier ++ [op]) later (by simp [split]))
  · rintro safe earlier later rfl
    refine SyncState.run_remembers fun before op after split => ?_
    exact safe before op (after ++ later) (by simp [split])

/-- One byte of a record reaches the file, the next `write` fails, and no `fsync` is due. -/
theorem unsynced_forgotten :
    ¬ ∀ (initial : Option Bytes) (ops : List AofOp), (SyncState.run initial ops).Remembers := by
  intro remembers
  have forgotten := remembers none [.append [ascii "FLUSHALL"], .flush [.wrote 1, .failed]]
  have unsynced : (SyncState.run none [.append [ascii "FLUSHALL"],
      .flush [.wrote 1, .failed]]).Unsynced := by
    show 0 < 1
    decide
  cases (forgotten unsynced).1

end FlashKV
