import FlashKV.Resp.RoundTrip

/-!
# The append-only file

Model of `AppendOnlyFile` (source `aof.cpp`). The file behind `filePath` is part of the state. What
the operating system decides is an argument: the outcomes of the `write` calls of a flush, of
`fsync` and of `truncate`, with the text that `strerror` gives for a failure.
-/

namespace FlashKV

structure AppendOnlyFile where
  /-- The file at `filePath`, or `none` if it does not exist. -/
  file : Option Bytes := none
  buffer : Bytes := []
  /-- `fileDescriptor` is not `-1`. -/
  opened : Bool := false
  needsSync : Bool := false
  writeFailed : Bool := false
  deriving DecidableEq

/-- The outcome of a call of `write`: a byte count (`0` counts as an error), an interruption by a
signal, or an error. -/
inductive WriteOutcome where
  | wrote (count : Nat)
  | interrupted
  | failed
  deriving DecidableEq, Repr

/-- What the replay callback of `load` does with a command: it changes the state it captures, and it
fails with a text or succeeds with `none`. -/
abbrev ReplayFunction (σ : Type) := List Bytes → σ → Option Bytes × σ

/-- The results of `load`: the error text, or `none` where the source returns `true`; the file; the
state that the callback captures. -/
structure LoadResult (σ : Type) where
  error : Option Bytes
  file : Option Bytes
  state : σ

/-- The records of a log, one after the other. -/
def encodeAll (records : List (List Bytes)) : Bytes :=
  (records.map respArray).flatten

namespace AppendOnlyFile

variable {σ : Type}

/-- The loop of `load` over the file's `contents`. `truncation` is the error text of `truncate`, if
it fails. -/
def loadLoop (replay : ReplayFunction σ) (truncation : Option Bytes) (contents : Bytes)
    (position commandNumber : Nat) (state : σ) : LoadResult σ :=
  if position < contents.length then
    let result := parseRespCommand (contents.drop position)
    match _h : result.status with
    | .incomplete =>
      match truncation with
      | some message => ⟨some (ascii "failed to truncate AOF: " ++ message), some contents, state⟩
      | none => ⟨none, some (contents.take position), state⟩
    | .error =>
      ⟨some (ascii "invalid AOF data at byte " ++ Decimal.ofNat position ++ ascii ": " ++
        result.error), some contents, state⟩
    | .complete =>
      if result.arguments = [] then
        loadLoop replay truncation contents (position + result.consumedBytes) (commandNumber + 1)
          state
      else
        match replay result.arguments state with
        | (some replayError, state) =>
          ⟨some (ascii "AOF command #" ++ Decimal.ofNat (commandNumber + 1) ++ ascii " (" ++
            result.arguments.headD [] ++ ascii ") failed: " ++ replayError), some contents, state⟩
        | (none, state) =>
          loadLoop replay truncation contents (position + result.consumedBytes) (commandNumber + 1)
            state
  else ⟨none, some contents, state⟩
  termination_by contents.length - position
  decreasing_by
    all_goals
      have progress := parseRespCommand_progress _h
      omega

/-- Source `load`. A missing file means an empty database. -/
def load (replay : ReplayFunction σ) (truncation : Option Bytes) (aof : AppendOnlyFile) (state : σ) :
    LoadResult σ :=
  match aof.file with
  | none => ⟨none, none, state⟩
  | some contents => loadLoop replay truncation contents 0 0 state

/-- Source `open`, when it succeeds: the file is created if it is missing. -/
def «open» (aof : AppendOnlyFile) : AppendOnlyFile :=
  { aof with file := some (aof.file.getD []), opened := true }

def append (arguments : List Bytes) (aof : AppendOnlyFile) : AppendOnlyFile :=
  { aof with buffer := aof.buffer ++ respArray arguments }

/-- Bytes reach the end of the file. -/
def extend (bytes : Bytes) (aof : AppendOnlyFile) : AppendOnlyFile :=
  { aof with file := some (aof.file.getD [] ++ bytes) }

/-- The loop of `flush`, `pending` being the part of the buffer that is not written yet. Calls
beyond the listed outcomes write all they are given. -/
def flushLoop : List WriteOutcome → Bytes → AppendOnlyFile → Bool × AppendOnlyFile
  | [], pending, aof =>
    (true, { aof.extend pending with buffer := [], needsSync := true, writeFailed := false })
  | outcome :: outcomes, pending, aof =>
    if pending = [] then (true, { aof with buffer := [], needsSync := true, writeFailed := false })
    else
      match outcome with
      | .interrupted => flushLoop outcomes pending aof
      -- keep the unwritten data so a later flush can retry
      | .failed | .wrote 0 => (false, { aof with buffer := pending, writeFailed := true })
      | .wrote count =>
        flushLoop outcomes (pending.drop count) (aof.extend (pending.take count))

def flush (outcomes : List WriteOutcome) (aof : AppendOnlyFile) : Bool × AppendOnlyFile :=
  if aof.buffer = [] then (!aof.writeFailed, aof)
  else if aof.opened = false then (false, aof)
  else flushLoop outcomes aof.buffer aof

/-- Source `sync`, `synced` being the outcome of `fsync`. -/
def sync (synced : Bool) (aof : AppendOnlyFile) : Bool × AppendOnlyFile :=
  if aof.needsSync = false ∨ aof.opened = false then (true, aof)
  else (synced, { aof with needsSync := false })

def healthy (aof : AppendOnlyFile) : Bool :=
  !aof.writeFailed

end AppendOnlyFile

/-- The bytes that a call of `write` writes. -/
def WriteOutcome.bytes : WriteOutcome → Nat
  | .wrote count => count
  | _ => 0

/-- The calls of `write` for `size` bytes fail when `written` of them have been written. -/
def FailsAfter (outcomes : List WriteOutcome) (size written : Nat) : Prop :=
  ∃ earlier outcome later, outcomes = earlier ++ outcome :: later ∧
    (∀ other ∈ earlier, other ≠ .failed ∧ other ≠ .wrote 0) ∧
    (outcome = .failed ∨ outcome = .wrote 0) ∧
    (earlier.map WriteOutcome.bytes).sum = written ∧ written < size

/-- A call on an opened log. -/
inductive AofOp where
  | append (arguments : List Bytes)
  | flush (outcomes : List WriteOutcome)
  | sync (synced : Bool)

namespace AofOp

def apply (aof : AppendOnlyFile) : AofOp → AppendOnlyFile
  | .append arguments => aof.append arguments
  | .flush outcomes => (aof.flush outcomes).2
  | .sync synced => (aof.sync synced).2

/-- The commands that a sequence of calls appends. -/
def appended (ops : List AofOp) : List (List Bytes) :=
  ops.filterMap fun op => match op with
    | .append arguments => some arguments
    | _ => none

end AofOp

namespace AppendOnlyFile

/-- The file followed by the buffer: what the file holds once everything is flushed. -/
def stream (aof : AppendOnlyFile) : Bytes :=
  aof.file.getD [] ++ aof.buffer

lemma stream_append (arguments : List Bytes) (aof : AppendOnlyFile) :
    (aof.append arguments).stream = aof.stream ++ respArray arguments := by
  simp [stream, append]

/-- The flush loop moves bytes from the buffer to the file. -/
lemma flushLoop_stream (outcomes : List WriteOutcome) (pending : Bytes) (aof : AppendOnlyFile) :
    (flushLoop outcomes pending aof).2.stream = aof.file.getD [] ++ pending := by
  induction outcomes generalizing pending aof with
  | nil => simp [flushLoop, stream, extend]
  | cons outcome outcomes ih =>
    unfold flushLoop
    split
    · rename_i done
      simp [stream, done]
    · split
      · exact ih pending aof
      · rfl
      · rfl
      · rename_i count _ _
        rw [ih]
        simp [extend]

lemma flushLoop_file_isSome (outcomes : List WriteOutcome) (pending : Bytes) (aof : AppendOnlyFile)
    (present : aof.file.isSome) : (flushLoop outcomes pending aof).2.file.isSome := by
  induction outcomes generalizing pending aof with
  | nil => rfl
  | cons outcome outcomes ih =>
    unfold flushLoop
    split
    · exact present
    · split
      · exact ih pending aof present
      · exact present
      · exact present
      · exact ih _ _ rfl

/-- Flushing neither loses nor adds a byte. -/
lemma stream_flush (outcomes : List WriteOutcome) (aof : AppendOnlyFile) :
    (aof.flush outcomes).2.stream = aof.stream := by
  unfold flush
  split
  · rfl
  · split
    · rfl
    · exact flushLoop_stream outcomes aof.buffer aof

/-- The flush loop only adds to the file. -/
lemma flushLoop_file (outcomes : List WriteOutcome) (pending : Bytes) (aof : AppendOnlyFile) :
    aof.file.getD [] <+: (flushLoop outcomes pending aof).2.file.getD [] := by
  induction outcomes generalizing pending aof with
  | nil => exact List.prefix_append _ _
  | cons outcome outcomes ih =>
    unfold flushLoop
    split
    · exact List.prefix_rfl
    · split
      · exact ih pending aof
      · exact List.prefix_rfl
      · exact List.prefix_rfl
      · rename_i count _
        have added : aof.file.getD [] <+: (aof.extend (pending.take count)).file.getD [] :=
          List.prefix_append _ _
        exact added.trans (ih _ _)

lemma flush_file (outcomes : List WriteOutcome) (aof : AppendOnlyFile) :
    aof.file.getD [] <+: (aof.flush outcomes).2.file.getD [] := by
  unfold flush
  split
  · exact List.prefix_rfl
  · split
    · exact List.prefix_rfl
    · exact flushLoop_file outcomes aof.buffer aof

lemma stream_sync (synced : Bool) (aof : AppendOnlyFile) :
    (aof.sync synced).2.stream = aof.stream := by
  unfold sync
  split <;> rfl

end AppendOnlyFile

/-- Over any sequence of calls, file and buffer together grow by the appended records only. -/
lemma AofOp.stream_foldl (ops : List AofOp) (aof : AppendOnlyFile) :
    (ops.foldl AofOp.apply aof).stream = aof.stream ++ encodeAll (AofOp.appended ops) := by
  induction ops generalizing aof with
  | nil => simp [AofOp.appended, encodeAll]
  | cons op ops ih =>
    rw [List.foldl_cons, ih]
    cases op with
    | append arguments =>
      simp [AofOp.apply, AofOp.appended, encodeAll, AppendOnlyFile.stream_append]
    | flush outcomes => simp [AofOp.apply, AofOp.appended, AppendOnlyFile.stream_flush]
    | sync synced => simp [AofOp.apply, AofOp.appended, AppendOnlyFile.stream_sync]

/-- No call removes the file. -/
lemma AofOp.file_isSome (ops : List AofOp) (aof : AppendOnlyFile) (present : aof.file.isSome) :
    (ops.foldl AofOp.apply aof).file.isSome := by
  induction ops generalizing aof with
  | nil => exact present
  | cons op ops ih =>
    apply ih
    cases op with
    | append arguments => exact present
    | flush outcomes =>
      show (aof.flush outcomes).2.file.isSome
      unfold AppendOnlyFile.flush
      split
      · exact present
      · split
        · exact present
        · exact AppendOnlyFile.flushLoop_file_isSome outcomes _ aof present
    | sync synced =>
      show (aof.sync synced).2.file.isSome
      unfold AppendOnlyFile.sync
      split <;> exact present

section Fails

variable {outcome : WriteOutcome} {outcomes : List WriteOutcome} {size written : Nat}

/-- The first call fails. -/
lemma FailsAfter.now (bad : outcome = .failed ∨ outcome = .wrote 0) (more : 0 < size) :
    FailsAfter (outcome :: outcomes) size 0 :=
  ⟨[], outcome, outcomes, rfl, List.forall_mem_nil _, bad, rfl, more⟩

/-- A call before the one that fails. -/
lemma FailsAfter.later (h : FailsAfter outcomes (size - outcome.bytes) written)
    (fine : outcome ≠ .failed ∧ outcome ≠ .wrote 0) :
    FailsAfter (outcome :: outcomes) size (outcome.bytes + written) := by
  obtain ⟨earlier, last, rest, rfl, others, bad, rfl, few⟩ := h
  refine ⟨outcome :: earlier, last, rest, rfl, List.forall_mem_cons.mpr ⟨fine, others⟩, bad, ?_, ?_⟩
  · rw [List.map_cons, List.sum_cons]
  · omega

/-- Writes that do not fail write everything. -/
lemma not_failsAfter (succeed : ∀ outcome ∈ outcomes, outcome ≠ .failed ∧ outcome ≠ .wrote 0) :
    ¬ FailsAfter outcomes size written := by
  rintro ⟨earlier, outcome, later, rfl, _, bad, _⟩
  obtain ⟨notFailed, notZero⟩ := succeed outcome (by simp)
  exact bad.elim notFailed notZero

end Fails

namespace AppendOnlyFile

/-- How the loop of `flush` ends: everything is written and the log is healthy, or a call of `write`
fails, something is left and the log is not healthy. -/
lemma flushLoop_cases (outcomes : List WriteOutcome) (pending : Bytes) (aof : AppendOnlyFile) :
    ((flushLoop outcomes pending aof).1 = true ∧ (flushLoop outcomes pending aof).2.buffer = [] ∧
      (flushLoop outcomes pending aof).2.writeFailed = false) ∨
    ((∃ written, FailsAfter outcomes pending.length written) ∧
      (flushLoop outcomes pending aof).1 = false ∧ (flushLoop outcomes pending aof).2.buffer ≠ [] ∧
      (flushLoop outcomes pending aof).2.writeFailed = true) := by
  induction outcomes generalizing pending aof with
  | nil => exact .inl ⟨rfl, rfl, rfl⟩
  | cons outcome outcomes ih =>
    unfold flushLoop
    split
    · exact .inl ⟨rfl, rfl, rfl⟩
    · rename_i left
      have more : 0 < pending.length := List.length_pos_of_ne_nil left
      split
      · rcases ih pending aof with done | ⟨⟨written, fails⟩, failed⟩
        · exact .inl done
        · have fails' : FailsAfter outcomes
              (pending.length - WriteOutcome.interrupted.bytes) written := fails
          exact .inr ⟨⟨_, fails'.later (by decide)⟩, failed⟩
      · exact .inr ⟨⟨0, .now (.inl rfl) more⟩, rfl, left, rfl⟩
      · exact .inr ⟨⟨0, .now (.inr rfl) more⟩, rfl, left, rfl⟩
      · rename_i count positive
        rcases ih (pending.drop count) (aof.extend (pending.take count)) with
          done | ⟨⟨written, fails⟩, failed⟩
        · exact .inl done
        · rw [List.length_drop] at fails
          have fails' : FailsAfter outcomes
              (pending.length - (WriteOutcome.wrote count).bytes) written := fails
          exact .inr ⟨⟨_, fails'.later ⟨nofun, by simpa using positive⟩⟩, failed⟩

lemma flushLoop_opened (outcomes : List WriteOutcome) (pending : Bytes) (aof : AppendOnlyFile) :
    (flushLoop outcomes pending aof).2.opened = aof.opened := by
  induction outcomes generalizing pending aof with
  | nil => rfl
  | cons outcome outcomes ih =>
    unfold flushLoop
    split
    · rfl
    · split
      · exact ih pending aof
      · rfl
      · rfl
      · exact ih _ _

lemma flush_opened (outcomes : List WriteOutcome) (aof : AppendOnlyFile) :
    (aof.flush outcomes).2.opened = aof.opened := by
  unfold flush
  split
  · rfl
  · split
    · rfl
    · exact flushLoop_opened outcomes aof.buffer aof

/-- A log that has failed has something left to write. -/
def KeepsUnwritten (aof : AppendOnlyFile) : Prop :=
  aof.writeFailed = true → aof.buffer ≠ []

section Flush

variable {aof : AppendOnlyFile} (outcomes : List WriteOutcome)

/-- `flush` returns `true` exactly when it leaves nothing in the buffer and a healthy log. -/
lemma flush_iff (aof : AppendOnlyFile) : (aof.flush outcomes).1 = true ↔
    (aof.flush outcomes).2.buffer = [] ∧ (aof.flush outcomes).2.healthy = true := by
  unfold flush healthy
  split
  · rename_i empty
    simp [empty]
  · rename_i nonempty
    split
    · simp [nonempty]
    · rcases flushLoop_cases outcomes aof.buffer aof with ⟨done, empty, fine⟩ | ⟨_, failed, left, bad⟩
      · simp [done, empty, fine]
      · simp [failed, left]

/-- A flush of which no call of `write` fails leaves nothing in the buffer. -/
lemma flush_empties (opened : aof.opened = true)
    (succeed : ∀ written, ¬ FailsAfter outcomes aof.buffer.length written) :
    (aof.flush outcomes).2.buffer = [] := by
  unfold AppendOnlyFile.flush
  split
  · rename_i empty
    exact empty
  · rw [if_neg (by simp [opened])]
    rcases flushLoop_cases outcomes aof.buffer aof with ⟨_, empty, _⟩ | ⟨⟨written, fails⟩, _⟩
    · exact empty
    · exact absurd fails (succeed written)

lemma KeepsUnwritten.flush (h : aof.KeepsUnwritten) : (aof.flush outcomes).2.KeepsUnwritten := by
  unfold AppendOnlyFile.flush
  split
  · exact h
  · split
    · exact h
    · intro failed
      rcases flushLoop_cases outcomes aof.buffer aof with ⟨_, _, fine⟩ | ⟨_, _, left, _⟩
      · rw [fine] at failed
        cases failed
      · exact left

/-- A flush of which no call of `write` fails makes the log healthy. -/
lemma KeepsUnwritten.flush_healthy (h : aof.KeepsUnwritten) (opened : aof.opened = true)
    (succeed : ∀ written, ¬ FailsAfter outcomes aof.buffer.length written) :
    (aof.flush outcomes).2.healthy = true := by
  cases failed : (aof.flush outcomes).2.writeFailed with
  | false => exact congrArg not failed
  | true => exact absurd (flush_empties outcomes opened succeed) (h.flush outcomes failed)

end Flush

end AppendOnlyFile

/-- Calls keep the log open and keep what is unwritten. -/
lemma AofOp.keepsUnwritten (ops : List AofOp) (aof : AppendOnlyFile) (opened : aof.opened = true)
    (keeps : aof.KeepsUnwritten) :
    (ops.foldl AofOp.apply aof).opened = true ∧ (ops.foldl AofOp.apply aof).KeepsUnwritten := by
  refine List.foldlRecOn (motive := fun aof : AppendOnlyFile =>
    aof.opened = true ∧ aof.KeepsUnwritten) ops _ ⟨opened, keeps⟩ ?_
  rintro aof ⟨opened, keeps⟩ op _
  cases op with
  | append arguments =>
    refine ⟨opened, fun failed => ?_⟩
    exact List.append_ne_nil_of_left_ne_nil (keeps failed) _
  | flush outcomes => exact ⟨by rw [AofOp.apply, aof.flush_opened, opened], keeps.flush outcomes⟩
  | sync synced =>
    have kept : (aof.sync synced).2.opened = aof.opened ∧ (aof.sync synced).2.buffer = aof.buffer ∧
        (aof.sync synced).2.writeFailed = aof.writeFailed := by
      unfold AppendOnlyFile.sync
      split <;> exact ⟨rfl, rfl, rfl⟩
    obtain ⟨open_, buffer, failed⟩ := kept
    refine ⟨open_.trans opened, fun bad => ?_⟩
    exact buffer.trans_ne (keeps (failed.symm.trans bad))

/-- The byte stream of the log survives failing writes: over any calls on an opened log, nothing is
lost, repeated or reordered between the buffer and the file; the log is unhealthy only while
something is unwritten; and one flush of which no call of `write` fails empties the buffer and makes it
healthy again. The outcomes that are listed beyond the calls that are made do not count. -/
theorem aofOps_keep_stream (initial : Option Bytes) (ops : List AofOp) :
    let aof := ops.foldl AofOp.apply (AppendOnlyFile.open { file := initial })
    aof.file.getD [] ++ aof.buffer = initial.getD [] ++ encodeAll (AofOp.appended ops) ∧
    (aof.healthy = false → aof.buffer ≠ []) ∧
    ∀ outcomes, ((aof.flush outcomes).1 = true ↔
        (aof.flush outcomes).2.buffer = [] ∧ (aof.flush outcomes).2.healthy = true) ∧
      ((∀ written, ¬ FailsAfter outcomes aof.buffer.length written) →
        (aof.flush outcomes).2.buffer = [] ∧ (aof.flush outcomes).2.healthy = true) := by
  intro aof
  obtain ⟨opened, keeps⟩ := AofOp.keepsUnwritten ops (AppendOnlyFile.open { file := initial }) rfl
    (by simp [AppendOnlyFile.KeepsUnwritten, AppendOnlyFile.open])
  refine ⟨?_, ?_, fun outcomes => ⟨aof.flush_iff outcomes, fun succeed => ?_⟩⟩
  · have stream := AofOp.stream_foldl ops (AppendOnlyFile.open { file := initial })
    have start : (AppendOnlyFile.open { file := initial }).stream = initial.getD [] :=
      List.append_nil _
    rw [start] at stream
    exact stream
  · intro unhealthy
    exact keeps (by simpa [AppendOnlyFile.healthy] using unhealthy)
  · exact ⟨aof.flush_empties outcomes opened succeed, keeps.flush_healthy outcomes opened succeed⟩

end FlashKV
