import FlashKV.Persistence.Aof

/-!
# Loading a log

What `AppendOnlyFile::load` does on a file of encoded records. Record by record, the loop hands the
command to the callback (`loadLoop_record`), repairs a cut tail (`loadLoop_cut`) or refuses a record
beyond the parser's limits (`loadLoop_beyond`). From these follow the load of a whole log
(`load_encodeAll`) and of a log cut at any byte (`load_repairs_tail`).
-/

namespace FlashKV

/-- The records whose encodings lie wholly within the first `bytes` bytes of the log. -/
def completeRecords : Nat → List (List Bytes) → List (List Bytes)
  | _, [] => []
  | bytes, record :: records =>
    if (respArray record).length ≤ bytes then
      record :: completeRecords (bytes - (respArray record).length) records
    else []

/-- The complete records are the first ones. -/
lemma isPrefix_completeRecords (bytes : Nat) (records : List (List Bytes)) :
    completeRecords bytes records <+: records := by
  induction records generalizing bytes with
  | nil => exact List.prefix_rfl
  | cons record records ih =>
    unfold completeRecords
    split
    · exact List.cons_prefix_cons.mpr ⟨rfl, ih _⟩
    · exact List.nil_prefix

/-- Every record of an uncut log is complete. -/
lemma completeRecords_all (records : List (List Bytes)) :
    completeRecords (encodeAll records).length records = records := by
  induction records with
  | nil => rfl
  | cons record records ih =>
    have len : (encodeAll (record :: records)).length =
        (respArray record).length + (encodeAll records).length := by
      simp [encodeAll]
    rw [completeRecords, len, if_pos (by omega), Nat.add_sub_cancel_left, ih]

section Replay

variable {σ : Type} (replay : ReplayFunction σ)

/-- The state after handing over a list of commands. -/
def replayState (records : List (List Bytes)) (state : σ) : σ :=
  records.foldl (fun state record => (replay record state).2) state

/-- No command of the list fails when the commands are handed over in order. -/
def ReplaySucceeds : List (List Bytes) → σ → Prop
  | [], _ => True
  | record :: records, state =>
    (replay record state).1 = none ∧ ReplaySucceeds records (replay record state).2

variable {replay}

/-- A callback that never fails. -/
lemma replaySucceeds_of_forall (succeeds : ∀ record state, (replay record state).1 = none)
    (records : List (List Bytes)) (state : σ) : ReplaySucceeds replay records state := by
  induction records generalizing state with
  | nil => trivial
  | cons record records ih => exact ⟨succeeds record state, ih _⟩

end Replay

namespace AppendOnlyFile

section Loop

variable {σ : Type} {replay : ReplayFunction σ} {truncation : Option Bytes}
  {before rest text : Bytes} {commandNumber : Nat} {state : σ} {record : List Bytes}

/-- The loop stops at the end of the file. -/
lemma loadLoop_end (contents : Bytes) :
    loadLoop replay truncation contents contents.length commandNumber state =
      ⟨none, some contents, state⟩ := by
  unfold loadLoop
  rw [if_neg (lt_irrefl _)]

/-- One round of the loop, `remaining` being the bytes from its position on. -/
lemma loadLoop_round {remaining : Bytes} {result : RespParseResult} (nonempty : remaining ≠ [])
    (parsed : parseRespCommand remaining = result) :
    loadLoop replay truncation (before ++ remaining) before.length commandNumber state =
      match result.status with
      | .incomplete =>
        match truncation with
        | some message =>
          ⟨some (ascii "failed to truncate AOF: " ++ message), some (before ++ remaining), state⟩
        | none => ⟨none, some before, state⟩
      | .error =>
        ⟨some (ascii "invalid AOF data at byte " ++ Decimal.ofNat before.length ++ ascii ": " ++
          result.error), some (before ++ remaining), state⟩
      | .complete =>
        if result.arguments = [] then
          loadLoop replay truncation (before ++ remaining) (before.length + result.consumedBytes)
            (commandNumber + 1) state
        else
          match replay result.arguments state with
          | (some replayError, state) =>
            ⟨some (ascii "AOF command #" ++ Decimal.ofNat (commandNumber + 1) ++ ascii " (" ++
              result.arguments.headD [] ++ ascii ") failed: " ++ replayError),
              some (before ++ remaining), state⟩
          | (none, state) =>
            loadLoop replay truncation (before ++ remaining) (before.length + result.consumedBytes)
              (commandNumber + 1) state := by
  subst parsed
  have inside : before.length < (before ++ remaining).length := by
    have pos := List.length_pos_of_ne_nil nonempty
    simp only [List.length_append]
    omega
  conv_lhs => unfold loadLoop
  simp only [inside, if_true, List.drop_left, List.take_left]
  split
  · rename_i status
    rw [List.drop_left] at status
    cases truncation with
    | none => rw [status]
    | some message => rw [status]
  · rename_i status
    rw [List.drop_left] at status
    rw [status]
  · rename_i status
    rw [List.drop_left] at status
    rcases replay (parseRespCommand remaining).arguments state with ⟨_ | message, next⟩
    · rw [status]
    · rw [status]

/-- One record within the limits is handed to the callback. -/
lemma loadLoop_record (nonempty : record ≠ []) (within : WithinLimits record) :
    loadLoop replay truncation (before ++ (respArray record ++ rest)) before.length commandNumber
        state =
      match replay record state with
      | (some replayError, state) =>
        ⟨some (ascii "AOF command #" ++ Decimal.ofNat (commandNumber + 1) ++ ascii " (" ++
          record.headD [] ++ ascii ") failed: " ++ replayError),
          some (before ++ (respArray record ++ rest)), state⟩
      | (none, state) =>
        loadLoop replay truncation (before ++ (respArray record ++ rest))
          (before ++ respArray record).length (commandNumber + 1) state := by
  have remaining : respArray record ++ rest ≠ [] :=
    List.append_ne_nil_of_left_ne_nil (respArray_ne_nil record) rest
  rw [loadLoop_round remaining (parseRespCommand_respArray within rest)]
  simp only [completeResult, nonempty, if_false, List.length_append]

/-- A record beyond the limits makes the load fail. -/
lemma loadLoop_beyond (beyond : ¬ WithinLimits record) :
    (loadLoop replay truncation (before ++ (respArray record ++ rest)) before.length commandNumber
      state).error ≠ none := by
  have remaining : respArray record ++ rest ≠ [] :=
    List.append_ne_nil_of_left_ne_nil (respArray_ne_nil record) rest
  rw [loadLoop_round remaining rfl, parseRespCommand_beyond beyond rest]
  simp

/-- A cut record is removed from the file, if `truncate` succeeds. -/
lemma loadLoop_cut (within : WithinLimits record) (cut : text <+: respArray record)
    (strict : text ≠ respArray record) :
    loadLoop replay none (before ++ text) before.length commandNumber state =
      ⟨none, some before, state⟩ := by
  by_cases nothing : text = []
  · rw [nothing, List.append_nil]
    exact loadLoop_end before
  · rw [loadLoop_round nothing (parseRespCommand_cut within cut strict)]
    rfl

/-- The loop over the records from a position on: it succeeds exactly when every record is within
the limits and accepted by the callback. -/
lemma loadLoop_encodeAll (replay : ReplayFunction σ) (truncation : Option Bytes)
    (records : List (List Bytes)) (nonempty : ∀ record ∈ records, record ≠ [])
    (before : Bytes) (commandNumber : Nat) (state : σ) :
    ((loadLoop replay truncation (before ++ encodeAll records) before.length commandNumber
        state).error = none ↔
      (∀ record ∈ records, WithinLimits record) ∧ ReplaySucceeds replay records state) ∧
    ((loadLoop replay truncation (before ++ encodeAll records) before.length commandNumber
        state).error = none →
      (loadLoop replay truncation (before ++ encodeAll records) before.length commandNumber
        state).state = replayState replay records state) := by
  induction records generalizing before commandNumber state with
  | nil => simp [encodeAll, loadLoop_end, ReplaySucceeds, replayState]
  | cons record records ih =>
    have shape : before ++ encodeAll (record :: records) =
        before ++ (respArray record ++ encodeAll records) := by
      simp [encodeAll]
    rw [shape]
    by_cases within : WithinLimits record
    · rw [loadLoop_record (nonempty record (by simp)) within]
      rcases h : replay record state with ⟨_ | message, next⟩
      · have ih := ih (fun r mem => nonempty r (by simp [mem])) (before ++ respArray record)
          (commandNumber + 1) next
        rw [List.append_assoc] at ih
        simpa [ReplaySucceeds, replayState, h, within] using ih
      · simp [ReplaySucceeds, h]
    · have fails : (loadLoop replay truncation (before ++ (respArray record ++ encodeAll records))
          before.length commandNumber state).error ≠ none := loadLoop_beyond within
      refine ⟨⟨fun e => absurd e fails, fun h => ?_⟩, fun e => absurd e fails⟩
      exact absurd (h.1 record (by simp)) within

/-- The loop over a log cut at any byte, when the callback refuses none of the complete records: they
are handed over, the rest is removed. -/
lemma loadLoop_take (records : List (List Bytes)) (nonempty : ∀ record ∈ records, record ≠ [])
    (within : ∀ record ∈ records, WithinLimits record) (bytes : Nat) (before : Bytes)
    (commandNumber : Nat) (state : σ)
    (succeeds : ReplaySucceeds replay (completeRecords bytes records) state) :
    loadLoop replay none (before ++ (encodeAll records).take bytes) before.length commandNumber state =
      ⟨none, some (before ++ encodeAll (completeRecords bytes records)),
        replayState replay (completeRecords bytes records) state⟩ := by
  induction records generalizing bytes before commandNumber state with
  | nil => simp [encodeAll, completeRecords, loadLoop_end, replayState]
  | cons record records ih =>
    have shape : encodeAll (record :: records) = respArray record ++ encodeAll records := rfl
    rw [completeRecords] at succeeds ⊢
    rw [shape, List.take_append]
    split
    · rename_i complete
      rw [if_pos complete] at succeeds
      obtain ⟨accepted, later⟩ := succeeds
      have ih := ih (fun r mem => nonempty r (by simp [mem])) (fun r mem => within r (by simp [mem]))
        (bytes - (respArray record).length) (before ++ respArray record) (commandNumber + 1)
        (replay record state).2 later
      rw [List.take_of_length_le complete,
        loadLoop_record (nonempty record (by simp)) (within record (by simp))]
      rcases h : replay record state with ⟨_ | message, next⟩
      · rw [h, List.append_assoc] at ih
        simpa [encodeAll, replayState, h] using ih
      · rw [h] at accepted
        cases accepted
    · rename_i cut
      have after : (encodeAll records).take (bytes - (respArray record).length) = [] := by
        rw [Nat.sub_eq_zero_of_le (by omega), List.take_zero]
      have strict : (respArray record).take bytes ≠ respArray record := by
        rw [ne_eq, List.take_eq_self_iff]
        exact cut
      rw [after, List.append_nil,
        loadLoop_cut (within record (by simp)) (List.take_prefix bytes _) strict]
      simp [encodeAll, replayState]

/-- If the callback refuses one of the complete records, the load fails and the file stays. -/
lemma loadLoop_take_refused (records : List (List Bytes)) (nonempty : ∀ record ∈ records, record ≠ [])
    (within : ∀ record ∈ records, WithinLimits record) (bytes : Nat) (before : Bytes)
    (commandNumber : Nat) (state : σ)
    (refused : ¬ ReplaySucceeds replay (completeRecords bytes records) state) :
    let contents := before ++ (encodeAll records).take bytes
    let result := loadLoop replay none contents before.length commandNumber state
    result.error ≠ none ∧ result.file = some contents := by
  induction records generalizing bytes before commandNumber state with
  | nil => exact absurd trivial refused
  | cons record records ih =>
    have shape : encodeAll (record :: records) = respArray record ++ encodeAll records := rfl
    rw [completeRecords] at refused
    split at refused
    · rename_i complete
      rw [shape, List.take_append, List.take_of_length_le complete]
      dsimp only
      rw [loadLoop_record (nonempty record (by simp)) (within record (by simp))]
      rcases h : replay record state with ⟨_ | message, next⟩
      · have refused' : ¬ ReplaySucceeds replay
            (completeRecords (bytes - (respArray record).length) records) next := fun later =>
          refused ⟨by rw [h], by rw [h]; exact later⟩
        have ih := ih (fun r mem => nonempty r (by simp [mem]))
          (fun r mem => within r (by simp [mem])) (bytes - (respArray record).length)
          (before ++ respArray record) (commandNumber + 1) next refused'
        rw [List.append_assoc] at ih
        exact ih
      · exact ⟨nofun, rfl⟩
    · exact absurd trivial refused

end Loop

/-- The load of a whole log: it succeeds exactly when every record is within the limits and accepted
by the callback, and then every record has been handed over, in order. -/
lemma load_encodeAll {σ : Type} (replay : ReplayFunction σ) (truncation : Option Bytes)
    {records : List (List Bytes)} (nonempty : ∀ record ∈ records, record ≠ []) (aof : AppendOnlyFile)
    (file : aof.file = some (encodeAll records)) (state : σ) :
    ((aof.load replay truncation state).error = none ↔
      (∀ record ∈ records, WithinLimits record) ∧ ReplaySucceeds replay records state) ∧
    ((aof.load replay truncation state).error = none →
      (aof.load replay truncation state).state = replayState replay records state) := by
  have loop := loadLoop_encodeAll replay truncation records nonempty [] 0 state
  rw [load, file]
  exact loop

end AppendOnlyFile

/-- A log cut at any byte is repaired. Loading it hands exactly the records that lie wholly before
the cut to the callback, in order, and leaves exactly them in the file; whatever calls follow on the
opened file, once the buffer is written the next load also hands over what they appended. -/
theorem load_repairs_tail {σ : Type} (replay : ReplayFunction σ)
    (succeeds : ∀ record state, (replay record state).1 = none) (records : List (List Bytes))
    (commands : ∀ record ∈ records, record ≠ [] ∧ WithinLimits record) (bytes : Nat) (state : σ) :
    let kept := completeRecords bytes records
    let aof : AppendOnlyFile := { file := some ((encodeAll records).take bytes) }
    aof.load replay none state = ⟨none, some (encodeAll kept), replayState replay kept state⟩ ∧
    ∀ ops : List AofOp,
      (∀ record ∈ AofOp.appended ops, record ≠ [] ∧ WithinLimits record) →
      let reopened := AppendOnlyFile.open { aof with file := (aof.load replay none state).file }
      let final := ops.foldl AofOp.apply reopened
      final.buffer = [] →
      ∀ state',
        ({ file := final.file } : AppendOnlyFile).load replay none state' =
          ⟨none, some (encodeAll (kept ++ AofOp.appended ops)),
            replayState replay (kept ++ AofOp.appended ops) state'⟩ := by
  intro kept aof
  have loaded : aof.load replay none state =
      ⟨none, some (encodeAll kept), replayState replay kept state⟩ :=
    AppendOnlyFile.loadLoop_take records (fun r mem => (commands r mem).1)
      (fun r mem => (commands r mem).2) bytes [] 0 state (replaySucceeds_of_forall succeeds _ _)
  refine ⟨loaded, ?_⟩
  intro ops opsOk reopened final flushed state'
  have start : reopened.stream = encodeAll kept := by
    show ((aof.load replay none state).file.getD [] ++ []) = encodeAll kept
    rw [loaded, List.append_nil, Option.getD_some]
  have contents : final.file = some (encodeAll (kept ++ AofOp.appended ops)) := by
    have stream := AofOp.stream_foldl ops reopened
    obtain ⟨file, hfile⟩ := Option.isSome_iff_exists.mp
      (AofOp.file_isSome ops reopened (by rfl))
    rw [start, AppendOnlyFile.stream, flushed, List.append_nil, hfile, Option.getD_some] at stream
    rw [hfile, stream]
    simp [encodeAll]
  have all : ∀ record ∈ kept ++ AofOp.appended ops, record ≠ [] ∧ WithinLimits record := by
    intro record mem
    rcases List.mem_append.mp mem with mem | mem
    · exact commands record ((isPrefix_completeRecords bytes records).subset mem)
    · exact opsOk record mem
  have reload := AppendOnlyFile.loadLoop_take (kept ++ AofOp.appended ops)
    (fun r mem => (all r mem).1) (fun r mem => (all r mem).2)
    (encodeAll (kept ++ AofOp.appended ops)).length [] 0 state' (replaySucceeds_of_forall succeeds _ _)
  rw [List.take_length, completeRecords_all] at reload
  rw [AppendOnlyFile.load, contents]
  exact reload

/-- A log of two commands cut inside the second one; one more command is appended to it, whose first
write is short and whose second one fails before the rest is written. -/
theorem load_repairs_tail_cut :
    let replay : ReplayFunction (List (List Bytes)) := fun record seen => (none, seen ++ [record])
    let records := [[ascii "SET", ascii "k", ascii "\r\n*"], [ascii "DEL", ascii "k"]]
    let aof : AppendOnlyFile := { file := some ((encodeAll records).take 33) }
    aof.load replay none [] =
      ⟨none, some (encodeAll [[ascii "SET", ascii "k", ascii "\r\n*"]]),
        [[ascii "SET", ascii "k", ascii "\r\n*"]]⟩ ∧
    let reopened := AppendOnlyFile.open { aof with file := (aof.load replay none []).file }
    let ops : List AofOp :=
      [.append [ascii "INCR", ascii "n"], .flush [.wrote 3, .failed], .flush [.interrupted]]
    ({ file := (ops.foldl AofOp.apply reopened).file } : AppendOnlyFile).load replay none [] =
      ⟨none, some (encodeAll [[ascii "SET", ascii "k", ascii "\r\n*"], [ascii "INCR", ascii "n"]]),
        [[ascii "SET", ascii "k", ascii "\r\n*"], [ascii "INCR", ascii "n"]]⟩ := by
  intro replay records aof
  have main := load_repairs_tail replay (fun _ _ => rfl) records (by decide) 33 []
  have kept : completeRecords 33 records = [[ascii "SET", ascii "k", ascii "\r\n*"]] := by decide
  rw [kept] at main
  refine ⟨main.1, ?_⟩
  intro reopened ops
  refine main.2 ops (by decide) ?_ []
  show (ops.foldl AofOp.apply
    (AppendOnlyFile.open { aof with file := (aof.load replay none []).file })).buffer = []
  rw [main.1]
  decide

end FlashKV
