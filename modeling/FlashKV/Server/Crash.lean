import FlashKV.Server.Requests

/-!
# Crashes of the server

The server can be killed at any moment, with any part of what it has written in the file. Its log is
a sequence of commands within the parser's limits, whatever the clients have sent, so the next start
takes all complete records and discards the rest. If no write of a flush has failed and the file
still holds what was written, the records of every command whose reply has begun to leave are among
them.
-/

namespace FlashKV

open Database

section Records

variable {first second records : List (List Bytes)}

/-- Logs within the limits are read in one way only. -/
lemma prefix_of_encodeAll (within : ∀ record ∈ first, WithinLimits record)
    (within' : ∀ record ∈ second, WithinLimits record)
    (part : encodeAll first <+: encodeAll second) : first <+: second := by
  induction first generalizing second with
  | nil => exact List.nil_prefix
  | cons record first ih =>
    obtain ⟨rest, whole⟩ := part
    have split : encodeAll (record :: first) ++ rest =
        respArray record ++ (encodeAll first ++ rest) := List.append_assoc _ _ _
    rw [split] at whole
    cases second with
    | nil => exact absurd (List.append_eq_nil_iff.mp whole).1 (respArray_ne_nil record)
    | cons other second =>
      obtain ⟨fits, others⟩ := List.forall_mem_cons.mp within
      obtain ⟨fits', others'⟩ := List.forall_mem_cons.mp within'
      have split' : encodeAll (other :: second) = respArray other ++ encodeAll second := rfl
      have read := parseRespCommand_respArray fits (encodeAll first ++ rest)
      rw [whole, split', parseRespCommand_respArray fits' (encodeAll second)] at read
      have same : other = record := congrArg (·.arguments) read
      subst same
      rw [split'] at whole
      exact List.cons_prefix_cons.mpr
        ⟨rfl, ih others others' ⟨rest, List.append_cancel_left whole⟩⟩

/-- The complete records of a cut log are all that fit in. -/
lemma prefix_completeRecords (part : first <+: records) {bytes : Nat}
    (short : (encodeAll first).length ≤ bytes) : first <+: completeRecords bytes records := by
  induction first generalizing records bytes with
  | nil => exact List.nil_prefix
  | cons record first ih =>
    obtain ⟨rest, rfl⟩ := part
    have size : (encodeAll (record :: first)).length =
        (respArray record).length + (encodeAll first).length := by
      simp [encodeAll]
    rw [List.cons_append, completeRecords, if_pos (by omega)]
    exact List.cons_prefix_cons.mpr ⟨rfl, ih (List.prefix_append _ _) (by omega)⟩

end Records

section Server

variable {clock : Nat → Int} {server : Server} {core : Core}

/-- What is in the file has been propagated. -/
lemma Core.Opened.written_prefix (h : core.Opened) : core.written <+: core.stream := by
  obtain ⟨aof, attached, _⟩ := h
  rw [Core.written, Core.stream, attached]
  exact List.prefix_append _ _

/-- The requests that the sequence has answered are within the parser's limits. -/
lemma Explains.within {initial : Core} {actions : List Action}
    (h : Explains clock initial actions server)
    (limited : ∀ connection ∈ server.connections, connection.Limited) :
    ∀ answered ∈ (Sequential.of initial.processor actions).answered,
      WithinLimits answered.arguments := by
  intro answered mem
  obtain ⟨connection, there, answer, given, e⟩ := h.answered_mem answered mem
  obtain ⟨arguments, asked, same⟩ := Option.map_eq_some_iff.mp e
  rw [← same]
  exact (limited connection there).answers answer given arguments asked

/-- The log of the server is a sequence of commands; each answer was given when a part of it had been
propagated, and what it propagated itself is within the limits, too. -/
structure Server.Logs (clock : Nat → Int) (records : List (List Bytes)) (server : Server) : Prop where
  stream : server.core.stream = encodeAll records
  commands : ∀ record ∈ records, record ≠ [] ∧ WithinLimits record
  points : ∀ connection ∈ server.connections, ∀ answer ∈ connection.answers,
    (∃ earlier, earlier <+: records ∧ answer.before.stream = encodeAll earlier) ∧
    ∀ arguments, answer.arguments = some arguments →
      ∀ record ∈ answer.before.records clock arguments, WithinLimits record

/-- The stream of a state that a sequence mirrors. -/
lemma Sequential.Mirrors.stream {initial : Core} {s : Sequential} (h : s.Mirrors clock initial core)
    (attached : initial.aof.isSome) : core.stream = initial.stream ++ encodeAll s.records := by
  obtain ⟨aof, attached⟩ := Option.isSome_iff_exists.mp attached
  rw [Core.stream, Core.stream, h.log, attached]
  rfl

/-- Whatever the clients send, the log stays a sequence of commands within the limits. -/
lemma run_logs (clock : Nat → Int) {processor : Processor} (keys : processor.database.KeysFit)
    {logged : List (List Bytes)} (commands : ∀ record ∈ logged, record ≠ [] ∧ WithinLimits record)
    (events : List ServerEvent) (fits : ∀ event ∈ events, event.Fits) :
    ∃ records, logged <+: records ∧
      ((Server.start processor (some (encodeAll logged))).run clock events).Logs clock records := by
  let core := (Server.start processor (some (encodeAll logged))).core
  have initial : core.stream = encodeAll logged := List.append_nil _
  obtain ⟨actions, _, explains⟩ := run_explains (fun _ => True) (fun _ => True)
    clock core events (fun _ _ _ => trivial) fun _ _ _ _ => trivial
  have limited := run_limited clock core events fits
  have within := explains.within limited
  obtain ⟨records, _⟩ := Sequential.run_records (s := { processor := processor }) keys actions within
    nofun
  refine ⟨logged ++ (Sequential.of processor actions).records, List.prefix_append _ _, ?_, ?_, ?_⟩
  · rw [encodeAll_append]
    exact (explains.toMirrors.stream rfl).trans (congrArg (· ++ _) initial)
  · exact List.forall_mem_append.mpr ⟨commands, records⟩
  · intro connection mem answer given
    obtain ⟨before, ⟨after, split⟩, point⟩ := explains.points connection mem answer given
    obtain ⟨answered, grows⟩ := (Sequential.of processor before).run_grows after
    have all : (Sequential.of processor before).run after = Sequential.of processor actions := by
      rw [← split]
      exact (Sequential.run_append _ _ _).symm
    rw [all] at answered grows
    refine ⟨⟨logged ++ (Sequential.of processor before).records, ?_, ?_⟩, ?_⟩
    · exact (List.prefix_append_right_inj logged).mpr grows
    · rw [encodeAll_append]
      exact (point.stream rfl).trans (congrArg (· ++ _) initial)
    · intro arguments asked record recorded
      obtain ⟨_, short⟩ := Sequential.run_records (s := { processor := processor }) keys before
        (fun other mem => within other (answered.subset mem)) nofun
      have fitting := (limited connection mem).answers answer given arguments asked
      refine (Processor.execute_recorded answer.before.status _ record recorded).2 fitting ?_
      rw [point.processor]
      exact short

/-- What a load makes of a file whose complete records are these. If the callback refuses none of them,
it is handed them in their order, and the file is repaired; if it refuses one, the load fails and the
file stays as it is. -/
def LoadsTo (file : Bytes) (complete : List (List Bytes)) : Prop :=
  ∀ (σ : Type) (replay : ReplayFunction σ) (state : σ),
    let result := ({ file := some file } : AppendOnlyFile).load replay none state
    (ReplaySucceeds replay complete state →
      result = ⟨none, some (encodeAll complete), replayState replay complete state⟩) ∧
    (¬ ReplaySucceeds replay complete state → result.error ≠ none ∧ result.file = some file)

/-- Whatever part of the bytes written is left, its complete records are what is loaded. -/
lemma Server.Logs.loads {records : List (List Bytes)} (logs : server.Logs clock records)
    (opened : server.core.Opened) (bytes : Nat) :
    LoadsTo (server.core.written.take bytes)
      (completeRecords (min bytes server.core.written.length) records) := by
  have cut : server.core.written.take bytes =
      (encodeAll records).take (min bytes server.core.written.length) := by
    obtain ⟨rest, whole⟩ := opened.written_prefix
    rw [← logs.stream, ← whole, ← List.take_take, List.take_left]
  have nonempty : ∀ record ∈ records, record ≠ [] := fun r mem => (logs.commands r mem).1
  have within : ∀ record ∈ records, WithinLimits record := fun r mem => (logs.commands r mem).2
  intro σ replay state
  rw [cut]
  exact ⟨AppendOnlyFile.loadLoop_take records nonempty within _ [] 0 state,
    AppendOnlyFile.loadLoop_take_refused records nonempty within _ [] 0 state⟩

/-- A command that is logged in some bytes is a complete record of every log that begins with them. -/
lemma Server.Logs.recorded {records whole : List (List Bytes)} (logs : server.Logs clock records)
    {connection : Connection Core} (mem : connection ∈ server.connections) {answer : Answer Core}
    (given : answer ∈ connection.answers) {bytes : Bytes} (logged : answer.Logged clock bytes)
    (part : bytes <+: encodeAll whole) (within : ∀ record ∈ whole, WithinLimits record) {left : Nat}
    (enough : bytes.length ≤ left) (arguments : List Bytes) (asked : answer.arguments = some arguments) :
    ∃ earlier, answer.before.stream = encodeAll earlier ∧
      earlier ++ answer.before.records clock arguments <+: completeRecords left whole := by
  obtain ⟨⟨earlier, before, stream⟩, own⟩ := logs.points connection mem answer given
  refine ⟨earlier, stream, ?_⟩
  have written := logged arguments asked
  rw [stream, ← encodeAll_append] at written
  have fits : ∀ record ∈ earlier ++ answer.before.records clock arguments, WithinLimits record :=
    List.forall_mem_append.mpr
      ⟨fun record mem => (logs.commands record (before.subset mem)).2, own arguments asked⟩
  have known := prefix_of_encodeAll fits within (written.trans part)
  exact prefix_completeRecords known (written.length_le.trans enough)

/-- What is left of the log when the server is killed, `logged` being the log it has started with. -/
structure Server.Recovers (clock : Nat → Int) (logged records : List (List Bytes)) (server : Server) :
    Prop where
  kept : logged <+: records
  stream : server.core.stream = encodeAll records
  /-- Whatever part of the bytes written is left, its complete records are what the next load takes. -/
  loads : ∀ bytes : Nat, LoadsTo (server.core.written.take bytes)
    (completeRecords (min bytes server.core.written.length) records)
  /-- When all bytes written are left, the records of every command whose reply has begun to leave are
  handed over, right after those that had been propagated before. -/
  acknowledged : ∀ connection ∈ server.connections, ∀ answer, connection.Acknowledged answer →
    ∀ arguments, answer.arguments = some arguments → ∃ earlier,
      answer.before.stream = encodeAll earlier ∧
      earlier ++ answer.before.records clock arguments <+:
        completeRecords server.core.written.length records

/-- The server starts with a log within the limits, clients send whatever they like, no write fails
before something is sent, and the server is killed at any moment: then a load takes the complete
records that are left, and nothing that has been acknowledged is lost. -/
theorem crash_recovers (clock : Nat → Int) (processor : Processor) (logged : List (List Bytes))
    (keys : processor.database.KeysFit)
    (commands : ∀ record ∈ logged, record ≠ [] ∧ WithinLimits record) (events : List ServerEvent)
    (fits : ∀ event ∈ events, event.Fits)
    (reliable : (Server.start processor (some (encodeAll logged))).Along
      (ServerEvent.Reliable clock) clock events) :
    ∃ records, ((Server.start processor (some (encodeAll logged))).run clock events).Recovers clock
      logged records := by
  obtain ⟨records, kept, logs⟩ := run_logs clock keys commands events fits
  obtain ⟨started, nothing⟩ := start_propagates clock processor (some (encodeAll logged))
  obtain ⟨propagates, durable⟩ := started.run events
  replace durable := durable reliable nothing
  clear reliable
  generalize (Server.start processor (some (encodeAll logged))).run clock events = server at *
  have part : server.core.written <+: encodeAll records := by
    rw [← logs.stream]
    exact propagates.opened.written_prefix
  refine ⟨records, kept, logs.stream, ?_, ?_⟩
  · exact logs.loads propagates.opened
  · intro connection mem answer acknowledged arguments asked
    obtain ⟨_, _, split, _⟩ := id acknowledged
    exact logs.recorded mem (by rw [split]; simp) (durable connection mem answer acknowledged) part
      (fun record mem => (logs.commands record mem).2) le_rfl arguments asked

/-- A log of one command, and a client that sets a key and is answered. -/
theorem crash_recovers_set :
    ∃ records, ((Server.start {} (some (encodeAll [[ascii "SET", ascii "a", ascii "1"]]))).run
      (fun _ => 0) [.accept, .client 0
        { readable := true
          recvs := [.received (respArray [ascii "SET", ascii "b", ascii "2"])]
          sends := [.sent 5] } [.wrote 3, .interrupted, .wrote 40]]).Recovers (fun _ => 0)
      [[ascii "SET", ascii "a", ascii "1"]] records := by
  refine crash_recovers (fun _ => 0) {} [[ascii "SET", ascii "a", ascii "1"]] nofun (by decide) _ ?_
    ⟨trivial, reliable_of_succeed (by decide), trivial⟩
  intro event mem
  rcases List.mem_cons.mp mem with rfl | mem
  · trivial
  · rw [List.mem_singleton.mp mem]
    intro bytes received
    cases List.mem_singleton.mp received
    decide

end Server

end FlashKV
