import FlashKV.Resp.Extension
import FlashKV.Server.Client

/-!
# Input in chunks

Processing a client's byte stream does not depend on how it is cut into chunks: `processInput` after
each chunk does what `processInput` does on the whole stream, as long as no inline request is too
long.
-/

namespace FlashKV

section Unfold

variable {σ : Type} {execute : Execute σ} {pending : Bytes} {client : Client} {state : σ}

/-- Nothing more can be done. -/
lemma processLoop_stop (h : client.closeAfterWrite = true ∨ pending = [] ∨
      (parseRespCommand pending).status = .incomplete) :
    processLoop execute pending client state = ([], { client with input := pending }, state) := by
  rw [processLoop]
  split
  · rfl
  · rename_i live
    have incomplete : (parseRespCommand pending).status = .incomplete := by
      rcases h with closed | empty | incomplete
      · exact absurd (.inl closed) live
      · exact absurd (.inr empty) live
      · exact incomplete
    dsimp only
    split
    · rfl
    · rename_i h
      cases incomplete.symm.trans h
    · rename_i h
      cases incomplete.symm.trans h

/-- A protocol error is answered and ends the connection. -/
lemma processLoop_error (live : ¬ (client.closeAfterWrite = true ∨ pending = []))
    (error : (parseRespCommand pending).status = .error) :
    processLoop execute pending client state =
      ([⟨none, respError (parseRespCommand pending).error, state, state⟩],
        { client with
          input := pending
          output := client.output ++ respError (parseRespCommand pending).error
          closeAfterWrite := true }, state) := by
  rw [processLoop, if_neg live]
  dsimp only
  split
  · rename_i h
    cases error.symm.trans h
  · rfl
  · rename_i h
    cases error.symm.trans h

/-- A blank line is skipped. -/
lemma processLoop_blank (live : ¬ (client.closeAfterWrite = true ∨ pending = []))
    (complete : (parseRespCommand pending).status = .complete)
    (blank : (parseRespCommand pending).arguments = []) :
    processLoop execute pending client state =
      processLoop execute (pending.drop (parseRespCommand pending).consumedBytes) client state := by
  rw [processLoop, if_neg live]
  dsimp only
  split
  · rename_i h
    cases complete.symm.trans h
  · rename_i h
    cases complete.symm.trans h
  · rw [if_pos blank]

/-- The client after the reply to a command. -/
def Client.answer (reply : CommandReply) (client : Client) : Client :=
  { client with
    output := client.output ++ reply.payload
    closeAfterWrite := client.closeAfterWrite || reply.closeConnection }

/-- A command is executed and answered. -/
lemma processLoop_command (live : ¬ (client.closeAfterWrite = true ∨ pending = []))
    (complete : (parseRespCommand pending).status = .complete)
    (given : (parseRespCommand pending).arguments ≠ []) :
    processLoop execute pending client state =
      let answered := execute (parseRespCommand pending).arguments state
      let rest := processLoop execute (pending.drop (parseRespCommand pending).consumedBytes)
        (client.answer answered.1) answered.2
      (⟨some (parseRespCommand pending).arguments, answered.1.payload, state, answered.2⟩ :: rest.1,
        rest.2) := by
  rw [processLoop, if_neg live]
  dsimp only
  split
  · rename_i h
    cases complete.symm.trans h
  · rename_i h
    cases complete.symm.trans h
  · rw [if_neg given]
    rfl

end Unfold

section Append

variable {σ : Type} (execute : Execute σ)

/-- The ways through the loop: it stops, it refuses, it skips a blank line or it executes a command. -/
lemma processLoop_induction {P : Bytes → Client → σ → Prop}
    (stop : ∀ pending client state, client.closeAfterWrite = true ∨ pending = [] ∨
      (parseRespCommand pending).status = .incomplete → P pending client state)
    (error : ∀ pending client state, ¬ (client.closeAfterWrite = true ∨ pending = []) →
      (parseRespCommand pending).status = .error → P pending client state)
    (blank : ∀ pending client state, ¬ (client.closeAfterWrite = true ∨ pending = []) →
      (parseRespCommand pending).status = .complete → (parseRespCommand pending).arguments = [] →
      P (pending.drop (parseRespCommand pending).consumedBytes) client state → P pending client state)
    (command : ∀ pending client state, ¬ (client.closeAfterWrite = true ∨ pending = []) →
      (parseRespCommand pending).status = .complete → (parseRespCommand pending).arguments ≠ [] →
      P (pending.drop (parseRespCommand pending).consumedBytes)
        (client.answer (execute (parseRespCommand pending).arguments state).1)
        (execute (parseRespCommand pending).arguments state).2 → P pending client state)
    (pending : Bytes) (client : Client) (state : σ) : P pending client state := by
  induction size : pending.length using Nat.strongRecOn generalizing pending client state with
  | _ n ih =>
    by_cases done : client.closeAfterWrite = true ∨ pending = []
    · exact stop pending client state (done.imp_right .inl)
    · have shorter : (parseRespCommand pending).status = .complete →
          (pending.drop (parseRespCommand pending).consumedBytes).length < n := by
        intro complete
        have progress := parseRespCommand_progress complete
        have := List.length_pos_of_ne_nil fun e => done (.inr e)
        rw [List.length_drop]
        omega
      cases status : (parseRespCommand pending).status with
      | incomplete => exact stop pending client state (.inr (.inr status))
      | error => exact error pending client state done status
      | complete =>
        by_cases given : (parseRespCommand pending).arguments = []
        · exact blank pending client state done status given (ih _ (shorter status) _ _ _ rfl)
        · exact command pending client state done status given (ih _ (shorter status) _ _ _ rfl)

/-- The loop does not look at the input field. -/
lemma processLoop_input (pending : Bytes) (client : Client) (state : σ) (input : Bytes) :
    processLoop execute pending { client with input := input } state =
      processLoop execute pending client state := by
  induction pending, client, state using processLoop_induction execute with
  | stop pending client state h =>
    rw [processLoop_stop h]
    exact processLoop_stop h
  | error pending client state live error =>
    rw [processLoop_error live error]
    exact processLoop_error live error
  | blank pending client state live complete blank ih =>
    rw [processLoop_blank live complete blank, ← ih]
    exact processLoop_blank live complete blank
  | command pending client state live complete given ih =>
    rw [processLoop_command live complete given]
    dsimp only
    rw [← ih]
    exact processLoop_command live complete given

/-- The texts at which the parser stands when it has dealt with the commands before them. -/
inductive Reaches : Bytes → σ → Bytes → Prop where
  | here {text state} : Reaches text state text
  | blank {text state rest} :
    (parseRespCommand text).status = .complete →
    (parseRespCommand text).arguments = [] →
    Reaches (text.drop (parseRespCommand text).consumedBytes) state rest →
    Reaches text state rest
  | command {text state rest} :
    (parseRespCommand text).status = .complete →
    (parseRespCommand text).arguments ≠ [] →
    (execute (parseRespCommand text).arguments state).1.closeConnection = false →
    Reaches (text.drop (parseRespCommand text).consumedBytes)
      (execute (parseRespCommand text).arguments state).2 rest →
    Reaches text state rest

/-- No inline request that the parser comes to is too long. -/
def InlineRequestsFit (text : Bytes) (state : σ) : Prop :=
  ∀ rest, Reaches execute text state rest → InlineFits rest

section Extend

variable {execute} {text more : Bytes} {client : Client} {state : σ}

/-- A complete command at the front of a text, when more follows. -/
lemma InlineRequestsFit.extend (fits : InlineRequestsFit execute (text ++ more) state)
    (live : ¬ (client.closeAfterWrite = true ∨ text = []))
    (complete : (parseRespCommand text).status = .complete) :
    parseRespCommand (text ++ more) = parseRespCommand text ∧
    (text ++ more).drop (parseRespCommand text).consumedBytes =
      text.drop (parseRespCommand text).consumedBytes ++ more ∧
    ¬ (client.closeAfterWrite = true ∨ text ++ more = []) := by
  refine ⟨parseRespCommand_extend more (by rw [complete]; decide) (fits _ .here), ?_, ?_⟩
  · exact List.drop_append_of_le_length (parseRespCommand_within complete)
  · rw [List.append_eq_nil_iff]
    exact fun h => live (h.imp_right And.left)

lemma InlineRequestsFit.blank (fits : InlineRequestsFit execute text state)
    (complete : (parseRespCommand text).status = .complete)
    (blank : (parseRespCommand text).arguments = []) :
    InlineRequestsFit execute (text.drop (parseRespCommand text).consumedBytes) state :=
  fun rest reached => fits rest (.blank complete blank reached)

lemma InlineRequestsFit.command (fits : InlineRequestsFit execute text state) (client : Client)
    (complete : (parseRespCommand text).status = .complete)
    (given : (parseRespCommand text).arguments ≠ [])
    (stays : (client.answer (execute (parseRespCommand text).arguments state).1).closeAfterWrite =
      false) :
    InlineRequestsFit execute (text.drop (parseRespCommand text).consumedBytes)
      (execute (parseRespCommand text).arguments state).2 :=
  fun rest reached => fits rest (.command complete given (Bool.or_eq_false_iff.mp stays).2 reached)

lemma open_of_live (live : ¬ (client.closeAfterWrite = true ∨ text = [])) :
    client.closeAfterWrite = false :=
  Bool.eq_false_of_not_eq_true fun closed => live (.inl closed)

end Extend

/-- Processing a text and then more of it is processing all of it; what is left to read still fits. -/
lemma processLoop_append (more text : Bytes) (client : Client) (state : σ)
    (fits : client.closeAfterWrite = false → InlineRequestsFit execute (text ++ more) state) :
    let first := processLoop execute text client state
    let second := processLoop execute (first.2.1.input ++ more) first.2.1 first.2.2
    processLoop execute (text ++ more) client state = (first.1 ++ second.1, second.2) ∧
    (first.2.1.closeAfterWrite = false →
      InlineRequestsFit execute (first.2.1.input ++ more) first.2.2) := by
  induction text, client, state using processLoop_induction execute with
  | stop text client state h =>
    rw [processLoop_stop h]
    refine ⟨?_, fits⟩
    rw [List.nil_append]
    exact (processLoop_input execute (text ++ more) client state text).symm
  | error text client state live error =>
    have fits := fits (open_of_live live)
    have same := parseRespCommand_extend more (by rw [error]; decide) (fits _ .here)
    have live' : ¬ (client.closeAfterWrite = true ∨ text ++ more = []) := by
      rw [List.append_eq_nil_iff]
      exact fun h => live (h.imp_right And.left)
    rw [processLoop_error live error, processLoop_error live' (same ▸ error), same]
    refine ⟨?_, fun open_ => by cases open_⟩
    dsimp only
    rw [processLoop_stop (.inl rfl)]
    rfl
  | blank text client state live complete blank ih =>
    have fits := fits (open_of_live live)
    obtain ⟨same, rest, live'⟩ := fits.extend live complete
    have later := fits.blank (same ▸ complete) (same ▸ blank)
    rw [processLoop_blank live complete blank,
      processLoop_blank live' (same ▸ complete) (same ▸ blank)]
    rw [same, rest] at later ⊢
    exact ih fun _ => later
  | command text client state live complete given ih =>
    have fits := fits (open_of_live live)
    obtain ⟨same, rest, live'⟩ := fits.extend live complete
    have later := fits.command client (same ▸ complete) (same ▸ given)
    rw [processLoop_command live complete given,
      processLoop_command live' (same ▸ complete) (same ▸ given)]
    rw [same, rest] at later ⊢
    obtain ⟨both, left⟩ := ih later
    refine ⟨?_, left⟩
    dsimp only
    rw [both]
    rfl

/-- What is left after processing waits for more. -/
lemma processLoop_waits (text : Bytes) (client : Client) (state : σ) :
    let first := processLoop execute text client state
    processLoop execute first.2.1.input first.2.1 first.2.2 = ([], first.2.1, first.2.2) := by
  induction text, client, state using processLoop_induction execute with
  | stop text client state h =>
    rw [processLoop_stop h]
    exact processLoop_stop h
  | error text client state live error =>
    rw [processLoop_error live error]
    exact processLoop_stop (.inl rfl)
  | blank text client state live complete blank ih =>
    rw [processLoop_blank live complete blank]
    exact ih
  | command text client state live complete given ih =>
    rw [processLoop_command live complete given]
    exact ih

end Append

section Chunks

variable {σ : Type} (execute : Execute σ)

/-- Append each chunk to the input and process it. -/
def feedChunks : List Bytes → Client → σ → List (Answer σ) × Client × σ
  | [], client, state => ([], client, state)
  | chunk :: chunks, client, state =>
    let (first, client, state) :=
      processInput execute { client with input := client.input ++ chunk } state
    let (others, last) := feedChunks chunks client state
    (first ++ others, last)

/-- Feeding chunks to a client that waits for more. -/
lemma feedChunks_eq (chunks : List Bytes) (client : Client) (state : σ)
    (waits : processLoop execute client.input client state = ([], client, state))
    (fits : client.closeAfterWrite = false →
      InlineRequestsFit execute (client.input ++ chunks.flatten) state) :
    feedChunks execute chunks client state =
      processLoop execute (client.input ++ chunks.flatten) client state := by
  induction chunks generalizing client state with
  | nil =>
    rw [List.flatten_nil, List.append_nil, waits]
    rfl
  | cons chunk chunks ih =>
    rw [List.flatten_cons, ← List.append_assoc] at fits ⊢
    obtain ⟨both, later⟩ := processLoop_append execute chunks.flatten (client.input ++ chunk) client
      state fits
    have first : processInput execute { client with input := client.input ++ chunk } state =
        processLoop execute (client.input ++ chunk) client state :=
      processLoop_input execute (client.input ++ chunk) client state (client.input ++ chunk)
    have others := ih _ _ (processLoop_waits execute (client.input ++ chunk) client state) later
    rw [both, feedChunks, first, ← others]

/-- A stream within the limit of one inline request. -/
lemma inlineRequestsFit_of_short {text : Bytes} {state : σ} (short : text.length ≤ maxInlineSize) :
    InlineRequestsFit execute text state := by
  have shorter : ∀ rest, Reaches execute text state rest → rest.length ≤ text.length := by
    intro rest reached
    induction reached with
    | here => exact le_rfl
    | blank _ _ _ ih =>
      exact (ih (by rw [List.length_drop]; omega)).trans (by rw [List.length_drop]; omega)
    | command _ _ _ _ ih =>
      exact (ih (by rw [List.length_drop]; omega)).trans (by rw [List.length_drop]; omega)
  intro rest reached _
  have prefix_ : (inlineLine rest).length ≤ rest.length := (List.takeWhile_prefix _).length_le
  exact (prefix_.trans (shorter rest reached)).trans short

/-- However a stream is cut into chunks, feeding them one by one does what processing the stream at
once does: the same commands are executed in the same states with the same answers, and the client
ends with the same output, the same flag and the same remaining input. -/
theorem feedChunks_flatten (chunks : List Bytes) (client : Client) (state : σ)
    (fresh : client.input = []) (fits : InlineRequestsFit execute chunks.flatten state) :
    feedChunks execute chunks client state =
      processInput execute { client with input := chunks.flatten } state := by
  have waits : processLoop execute client.input client state = ([], client, state) := by
    rw [processLoop_stop (.inr (.inl fresh))]
  rw [feedChunks_eq execute chunks client state waits (by rw [fresh]; exact fun _ => fits), fresh,
    List.nil_append]
  exact (processLoop_input execute chunks.flatten client state chunks.flatten).symm

end Chunks

/-- Two requests in four chunks, and the start of a third one. -/
theorem feedChunks_flatten_split :
    let execute : Execute Nat := fun _ count => (⟨respInteger count, false⟩, count + 1)
    let result := feedChunks execute [ascii "PI", [78, 71, 13], 10 :: ascii "GET k", [10, 42, 49]] {} 0
    result = processInput execute { input := ascii "PING" ++ crlf ++ ascii "GET k\n*1" } 0 ∧
    result.1.map (fun answer => (answer.arguments, answer.payload)) =
      [(some [ascii "PING"], ascii ":0\r\n"), (some [ascii "GET", ascii "k"], ascii ":1\r\n")] ∧
    result.2.1 = { input := ascii "*1", output := ascii ":0\r\n:1\r\n" } := by
  intro execute result
  have same : result =
      processInput execute { input := ascii "PING" ++ crlf ++ ascii "GET k\n*1" } 0 :=
    feedChunks_flatten _ [ascii "PI", [78, 71, 13], 10 :: ascii "GET k", [10, 42, 49]] {} 0 rfl
      (inlineRequestsFit_of_short _ (by decide))
  refine ⟨same, ?_⟩
  rw [same]
  decide +kernel

end FlashKV
