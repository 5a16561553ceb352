import FlashKV.Lib.Framing
import FlashKV.Resp.Rendering
import FlashKV.Resp.Reply

/-!
# The length of a reply

Model of `completeReplyLength` in `benchmark.cpp`, by which the load generator counts replies. It
finds the end of every RESP value, and it finds none in the beginning of a value, so the load
generator takes exactly the replies off the stream.
-/

namespace FlashKV

namespace Benchmark

/-- The loop over the elements of an array. -/
def elementLengths (element : Nat → Option Nat) (position : Nat) : Nat → Nat → Option Nat
  | 0, total => some total
  | count + 1, total => (element (position + total)).bind fun length =>
    if length = 0 then some 0 else elementLengths element position count (total + length)

/-- Source `completeReplyLength`, for values that are nested less than so many rounds deep; `none`
where it throws. -/
def replyLength (buffer : Bytes) : Nat → Nat → Option Nat
  | 0, _ => none
  | rounds + 1, position =>
    if position ≥ buffer.length then some 0
    else (findCrlf buffer position).elim (some 0) fun lineEnd =>
      let type := (buffer.drop position).headD 0
      let headerLength := lineEnd + 2 - position
      if type = 43 ∨ type = 45 ∨ type = 58 then some headerLength
      else
        (stoll (substr buffer (position + 1) (subSize (subSize lineEnd position) 1))).bind fun count =>
          if type = 36 then
            if count < 0 then some headerLength
            else
              let total := headerLength + count.toNat + 2
              some (if position + total ≤ buffer.length then total else 0)
          else if type = 42 then
            elementLengths (replyLength buffer rounds) position count.toNat headerLength
          else none

def completeReplyLength (buffer : Bytes) (position : Nat) : Option Nat :=
  replyLength buffer (buffer.length + 1) position

section Rounds

/-- The loop only looks at what follows. -/
lemma elementLengths_congr {element element' : Nat → Option Nat} {position bound : Nat}
    (same : ∀ p, bound ≤ p → element p = element' p) (count total : Nat)
    (after : bound ≤ position + total) :
    elementLengths element position count total = elementLengths element' position count total := by
  induction count generalizing total with
  | zero => rfl
  | succ count ih =>
    rw [elementLengths, elementLengths, same _ after]
    refine congrArg _ (funext fun length => ?_)
    split
    · rfl
    · exact ih (total + length) (by omega)

/-- A round for each byte is enough. -/
lemma replyLength_rounds (buffer : Bytes) (rounds position : Nat)
    (enough : buffer.length ≤ position + rounds) :
    replyLength buffer (rounds + 2) position = replyLength buffer (rounds + 1) position := by
  induction rounds generalizing position with
  | zero =>
    have outside : position ≥ buffer.length := enough
    rw [replyLength, replyLength, if_pos outside, if_pos outside]
  | succ rounds ih =>
    rw [replyLength, replyLength]
    have later : ∀ count total, 1 ≤ total →
        elementLengths (replyLength buffer (rounds + 2)) position count total =
          elementLengths (replyLength buffer (rounds + 1)) position count total := by
      intro count total pos
      refine elementLengths_congr (fun p after => ih p ?_) count total le_rfl
      omega
    split
    · rfl
    · cases found : findCrlf buffer position with
      | none => rfl
      | some lineEnd =>
        obtain ⟨_, after, _⟩ := findCrlf_extend [] found
        dsimp only [Option.elim_some]
        split
        · rfl
        · refine congrArg _ (funext fun count => ?_)
          rw [later _ _ (by omega)]

/-- `completeReplyLength` is the recursive function of the source. -/
lemma completeReplyLength_eq (buffer : Bytes) (position : Nat) :
    completeReplyLength buffer position =
      if position ≥ buffer.length then some 0
      else (findCrlf buffer position).elim (some 0) fun lineEnd =>
        let type := (buffer.drop position).headD 0
        let headerLength := lineEnd + 2 - position
        if type = 43 ∨ type = 45 ∨ type = 58 then some headerLength
        else
          (stoll (substr buffer (position + 1) (subSize (subSize lineEnd position) 1))).bind
            fun count =>
              if type = 36 then
                if count < 0 then some headerLength
                else
                  let total := headerLength + count.toNat + 2
                  some (if position + total ≤ buffer.length then total else 0)
              else if type = 42 then
                elementLengths (completeReplyLength buffer) position count.toNat headerLength
              else none := by
  rw [completeReplyLength, ← replyLength_rounds buffer _ position (Nat.le_add_left _ _), replyLength]
  rfl

end Rounds

section Lines

variable {line text : Bytes} {kind : UInt8}

/-- A value is told by its first line. -/
lemma replyLength_header (noCr : 13 ∉ kind :: line) (before rest : Bytes) (rounds : Nat) :
    let buffer := before ++ (kind :: line ++ (crlf ++ rest))
    replyLength buffer (rounds + 1) before.length =
      if kind = 43 ∨ kind = 45 ∨ kind = 58 then some (line.length + 3)
      else (stoll line).bind fun count =>
        if kind = 36 then
          if count < 0 then some (line.length + 3)
          else some (if count.toNat + 2 ≤ rest.length then line.length + 3 + count.toNat + 2 else 0)
        else if kind = 42 then
          elementLengths (replyLength buffer rounds) before.length count.toNat (line.length + 3)
        else none := by
  intro buffer
  have isBuffer : buffer = before ++ (kind :: line ++ (crlf ++ rest)) := rfl
  have size : buffer.length = before.length + (line.length + 3) + rest.length := by
    rw [isBuffer]
    simp only [List.length_append, List.length_cons, crlf, List.length_nil]
    omega
  have found : findCrlf buffer before.length = some (before.length + (line.length + 1)) := by
    rw [findCrlf, isBuffer, List.drop_left, indexOfCrlf_append noCr]
    rfl
  have first : (buffer.drop before.length).headD 0 = kind := by
    rw [isBuffer, List.drop_left]
    rfl
  have width : subSize (subSize (before.length + (line.length + 1)) before.length) 1 =
      line.length := by
    rw [subSize_of_le (Nat.le_add_right _ _), Nat.add_sub_cancel_left,
      subSize_of_le (Nat.le_add_left _ _), Nat.add_sub_cancel]
  have header : substr buffer (before.length + 1) line.length = line := by
    rw [substr, isBuffer, List.cons_append, drop_before, List.take_left]
  have length : before.length + (line.length + 1) + 2 - before.length = line.length + 3 := by
    omega
  rw [replyLength, if_neg (by omega), found, Option.elim_some]
  dsimp only
  rw [first, width, header, length]
  have inside : ∀ count : Nat, before.length + (line.length + 3 + count + 2) ≤ buffer.length ↔
      count + 2 ≤ rest.length := by
    intro count
    omega
  simp only [inside]

/-- A first line that is cut. -/
lemma replyLength_cut (noCr : 13 ∉ line) (cut : text <+: line ++ [13]) (before : Bytes)
    (rounds : Nat) : replyLength (before ++ text) (rounds + 1) before.length = some 0 := by
  rw [replyLength]
  split
  · rfl
  · rw [findCrlf, List.drop_left, indexOfCrlf_cut noCr cut]
    rfl

end Lines

section Values

/-- The values by their structure, an array by its elements. -/
lemma reply_induction {P : Reply → Prop} (simple : ∀ line, P (.simple line))
    (error : ∀ line, P (.error line)) (integer : ∀ value, P (.integer value))
    (bulk : ∀ value, P (.bulk value)) (nil : P .nil)
    (array : ∀ elements, (∀ element ∈ elements, P element) → P (.array elements)) :
    ∀ reply, P reply
  | .simple line => simple line
  | .error line => error line
  | .integer value => integer value
  | .bulk value => bulk value
  | .nil => nil
  | .array elements => array elements fun element _ =>
    reply_induction simple error integer bulk nil array element

/-- The value is found wherever it stands, and its beginnings are told from it. -/
structure Found (reply : Reply) : Prop where
  complete : ∀ (before rest : Bytes) (rounds : Nat), reply.encode.length < rounds →
    replyLength (before ++ (reply.encode ++ rest)) rounds before.length = some reply.encode.length
  cut : ∀ (before text : Bytes) (rounds : Nat), text <+: reply.encode → text ≠ reply.encode →
    text.length < rounds → replyLength (before ++ text) rounds before.length = some 0

/-- A value that ends with its first line. -/
lemma Found.line {reply : Reply} {kind : UInt8} {line : Bytes}
    (encoded : reply.encode = kind :: line ++ crlf) (noCr : 13 ∉ kind :: line)
    (ends : ∀ before rest rounds, replyLength (before ++ (kind :: line ++ (crlf ++ rest)))
      (rounds + 1) before.length = some (line.length + 3)) : Found reply := by
  constructor
  · intro before rest rounds enough
    obtain ⟨rounds, rfl⟩ := Nat.exists_eq_succ_of_ne_zero (Nat.ne_zero_of_lt enough)
    rw [encoded, List.append_assoc, ends]
    simp [crlf]
  · intro before text rounds cut strict enough
    obtain ⟨rounds, rfl⟩ := Nat.exists_eq_succ_of_ne_zero (Nat.ne_zero_of_lt enough)
    rw [encoded] at cut strict
    have cut' : text <+: kind :: line ++ (crlf ++ []) := by rwa [List.append_nil]
    rcases prefix_line_cases cut' with short | ⟨rest, rfl, last⟩
    · exact replyLength_cut noCr short before rounds
    · rw [List.prefix_nil.mp last] at strict
      exact absurd (by rw [List.append_nil]) strict

/-- A simple string, an error or an integer. -/
lemma Found.simple {reply : Reply} {kind : UInt8} {line : Bytes}
    (encoded : reply.encode = kind :: line ++ crlf) (noCr : 13 ∉ line)
    (known : kind = 43 ∨ kind = 45 ∨ kind = 58) : Found reply := by
  have noCr' : 13 ∉ kind :: line := by
    rw [List.mem_cons, not_or]
    refine ⟨?_, noCr⟩
    rintro rfl
    exact absurd known (by decide)
  refine .line encoded noCr' fun before rest rounds => ?_
  rw [replyLength_header noCr', if_pos known]

lemma found_nil : Found .nil := by
  have noCr : 13 ∉ (36 : UInt8) :: [45, 49] := by decide
  refine .line (by decide : Reply.encode .nil = 36 :: [45, 49] ++ crlf) noCr fun before rest rounds => ?_
  have read : stoll [45, 49] = some (-1) := by decide
  rw [replyLength_header noCr, if_neg (by decide), read, Option.bind_some, if_pos rfl,
    if_pos (by decide)]

/-- The length in the first line of a bulk string or an array. -/
lemma cr_notMem_header {kind : UInt8} (other : kind ≠ 13) (n : Nat) : 13 ∉ kind :: Decimal.ofNat n := by
  rw [List.mem_cons, not_or]
  exact ⟨other.symm, cr_notMem_ofNat n⟩

lemma found_bulk {value : Bytes} (fits : (value.length : Int) ≤ int64Max) : Found (.bulk value) := by
  have noCr := cr_notMem_header (show (36 : UInt8) ≠ 13 by decide) value.length
  have encoded : (Reply.bulk value).encode =
      36 :: Decimal.ofNat value.length ++ (crlf ++ (value ++ crlf)) := by
    rw [Reply.encode, respBulkString_eq]
    rfl
  have header : ∀ before rest rounds, replyLength (before ++ (36 :: Decimal.ofNat value.length ++
      (crlf ++ rest))) (rounds + 1) before.length =
      some (if value.length + 2 ≤ rest.length then
        (Decimal.ofNat value.length).length + 3 + value.length + 2 else 0) := by
    intro before rest rounds
    rw [replyLength_header noCr, if_neg (by decide), stoll_ofNat fits, Option.bind_some, if_pos rfl,
      if_neg (by omega), Int.toNat_natCast]
  constructor
  · intro before rest rounds enough
    obtain ⟨rounds, rfl⟩ := Nat.exists_eq_succ_of_ne_zero (Nat.ne_zero_of_lt enough)
    rw [encoded, List.append_assoc, List.append_assoc, header, if_pos (by simp [crlf])]
    simp [crlf]
    omega
  · intro before text rounds cut strict enough
    obtain ⟨rounds, rfl⟩ := Nat.exists_eq_succ_of_ne_zero (Nat.ne_zero_of_lt enough)
    rw [encoded] at cut strict
    rcases prefix_line_cases cut with short | ⟨data, rfl, inData⟩
    · exact replyLength_cut noCr short before rounds
    · rw [header, if_neg]
      intro whole
      refine strict ?_
      rw [inData.eq_of_length_le (by simpa [crlf] using whole)]

/-- A value takes up at least one byte. -/
lemma encode_ne_nil (reply : Reply) : reply.encode ≠ [] := by
  cases reply with
  | simple | error | integer | bulk | nil | array =>
    simp [Reply.encode, respSimpleString, respInteger, respBulkString, respNull, crlf]

lemma length_le_encodeAll (elements : List Reply) :
    elements.length ≤ (Reply.encodeAll elements).length := by
  induction elements with
  | nil => exact Nat.zero_le _
  | cons element elements ih =>
    have one := List.length_pos_of_ne_nil (encode_ne_nil element)
    rw [Reply.encodeAll, List.length_append, List.length_cons]
    omega

/-- The elements of an array are found one after the other. -/
lemma elementLengths_complete {rounds position : Nat} {rest : Bytes} (elements : List Reply)
    (found : ∀ element ∈ elements, Found element) (before : Bytes) (total : Nat)
    (here : before.length = position + total)
    (enough : (Reply.encodeAll elements).length < rounds) :
    elementLengths (replyLength (before ++ (Reply.encodeAll elements ++ rest)) rounds) position
      elements.length total = some (total + (Reply.encodeAll elements).length) := by
  induction elements generalizing before total with
  | nil => rfl
  | cons element elements ih =>
    obtain ⟨first, others⟩ := List.forall_mem_cons.mp found
    have size : (Reply.encodeAll (element :: elements)).length =
        element.encode.length + (Reply.encodeAll elements).length := by
      rw [Reply.encodeAll, List.length_append]
    have one := first.complete before (Reply.encodeAll elements ++ rest) rounds (by omega)
    have later := ih others (before ++ element.encode) (total + element.encode.length)
      (by rw [List.length_append]; omega) (by omega)
    have shape : before ++ (Reply.encodeAll (element :: elements) ++ rest) =
        before ++ (element.encode ++ (Reply.encodeAll elements ++ rest)) := by
      rw [Reply.encodeAll, List.append_assoc]
    rw [List.append_assoc] at later
    rw [shape, List.length_cons, elementLengths, ← here, one, Option.bind_some,
      if_neg (List.length_pos_of_ne_nil (encode_ne_nil element)).ne', later, size, Nat.add_assoc]

/-- A part of the elements of an array. -/
lemma elementLengths_cut {rounds position : Nat} (elements : List Reply)
    (found : ∀ element ∈ elements, Found element) (before data : Bytes) (total : Nat)
    (here : before.length = position + total) (cut : data <+: Reply.encodeAll elements)
    (strict : data ≠ Reply.encodeAll elements) (enough : data.length < rounds) :
    elementLengths (replyLength (before ++ data) rounds) position elements.length total = some 0 := by
  induction elements generalizing before data total with
  | nil => exact absurd (List.prefix_nil.mp cut) strict
  | cons element elements ih =>
    obtain ⟨first, others⟩ := List.forall_mem_cons.mp found
    rw [Reply.encodeAll] at cut strict
    rw [List.length_cons, elementLengths, ← here]
    by_cases complete : element.encode <+: data
    · obtain ⟨later, rfl⟩ := complete
      have inRest := (List.prefix_append_right_inj element.encode).mp cut
      have next := ih others (before ++ element.encode) later (total + element.encode.length)
        (by rw [List.length_append]; omega) inRest (fun e => strict (by rw [e]))
        (by rw [List.length_append] at enough; omega)
      have one := first.complete before later rounds (by rw [List.length_append] at enough; omega)
      rw [List.append_assoc] at next
      rw [one, Option.bind_some, if_neg (List.length_pos_of_ne_nil (encode_ne_nil element)).ne', next]
    · have short : data <+: element.encode :=
        (List.prefix_or_prefix_of_prefix cut (List.prefix_append _ _)).resolve_right complete
      have strict' : data ≠ element.encode := by
        rintro rfl
        exact complete List.prefix_rfl
      rw [first.cut before data rounds short strict' enough, Option.bind_some, if_pos rfl]

lemma found_array {elements : List Reply} (found : ∀ element ∈ elements, Found element)
    (fits : (elements.length : Int) ≤ int64Max) : Found (.array elements) := by
  have noCr := cr_notMem_header (show (42 : UInt8) ≠ 13 by decide) elements.length
  have encoded : (Reply.array elements).encode =
      42 :: Decimal.ofNat elements.length ++ (crlf ++ Reply.encodeAll elements) := by
    simp [Reply.encode, ascii]
  have header : ∀ before rest rounds, replyLength (before ++ (42 :: Decimal.ofNat elements.length ++
      (crlf ++ rest))) (rounds + 1) before.length =
      elementLengths (replyLength (before ++ (42 :: Decimal.ofNat elements.length ++
        (crlf ++ rest))) rounds) before.length elements.length
        ((Decimal.ofNat elements.length).length + 3) := by
    intro before rest rounds
    rw [replyLength_header noCr, if_neg (by decide), stoll_ofNat fits, Option.bind_some,
      if_neg (by decide), if_pos rfl, Int.toNat_natCast]
  have regroup : ∀ before rest : Bytes, before ++ (42 :: Decimal.ofNat elements.length ++
      (crlf ++ rest)) = before ++ (42 :: Decimal.ofNat elements.length ++ crlf) ++ rest := by
    intro before rest
    simp
  have width : ∀ before : Bytes, (before ++ (42 :: Decimal.ofNat elements.length ++ crlf)).length =
      before.length + ((Decimal.ofNat elements.length).length + 3) := by
    intro before
    simp [crlf]
  constructor
  · intro before rest rounds enough
    obtain ⟨rounds, rfl⟩ := Nat.exists_eq_succ_of_ne_zero (Nat.ne_zero_of_lt enough)
    have size : (Reply.array elements).encode.length =
        (Decimal.ofNat elements.length).length + 3 + (Reply.encodeAll elements).length := by
      rw [encoded]
      simp [crlf]
      omega
    rw [encoded, List.append_assoc, List.append_assoc, header, regroup,
      elementLengths_complete elements found _ _ (width before) (by omega), ← encoded, size]
  · intro before text rounds cut strict enough
    obtain ⟨rounds, rfl⟩ := Nat.exists_eq_succ_of_ne_zero (Nat.ne_zero_of_lt enough)
    rw [encoded] at cut strict
    rcases prefix_line_cases cut with short | ⟨data, rfl, inData⟩
    · exact replyLength_cut noCr short before rounds
    · rw [header, regroup]
      refine elementLengths_cut elements found _ data _ (width before) inData
        (fun e => strict (by rw [e])) ?_
      simp only [List.length_append, List.length_cons] at enough
      omega

/-- Every value that fits in memory is found. -/
lemma found (reply : Reply) (fits : (reply.encode.length : Int) ≤ int64Max) : Found reply := by
  induction reply using reply_induction with
  | simple line =>
    exact .simple (show _ = 43 :: line.text ++ crlf by simp [Reply.encode, respSimpleString, ascii])
      line.noBreak.1 (by decide)
  | error line =>
    exact .simple (show _ = 45 :: line.text ++ crlf by simp [Reply.encode, ascii]) line.noBreak.1
      (by decide)
  | integer value =>
    exact .simple (show _ = 58 :: Decimal.ofInt value ++ crlf by
      simp [Reply.encode, respInteger, ascii]) (cr_notMem_ofInt value) (by decide)
  | bulk value =>
    refine found_bulk ?_
    rw [Reply.encode, respBulkString_eq] at fits
    simp only [List.length_cons, List.length_append] at fits
    omega
  | nil => exact found_nil
  | array elements ih =>
    have size : (Reply.encodeAll elements).length ≤ (Reply.array elements).encode.length := by
      rw [Reply.encode, List.length_append]
      omega
    have each : ∀ element ∈ elements, element.encode.length ≤ (Reply.encodeAll elements).length := by
      intro element mem
      rw [Reply.encodeAll_eq]
      exact List.Sublist.length_le (List.sublist_flatten_of_mem (List.mem_map_of_mem mem))
    refine found_array (fun element mem => ih element mem ?_) ?_
    · have le := each element mem
      omega
    · have count := length_le_encodeAll elements
      omega

end Values

/-- The replies that the load generator reads: values that fit in memory. -/
def IsFrame (payload : Bytes) : Prop :=
  IsReply payload ∧ (payload.length : Int) ≤ int64Max

/-- The replies are frames that `completeReplyLength` tells. -/
lemma measures_completeReplyLength : Framing.Measures completeReplyLength IsFrame where
  nonempty := by
    rintro payload ⟨⟨reply, rfl⟩, _⟩
    exact encode_ne_nil reply
  nothing := by
    intro before
    rw [completeReplyLength, replyLength, if_pos le_rfl]
  complete := by
    rintro before payload rest ⟨⟨reply, rfl⟩, fits⟩
    refine (found reply fits).complete before rest _ ?_
    simp only [List.length_append]
    omega
  cut := by
    rintro before text payload ⟨⟨reply, rfl⟩, fits⟩ cut strict
    refine (found reply fits).cut before text _ cut strict ?_
    rw [List.length_append]
    omega

end Benchmark

end FlashKV
