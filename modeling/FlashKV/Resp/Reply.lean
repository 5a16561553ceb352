import FlashKV.Resp.RoundTrip

/-!
# RESP values

The values that a reply can be, as trees, and their encodings. A simple string or an error is a
`Line`, which carries the proof that no CR or LF occurs in it. `Reply.encode_append_inj` says that
an encoding is read back uniquely whatever follows it, and `Reply.read_in_order` that a stream of
encodings is read back value by value.
-/

namespace FlashKV

/-- No CR and no LF occurs in the text. -/
def NoBreak (text : Bytes) : Prop :=
  13 ∉ text ∧ 10 ∉ text

instance (text : Bytes) : Decidable (NoBreak text) :=
  inferInstanceAs (Decidable (_ ∧ _))

lemma NoBreak.append {first second : Bytes} (h : NoBreak first) (h' : NoBreak second) :
    NoBreak (first ++ second) := by
  simp only [NoBreak, List.mem_append, not_or]
  exact ⟨⟨h.1, h'.1⟩, h.2, h'.2⟩

lemma NoBreak.of_append {first second : Bytes} (h : NoBreak (first ++ second)) :
    NoBreak first ∧ NoBreak second := by
  simp only [NoBreak, List.mem_append, not_or] at h
  exact ⟨⟨h.1.1, h.2.1⟩, h.1.2, h.2.2⟩

/-- The text of a simple string or an error. -/
structure Line where
  text : Bytes
  noBreak : NoBreak text

/-- A RESP2 value. -/
inductive Reply where
  | simple (line : Line)
  | error (line : Line)
  | integer (value : Int)
  | bulk (value : Bytes)
  | nil
  | array (elements : List Reply)

instance : Inhabited Reply :=
  ⟨.nil⟩

namespace Reply

mutual

/-- The bytes of a value. -/
def encode : Reply → Bytes
  | .simple line => respSimpleString line.text
  | .error line => ascii "-" ++ line.text ++ crlf
  | .integer value => respInteger value
  | .bulk value => respBulkString value
  | .nil => respNull
  | .array elements =>
    ascii "*" ++ Decimal.ofNat elements.length ++ crlf ++ encodeAll elements

/-- The bytes of an array's elements. -/
def encodeAll : List Reply → Bytes
  | [] => []
  | element :: elements => element.encode ++ encodeAll elements

end

lemma encodeAll_eq (elements : List Reply) :
    encodeAll elements = (elements.map encode).flatten := by
  induction elements with
  | nil => rfl
  | cons element elements ih => rw [encodeAll, ih, List.map_cons, List.flatten_cons]

end Reply

/-- The bytes are the encoding of exactly one RESP value. -/
def IsReply (payload : Bytes) : Prop :=
  ∃ reply : Reply, reply.encode = payload

section Encoders

lemma isReply_simple {text : Bytes} (h : NoBreak text) : IsReply (respSimpleString text) :=
  ⟨.simple ⟨text, h⟩, rfl⟩

lemma isReply_error {message : Bytes} (h : NoBreak message) : IsReply (respError message) := by
  refine ⟨.error ⟨ascii "ERR " ++ message, .append (by decide) h⟩, ?_⟩
  rw [Reply.encode, respError]
  rfl

lemma isReply_errorWithCode {code message : Bytes} (h : NoBreak code) (h' : NoBreak message) :
    IsReply (respErrorWithCode code message) := by
  refine ⟨.error ⟨code ++ (ascii " " ++ message), .append h (.append (by decide) h')⟩, ?_⟩
  rw [Reply.encode, respErrorWithCode]
  simp

lemma isReply_integer (value : Int) : IsReply (respInteger value) :=
  ⟨.integer value, rfl⟩

lemma isReply_bulk (value : Bytes) : IsReply (respBulkString value) :=
  ⟨.bulk value, rfl⟩

lemma isReply_null : IsReply respNull :=
  ⟨.nil, rfl⟩

lemma isReply_encodedArray {elements : List Bytes} (h : ∀ element ∈ elements, IsReply element) :
    IsReply (respEncodedArray elements) := by
  choose! reply encoded using h
  refine ⟨.array (elements.map reply), ?_⟩
  have back : (elements.map reply).map Reply.encode = elements := by
    rw [List.map_map]
    conv_rhs => rw [← List.map_id elements]
    exact List.map_congr_left encoded
  rw [Reply.encode, Reply.encodeAll_eq, back, List.length_map, respEncodedArray]

lemma isReply_array (values : List Bytes) : IsReply (respArray values) := by
  have elements : ∀ element ∈ values.map respBulkString, IsReply element := by
    intro element mem
    obtain ⟨value, _, rfl⟩ := List.mem_map.mp mem
    exact isReply_bulk value
  have h := isReply_encodedArray elements
  rwa [respEncodedArray, List.length_map] at h

/-- An error whose text breaks the line is no RESP value: its first line ends too early. -/
lemma not_isReply_error {message : Bytes} (broken : ¬ NoBreak message) :
    ¬ IsReply (respError message) := by
  rintro ⟨reply, encoded⟩
  cases reply with
  | error line =>
    have tail := List.append_cancel_right encoded
    have text : line.text = ascii "ERR " ++ message := List.cons_injective tail
    exact broken (NoBreak.of_append (text ▸ line.noBreak)).2
  | simple | integer | bulk | nil | array =>
    have head := congrArg List.head? encoded
    simp [Reply.encode, respSimpleString, respInteger, respBulkString, respNull, respError,
      ascii] at head

end Encoders

section Reading

variable {x y : Bytes}

/-- A line is read up to its CR LF. -/
lemma line_append_inj {first second : Bytes} (h : 13 ∉ first) (h' : 13 ∉ second)
    (e : first ++ (crlf ++ x) = second ++ (crlf ++ y)) : first = second ∧ x = y := by
  have len := congrArg indexOfCrlf e
  rw [indexOfCrlf_append h, indexOfCrlf_append h', Option.some.injEq] at len
  obtain ⟨rfl, tail⟩ := List.append_inj e len
  exact ⟨rfl, List.append_cancel_left tail⟩

lemma cr_notMem_ofInt (value : Int) : (13 : UInt8) ∉ Decimal.ofInt value :=
  Decimal.not_mem_ofInt (by decide) (by decide)

/-- A bulk string is read by its length. -/
lemma bulk_append_inj {value value' : Bytes}
    (e : respBulkString value ++ x = respBulkString value' ++ y) : value = value' ∧ x = y := by
  simp only [respBulkString_eq, List.cons_append, List.append_assoc, List.cons.injEq,
    true_and] at e
  obtain ⟨header, e⟩ := line_append_inj (cr_notMem_ofNat _) (cr_notMem_ofNat _) e
  obtain ⟨rfl, tail⟩ := List.append_inj e (Decimal.ofNat_injective header)
  exact ⟨rfl, List.append_cancel_left tail⟩

/-- A bulk string does not start like nil. -/
lemma bulk_ne_null {value : Bytes} : respBulkString value ++ x ≠ respNull ++ y := by
  intro e
  have null : respNull = 36 :: ([45, 49] ++ crlf) := by decide
  rw [null] at e
  simp only [respBulkString_eq, List.cons_append, List.append_assoc, List.cons.injEq,
    true_and] at e
  have header := (line_append_inj (cr_notMem_ofNat _) (by decide : (13 : UInt8) ∉ [45, 49]) e).1
  have minus : (45 : UInt8) ∈ Decimal.ofNat value.length := by simp [header]
  exact Decimal.not_mem_ofNat (by decide) minus

namespace Reply

mutual

/-- An encoding is read back uniquely, whatever follows it. -/
lemma encode_append_inj : ∀ (r r' : Reply) {x y : Bytes},
    r.encode ++ x = r'.encode ++ y → r = r' ∧ x = y
  | .simple line, .simple line', x, y, e => by
    obtain ⟨text, noBreak⟩ := line
    obtain ⟨text', noBreak'⟩ := line'
    simp only [encode, respSimpleString, List.append_assoc] at e
    obtain ⟨rfl, rfl⟩ := line_append_inj noBreak.1 noBreak'.1 (List.append_cancel_left e)
    exact ⟨rfl, rfl⟩
  | .error line, .error line', x, y, e => by
    obtain ⟨text, noBreak⟩ := line
    obtain ⟨text', noBreak'⟩ := line'
    simp only [encode, List.append_assoc] at e
    obtain ⟨rfl, rfl⟩ := line_append_inj noBreak.1 noBreak'.1 (List.append_cancel_left e)
    exact ⟨rfl, rfl⟩
  | .integer value, .integer value', x, y, e => by
    simp only [encode, respInteger, List.append_assoc] at e
    obtain ⟨numeral, rfl⟩ := line_append_inj (cr_notMem_ofInt _) (cr_notMem_ofInt _)
      (List.append_cancel_left e)
    have same := congrArg Decimal.parseSigned numeral
    rw [Decimal.parseSigned_ofInt, Decimal.parseSigned_ofInt, Option.some.injEq] at same
    exact ⟨by rw [same], rfl⟩
  | .bulk value, .bulk value', x, y, e => by
    obtain ⟨rfl, rfl⟩ := bulk_append_inj e
    exact ⟨rfl, rfl⟩
  | .nil, .nil, x, y, e => ⟨rfl, List.append_cancel_left e⟩
  | .array elements, .array elements', x, y, e => by
    simp only [encode, List.append_assoc] at e
    obtain ⟨count, e⟩ := line_append_inj (cr_notMem_ofNat _) (cr_notMem_ofNat _)
      (List.append_cancel_left e)
    obtain ⟨rfl, rfl⟩ := encodeAll_append_inj elements elements' (Decimal.ofNat_injective count) e
    exact ⟨rfl, rfl⟩
  | .bulk _, .nil, x, y, e => absurd e bulk_ne_null
  | .nil, .bulk _, x, y, e => absurd e.symm bulk_ne_null
  | .simple _, .error _, x, y, e | .simple _, .integer _, x, y, e | .simple _, .bulk _, x, y, e
  | .simple _, .nil, x, y, e | .simple _, .array _, x, y, e
  | .error _, .simple _, x, y, e | .error _, .integer _, x, y, e | .error _, .bulk _, x, y, e
  | .error _, .nil, x, y, e | .error _, .array _, x, y, e
  | .integer _, .simple _, x, y, e | .integer _, .error _, x, y, e | .integer _, .bulk _, x, y, e
  | .integer _, .nil, x, y, e | .integer _, .array _, x, y, e
  | .bulk _, .simple _, x, y, e | .bulk _, .error _, x, y, e | .bulk _, .integer _, x, y, e
  | .bulk _, .array _, x, y, e
  | .nil, .simple _, x, y, e | .nil, .error _, x, y, e | .nil, .integer _, x, y, e
  | .nil, .array _, x, y, e
  | .array _, .simple _, x, y, e | .array _, .error _, x, y, e | .array _, .integer _, x, y, e
  | .array _, .bulk _, x, y, e | .array _, .nil, x, y, e => by
    have head := congrArg List.head? e
    simp [encode, respSimpleString, respInteger, respBulkString, respNull, ascii] at head

/-- The elements of an array are read back one by one. -/
lemma encodeAll_append_inj : ∀ (rs rs' : List Reply) {x y : Bytes}, rs.length = rs'.length →
    encodeAll rs ++ x = encodeAll rs' ++ y → rs = rs' ∧ x = y
  | [], [], x, y, _, e => ⟨rfl, e⟩
  | r :: rs, r' :: rs', x, y, len, e => by
    simp only [encodeAll, List.append_assoc] at e
    obtain ⟨rfl, tail⟩ := encode_append_inj r r' e
    obtain ⟨rfl, rfl⟩ := encodeAll_append_inj rs rs' (Nat.succ.inj len) tail
    exact ⟨rfl, rfl⟩

end

/-- A client that reads values from a stream of payloads, each of one value, reads them in order. -/
lemma read_in_order {payloads : List Bytes} (framed : ∀ payload ∈ payloads, IsReply payload)
    (values : List Reply) (few : values.length ≤ payloads.length) (rest : Bytes)
    (stream : payloads.flatten = (values.map encode).flatten ++ rest) :
    values.map encode = payloads.take values.length := by
  induction values generalizing payloads with
  | nil => rfl
  | cons value values ih =>
    cases payloads with
    | nil => simp at few
    | cons payload payloads =>
      obtain ⟨reply, rfl⟩ := framed payload (by simp)
      rw [List.flatten_cons, List.map_cons, List.flatten_cons, List.append_assoc] at stream
      obtain ⟨rfl, tail⟩ := encode_append_inj reply value stream
      have ih := ih (fun p mem => framed p (by simp [mem])) (by simpa using few) tail
      rw [List.map_cons, ih, List.length_cons, List.take_succ_cons]

end Reply

end Reading

end FlashKV
