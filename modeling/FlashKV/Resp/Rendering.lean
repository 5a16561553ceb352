import FlashKV.Resp.Format

/-!
# The renderer inverts the encoders

`ReplyValue` is a reply as a tree of values, `ReplyValue.encode` its bytes by the encoders of
`resp.cpp`, and `ReplyValue.render` what a terminal shows of it. `format` goes from the bytes to the
rendering and stops exactly after them, wherever they stand. A line of a `ReplyValue` may hold a CR
or an LF alone, unlike one of a `Reply`: the reader looks for the two together.
-/

namespace FlashKV

/-- No CR LF occurs in the text; a CR or an LF alone may. -/
def Unbroken (text : Bytes) : Prop :=
  ¬ crlf <:+: text

instance (text : Bytes) : Decidable (Unbroken text) :=
  inferInstanceAs (Decidable (¬ _))

/-- A text without CR LF. -/
structure LineText where
  text : Bytes
  unbroken : Unbroken text

/-- The value of a reply. -/
inductive ReplyValue where
  | simple (line : LineText)
  | error (message : LineText)
  | integer (value : Int) (fits : IsInt64 value)
  | bulk (value : Bytes)
  | nil
  | array (elements : List ReplyValue)

namespace ReplyValue

mutual

/-- The bytes of a value. -/
def encode : ReplyValue → Bytes
  | .simple line => respSimpleString line.text
  | .error message => respError message.text
  | .integer value _ => respInteger value
  | .bulk value => respBulkString value
  | .nil => respNull
  | .array elements => respEncodedArray (encodeEach elements)

/-- The bytes of each element of an array. -/
def encodeEach : List ReplyValue → List Bytes
  | [] => []
  | element :: elements => element.encode :: encodeEach elements

end

mutual

/-- What `redis-cli` shows of a value, `indent` being the width of what stands before it in its line:
an array has its elements on lines of their own, their numbers right-aligned. -/
def render (raw : Bool) (indent : Nat) : ReplyValue → Bytes
  | .simple line => line.text
  | .error message => ascii "(error) ERR " ++ message.text
  | .integer value _ => ascii "(integer) " ++ Decimal.ofInt value
  | .bulk value => if raw then value else quote value
  | .nil => ascii "(nil)"
  | .array elements =>
    let width := (Decimal.ofNat elements.length).length
    if elements.isEmpty then ascii "(empty array)"
    else List.intercalate (10 :: List.replicate indent 32)
      (renderEach raw (indent + width + 2) width 1 elements)

/-- The elements of an array from the one numbered `i` on, each after its number. -/
def renderEach (raw : Bool) (indent width : Nat) : Nat → List ReplyValue → List Bytes
  | _, [] => []
  | i, element :: elements =>
    ((Decimal.ofNat i).leftpad width 32 ++ ascii ") " ++ render raw indent element) ::
      renderEach raw indent width (i + 1) elements

end

/-- The values by their structure, an array by its elements. -/
lemma induction {P : ReplyValue → Prop} (simple : ∀ line, P (.simple line))
    (error : ∀ message, P (.error message)) (integer : ∀ value fits, P (.integer value fits))
    (bulk : ∀ value, P (.bulk value)) (nil : P .nil)
    (array : ∀ elements, (∀ element ∈ elements, P element) → P (.array elements)) :
    ∀ value, P value
  | .simple line => simple line
  | .error message => error message
  | .integer value fits => integer value fits
  | .bulk value => bulk value
  | .nil => nil
  | .array elements => array elements fun element _ =>
    induction simple error integer bulk nil array element

lemma length_encodeEach (elements : List ReplyValue) :
    (encodeEach elements).length = elements.length := by
  induction elements with
  | nil => rfl
  | cons element elements ih => rw [encodeEach, List.length_cons, List.length_cons, ih]

/-- A value takes up at least one byte. -/
lemma encode_pos (value : ReplyValue) : 0 < value.encode.length := by
  cases value with
  | simple | error | integer | bulk | nil | array =>
    simp [encode, respSimpleString, respError, respInteger, respBulkString, respNull,
      respEncodedArray, crlf]

lemma length_le_flatten (elements : List ReplyValue) :
    elements.length ≤ (encodeEach elements).flatten.length := by
  induction elements with
  | nil => exact le_rfl
  | cons element elements ih =>
    have pos := element.encode_pos
    rw [encodeEach, List.flatten_cons, List.length_append, List.length_cons]
    omega

end ReplyValue

/-! ### Lines -/

section Lines

variable {line text : Bytes} {b : UInt8}

lemma Unbroken.tail (unbroken : Unbroken (b :: line)) : Unbroken line :=
  fun inside => unbroken (inside.trans (List.suffix_cons b line).isInfix)

/-- A byte in front that is no CR. -/
lemma Unbroken.cons (noCr : b ≠ 13) (unbroken : Unbroken line) : Unbroken (b :: line) := by
  intro inside
  rcases List.infix_cons_iff.mp inside with first | later
  · exact noCr (List.cons_prefix_cons.mp first).1.symm
  · exact unbroken later

lemma Unbroken.of_noCr (noCr : 13 ∉ line) : Unbroken line :=
  fun inside => noCr (inside.subset List.mem_cons_self)

/-- The first CR LF is the one after the line. -/
lemma indexOfCrlf_unbroken (unbroken : Unbroken line) (rest : Bytes) :
    indexOfCrlf (line ++ (crlf ++ rest)) = some line.length := by
  induction line with
  | nil => rfl
  | cons b line ih =>
    have elsewhere : ¬ crlf <+: b :: (line ++ (crlf ++ rest)) := by
      intro here
      obtain ⟨cr, lf⟩ := List.cons_prefix_cons.mp here
      cases line with
      | nil => exact absurd (List.cons_prefix_cons.mp lf).1 (by decide)
      | cons c line =>
        refine unbroken (List.IsPrefix.isInfix ?_)
        rw [← cr, ← (List.cons_prefix_cons.mp lf).1]
        exact ⟨line, rfl⟩
    rw [List.cons_append, indexOfCrlf, if_neg elsewhere, ih unbroken.tail]
    rfl

/-- A numeral without a sign, as `stoll` reads it. -/
lemma stoll_ofNat {n : Nat} (fits : (n : Int) ≤ int64Max) :
    stoll (Decimal.ofNat n) = some (n : Int) := by
  have digits : ∀ b ∈ Decimal.ofNat n, Decimal.isDigit b = true :=
    fun b mem => Decimal.isDigit_of_mem_ofNat mem
  have all : (Decimal.ofNat n).takeWhile Decimal.isDigit = Decimal.ofNat n :=
    List.takeWhile_eq_self_iff.mpr digits
  obtain ⟨d, ds, e⟩ := List.exists_cons_of_ne_nil (Decimal.ofNat_ne_nil n)
  have isDigit : Decimal.isDigit d = true := digits d (by simp [e])
  have blank : isspace d = false := by
    by_contra h
    simp [isspace, Decimal.isDigit, UInt8.le_iff_toNat_le, ← UInt8.toNat_inj] at h isDigit
    omega
  have minus : d ≠ 45 := by
    rintro rfl
    exact absurd isDigit (by decide)
  have plus : d ≠ 43 := by
    rintro rfl
    exact absurd isDigit (by decide)
  have same : (Decimal.ofNat n).dropWhile isspace = Decimal.ofNat n := by
    rw [e, List.dropWhile_cons_of_neg (by simp [blank])]
  have first : (Decimal.ofNat n).head? = some d := by
    rw [e, List.head?_cons]
  have fitted : fit64 n = some (n : Int) := by
    rw [fit64_eq_some_iff]
    exact ⟨rfl, by rw [int64Min]; omega, fits⟩
  rw [stoll, same, first]
  simp [minus, plus, all, Decimal.ofNat_ne_nil, Decimal.value_ofNat, fitted]

end Lines

namespace ReplyReader

section Inverse

variable {raw : Bool} {line output before rest reply : Bytes} {kind : UInt8}
  {indent rounds : Nat}

/-- A value is read with its first line. -/
lemma format_line (unbroken : Unbroken line)
    (whole : reply = before ++ kind :: (line ++ (crlf ++ rest)))
    (fits : reply.length < 2 ^ 63 - 1) :
    format reply raw (rounds + 1) output indent before.length =
      formatKind reply raw (format reply raw rounds) rounds kind line output indent
        (before.length + (line.length + 3)) := by
  have total : reply.length = before.length + (line.length + 3) + rest.length := by
    rw [whole]
    simp only [List.length_append, List.length_cons, crlf, List.length_nil]
    omega
  obtain ⟨first, read, e⟩ := Checked.get_inside (show before.length < reply.length by omega)
  have after : reply.drop (before.length + 1) = line ++ (crlf ++ rest) := by
    rw [whole]
    exact drop_before before _ kind
  have isKind : first = kind := by
    rw [whole, List.drop_left, List.cons.injEq] at e
    exact e.1.symm
  have found : findCrlf reply (before.length + 1) = some (before.length + 1 + line.length) := by
    rw [findCrlf, after, indexOfCrlf_unbroken unbroken]
    rfl
  have size : before.length + 1 + line.length - (before.length + 1) = line.length := by
    omega
  have text : (reply.drop (before.length + 1)).take line.length = line := by
    rw [after, List.take_left]
  have next : before.length + 1 + line.length + 2 = before.length + (line.length + 3) := by
    omega
  rw [format, if_neg (by omega), read, pure_bind, readLine, Checked.find_inside (by omega),
    pure_bind, found, Option.elim_some, Checked.sub_fits (by omega), pure_bind, size,
    Checked.substr_inside (by omega), pure_bind, Checked.add_fits (by omega), pure_bind, pure_bind,
    next, isKind, text]
  rfl

/-- The data of a bulk string, after its first line. -/
lemma formatBulkString_data {value head : Bytes} (rest : Bytes)
    (whole : reply = head ++ (value ++ (crlf ++ rest)))
    (fits : reply.length < 2 ^ 63 - 1) :
    formatBulkString reply raw (Decimal.ofNat value.length) output head.length =
      pure (some (output ++ (if raw then value else quote value),
        head.length + value.length + 2)) := by
  have total : reply.length = head.length + value.length + 2 + rest.length := by
    rw [whole]
    simp only [List.length_append, crlf, List.length_cons, List.length_nil]
    omega
  have count : stoll (Decimal.ofNat value.length) = some (value.length : Int) :=
    stoll_ofNat (by rw [int64Max]; omega)
  have data : (reply.drop head.length).take value.length = value := by
    rw [whole, List.drop_left, List.take_left]
  rw [formatBulkString, count, Option.elim_some, if_neg (by omega), Int.toNat_natCast,
    Checked.add_fits (by omega), pure_bind, Checked.add_fits (by omega), pure_bind,
    if_neg (by omega), Checked.substr_inside (by omega), pure_bind, data]

/-- Wherever the value stands in a reply, `format` shows it and goes on after it. -/
def Inverts (raw : Bool) (value : ReplyValue) : Prop :=
  ∀ (before trailing output : Bytes) (indent rounds : Nat),
    (before ++ (value.encode ++ trailing)).length < 2 ^ 63 - 1 →
    (value.encode ++ trailing).length < rounds →
    format (before ++ (value.encode ++ trailing)) raw rounds output indent before.length =
      pure (some (output ++ value.render raw indent, before.length + value.encode.length))

/-- The items of an array from number `i` on, in lines that are separated. -/
def joinFrom (separator : Bytes) (i : Nat) (items : List Bytes) : Bytes :=
  if i > 1 then (items.map (separator ++ ·)).flatten else List.intercalate separator items

lemma intercalate_cons_flatten (separator item : Bytes) (items : List Bytes) :
    List.intercalate separator (item :: items) = item ++ (items.map (separator ++ ·)).flatten := by
  induction items generalizing item with
  | nil => rw [List.intercalate_singleton, List.map_nil, List.flatten_nil, List.append_nil]
  | cons next items ih =>
    rw [List.intercalate_cons_cons, ih, List.map_cons, List.flatten_cons]
    simp only [List.append_assoc]

lemma joinFrom_cons (separator item : Bytes) (items : List Bytes) {i : Nat} (pos : 0 < i) :
    joinFrom separator i (item :: items) =
      (if i > 1 then separator else []) ++ item ++ joinFrom separator (i + 1) items := by
  have later : joinFrom separator (i + 1) items = (items.map (separator ++ ·)).flatten :=
    if_pos (by omega)
  rw [later, joinFrom]
  split
  · rw [List.map_cons, List.flatten_cons]
  · rw [List.nil_append, intercalate_cons_flatten]

lemma elementLabel_eq {width i : Nat} (fits : (Decimal.ofNat i).length ≤ width) :
    elementLabel width indent i = pure ((if i > 1 then 10 :: List.replicate indent 32 else []) ++
      ((Decimal.ofNat i).leftpad width 32 ++ ascii ") ")) := by
  rw [elementLabel, Checked.sub_fits fits]
  rfl

/-- The loop over the elements shows each of them after its number. -/
lemma formatElements_encodeEach {elements : List ReplyValue}
    (inverts : ∀ element ∈ elements, Inverts raw element) {count width i total : Nat}
    (trailing : Bytes) (labels : ∀ i ≤ count, (Decimal.ofNat i).length ≤ width)
    (number : i + elements.length = count + 1) (pos : 0 < i) (few : rounds ≤ total)
    (whole : reply = before ++ ((ReplyValue.encodeEach elements).flatten ++ trailing))
    (fits : reply.length < 2 ^ 63 - 1)
    (enough : ((ReplyValue.encodeEach elements).flatten ++ trailing).length < rounds) :
    formatElements (format reply raw total) count width indent rounds i output before.length =
      pure (some (output ++ joinFrom (10 :: List.replicate indent 32) i
          (ReplyValue.renderEach raw (indent + width + 2) width i elements),
        before.length + (ReplyValue.encodeEach elements).flatten.length)) := by
  induction elements generalizing before output i rounds with
  | nil =>
    rw [List.length_nil, Nat.add_zero] at number
    cases rounds with
    | zero => omega
    | succ rounds =>
      rw [formatElements, if_neg (by omega)]
      simp [ReplyValue.renderEach, ReplyValue.encodeEach, joinFrom, List.intercalate]
  | cons element elements ih =>
    rw [List.length_cons] at number
    rw [ReplyValue.encodeEach, List.flatten_cons, List.append_assoc] at whole enough
    have some_bytes := element.encode_pos
    rw [List.length_append] at enough
    cases rounds with
    | zero => omega
    | succ rounds =>
      have shown := inverts element (by simp) before
        ((ReplyValue.encodeEach elements).flatten ++ trailing)
        (output ++ ((if i > 1 then 10 :: List.replicate indent 32 else []) ++
          ((Decimal.ofNat i).leftpad width 32 ++ ascii ") ")))
        (indent + width + 2) total (whole ▸ fits) (by rw [List.length_append]; omega)
      rw [← whole] at shown
      have next : before.length + element.encode.length = (before ++ element.encode).length :=
        List.length_append.symm
      rw [next] at shown
      rw [formatElements, if_pos (by omega), elementLabel_eq (labels i (by omega)), pure_bind, shown,
        pure_bind, Option.elim_some]
      dsimp only
      rw [ih (fun e mem => inverts e (by simp [mem])) (by omega) (by omega) (by omega)
        (by rw [whole, List.append_assoc]) (by omega), ReplyValue.renderEach,
        joinFrom_cons _ _ _ pos, ReplyValue.encodeEach, List.flatten_cons]
      simp only [List.append_assoc, List.length_append, Nat.add_assoc]

/-- A value with a first line and a body, where the switch shows it and goes on after the body. -/
lemma inverts_of {value : ReplyValue} (kind : UInt8) (unbroken : Unbroken line) (body : Bytes)
    (encoded : value.encode = kind :: (line ++ (crlf ++ body)))
    (shown : ∀ (reply head trailing output : Bytes) (indent rounds : Nat),
      reply = head ++ (body ++ trailing) → reply.length < 2 ^ 63 - 1 →
      (body ++ trailing).length < rounds →
      formatKind reply raw (format reply raw rounds) rounds kind line output indent head.length =
        pure (some (output ++ value.render raw indent, head.length + body.length))) :
    Inverts raw value := by
  intro before trailing output indent rounds fits enough
  have whole : before ++ (value.encode ++ trailing) =
      before ++ kind :: (line ++ (crlf ++ (body ++ trailing))) := by
    rw [encoded, List.cons_append, List.append_assoc, List.append_assoc]
  have behind : before ++ (value.encode ++ trailing) =
      (before ++ kind :: (line ++ crlf)) ++ (body ++ trailing) := by
    rw [whole, List.append_assoc, List.cons_append, List.append_assoc]
  have head : before.length + (line.length + 3) = (before ++ kind :: (line ++ crlf)).length := by
    simp [crlf]
  have size : value.encode.length = line.length + 3 + body.length := by
    rw [encoded]
    simp [crlf]
    omega
  cases rounds with
  | zero => omega
  | succ rounds =>
    rw [List.length_append, size] at enough
    rw [format_line unbroken whole fits, head, shown _ _ trailing output indent rounds behind fits
      (by rw [List.length_append]; omega), ← head, size, Nat.add_assoc]

/-- A value whose first line is its whole encoding. -/
lemma inverts_line {value : ReplyValue} (kind : UInt8) (unbroken : Unbroken line)
    (encoded : value.encode = kind :: (line ++ (crlf ++ [])))
    (shown : ∀ reply element rounds output indent position,
      formatKind reply raw element rounds kind line output indent position =
        pure (some (output ++ value.render raw indent, position))) : Inverts raw value :=
  inverts_of kind unbroken [] encoded fun reply head _ output indent rounds _ _ _ =>
    shown reply _ rounds output indent head.length

lemma inverts_bulk (value : Bytes) : Inverts raw (.bulk value) := by
  refine inverts_of 36 (.of_noCr (cr_notMem_ofNat value.length)) (value ++ crlf) ?_ ?_
  · rw [ReplyValue.encode, respBulkString]
    simp only [List.append_assoc]
    rfl
  · intro reply head trailing output indent rounds whole fits _
    rw [List.append_assoc] at whole
    show formatBulkString _ _ _ _ _ = _
    rw [formatBulkString_data trailing whole fits, List.length_append]
    rfl

lemma inverts_array {elements : List ReplyValue}
    (inverts : ∀ element ∈ elements, Inverts raw element) : Inverts raw (.array elements) := by
  refine inverts_of 42 (.of_noCr (cr_notMem_ofNat elements.length))
    (ReplyValue.encodeEach elements).flatten ?_ ?_
  · rw [ReplyValue.encode, respEncodedArray, ReplyValue.length_encodeEach]
    simp only [List.append_assoc]
    rfl
  intro reply head trailing output indent rounds whole fits enough
  have few : elements.length ≤ (ReplyValue.encodeEach elements).flatten.length :=
    ReplyValue.length_le_flatten elements
  have bound := congrArg List.length whole
  rw [List.length_append, List.length_append] at bound
  have count : stoll (Decimal.ofNat elements.length) = some (elements.length : Int) :=
    stoll_ofNat (by rw [int64Max]; omega)
  show formatArray _ _ _ _ _ _ = _
  rw [formatArray, count, Option.elim_some, if_neg (by omega), Decimal.ofInt_of_nonneg (by omega),
    Int.toNat_natCast]
  by_cases nothing : elements = []
  · subst nothing
    rfl
  · have some_ : elements.length ≠ 0 := by
      rwa [ne_eq, List.length_eq_zero_iff]
    rw [if_neg (by omega), formatElements_encodeEach inverts trailing
      (fun i le => Decimal.length_ofNat_mono le) (Nat.add_comm 1 _) one_pos le_rfl whole fits enough]
    simp only [ReplyValue.render, joinFrom, List.isEmpty_iff, nothing, gt_iff_lt, lt_irrefl,
      if_false]

/-- `format` inverts the encoders. -/
lemma inverts (value : ReplyValue) : Inverts raw value := by
  induction value using ReplyValue.induction with
  | simple line =>
    refine inverts_line 43 line.unbroken ?_ fun _ _ _ _ _ _ => rfl
    rw [ReplyValue.encode, respSimpleString, List.append_assoc]
    rfl
  | error message =>
    have unbroken : Unbroken (ascii "ERR " ++ message.text) :=
      .cons (by decide) (.cons (by decide) (.cons (by decide) (.cons (by decide) message.unbroken)))
    refine inverts_line 45 unbroken ?_ fun _ _ _ _ _ _ => rfl
    rw [ReplyValue.encode, respError, List.append_assoc]
    rfl
  | integer value fits =>
    have unbroken : Unbroken (Decimal.ofInt value) :=
      .of_noCr (Decimal.not_mem_ofInt (by decide) (by decide))
    refine inverts_line 58 unbroken ?_ fun _ _ _ _ _ _ => rfl
    rw [ReplyValue.encode, respInteger, List.append_assoc]
    rfl
  | bulk value => exact inverts_bulk value
  | nil =>
    have minus : stoll (ascii "-1") = some (-1) := by decide
    have unbroken : Unbroken (ascii "-1") := by decide
    refine inverts_line 36 unbroken rfl fun reply element rounds output indent
      position => ?_
    have isBulk : formatKind reply raw element rounds 36 (ascii "-1") output indent position =
        formatBulkString reply raw (ascii "-1") output position := rfl
    rw [isBulk, formatBulkString, minus]
    rfl
  | array elements ih => exact inverts_array ih

end Inverse

end ReplyReader

/-- An array shows the number of its first element first. -/
lemma ReplyValue.render_array_head (raw : Bool) (indent : Nat) (element : ReplyValue)
    (elements : List ReplyValue) :
    ∃ b rest, (b = 32 ∨ b = 49) ∧ render raw indent (.array (element :: elements)) = b :: rest := by
  have first : ∃ b rest, (b = 32 ∨ b = 49) ∧
      (Decimal.ofNat 1).leftpad (Decimal.ofNat (elements.length + 1)).length 32 = b :: rest := by
    rw [List.leftpad]
    cases (Decimal.ofNat (elements.length + 1)).length - (Decimal.ofNat 1).length with
    | zero => exact ⟨49, [], .inr rfl, rfl⟩
    | succ padding => exact ⟨32, _, .inl rfl, rfl⟩
  obtain ⟨b, rest, isHead, e⟩ := first
  rw [render, List.length_cons, if_neg (by simp), renderEach, ReplyReader.intercalate_cons_flatten, e]
  exact ⟨b, _, isHead, rfl⟩

/-- The text of a failure is shown for no other value than this text itself. -/
lemma ReplyValue.render_eq_protocolError (raw : Bool) (value : ReplyValue) :
    value.render raw 0 = ascii "(protocol error)" ↔
      (∃ line, value = .simple line ∧ line.text = ascii "(protocol error)") ∨
      (raw = true ∧ value = .bulk (ascii "(protocol error)")) := by
  cases value with
  | simple line => simp [render]
  | error message =>
    have other : render raw 0 (.error message) ≠ ascii "(protocol error)" := fun e =>
      absurd (congrArg (fun text => text.take 2) e) (by simp [render, ascii])
    simp [other]
  | integer number fits =>
    have other : render raw 0 (.integer number fits) ≠ ascii "(protocol error)" := fun e =>
      absurd (congrArg (fun text => text.take 2) e) (by simp [render, ascii])
    simp [other]
  | bulk data =>
    cases raw with
    | true => simp [render]
    | false =>
      have other : quote data ≠ ascii "(protocol error)" := fun e =>
        absurd (congrArg List.head? e) (by simp [quote, ascii])
      simp [render, other]
  | nil => simp [render, show ascii "(nil)" ≠ ascii "(protocol error)" by decide]
  | array elements =>
    have other : render raw 0 (.array elements) ≠ ascii "(protocol error)" := by
      cases elements with
      | nil =>
        show ascii "(empty array)" ≠ ascii "(protocol error)"
        decide
      | cons element elements =>
        obtain ⟨b, rest, isHead, e⟩ := render_array_head raw 0 element elements
        rw [e]
        rintro same
        cases (List.cons.inj same).1
        exact absurd isHead (by decide)
    simp [other]

/-- The renderer inverts the encoders. On any reply, shorter than `2 ^ 63 - 1` bytes, it comes to an
end and reads nothing outside the reply. Where the encoding of a value stands in the reply, `format`
shows the value and goes on exactly after the encoding; so `formatReply` shows the value at the front
of the reply. The text of a failure comes out only if the value is this text. -/
theorem formatReply_encode (reply : Bytes) (raw : Bool) (fits : reply.length < 2 ^ 63 - 1) :
    (∃ output, formatReply reply raw = pure output) ∧
    (∀ (value : ReplyValue) (before trailing output : Bytes) (indent : Nat),
      reply = before ++ (value.encode ++ trailing) →
      ReplyReader.format reply raw (reply.length + 1) output indent before.length =
        pure (some (output ++ value.render raw indent, before.length + value.encode.length))) ∧
    ∀ (value : ReplyValue) (trailing : Bytes), reply = value.encode ++ trailing →
      formatReply reply raw = pure (value.render raw 0) ∧
      (formatReply reply raw = pure (ascii "(protocol error)") ↔
        (∃ line, value = .simple line ∧ line.text = ascii "(protocol error)") ∨
        (raw = true ∧ value = .bulk (ascii "(protocol error)"))) := by
  have inverse : ∀ (value : ReplyValue) (before trailing output : Bytes) (indent : Nat),
      reply = before ++ (value.encode ++ trailing) →
      ReplyReader.format reply raw (reply.length + 1) output indent before.length =
        pure (some (output ++ value.render raw indent, before.length + value.encode.length)) := by
    rintro value before trailing output indent rfl
    refine ReplyReader.inverts value before trailing output indent _ fits ?_
    have total : (before ++ (value.encode ++ trailing)).length =
        before.length + (value.encode ++ trailing).length := List.length_append
    omega
  refine ⟨formatReply_total fits raw, inverse, fun value trailing whole => ?_⟩
  have shown : formatReply reply raw = pure (value.render raw 0) := by
    have formatted := inverse value [] trailing [] 0 whole
    rw [List.length_nil, List.nil_append] at formatted
    rw [formatReply, formatted]
    rfl
  refine ⟨shown, ?_⟩
  rw [shown, ← value.render_eq_protocolError raw]
  exact ⟨fun e => Except.ok.inj e, fun e => congrArg pure e⟩

/-- An array of two elements, the second one an array of two. -/
theorem formatReply_encode_nested :
    formatReply (ReplyValue.encode (.array [.nil, .array [.bulk [13, 10], .integer 7 (by decide)]]) ++
        ascii "+trailing") false =
      pure (ascii "1) (nil)\n2) 1) \"\\r\\n\"\n   2) (integer) 7") :=
  ((formatReply_encode (ReplyValue.encode
    (.array [.nil, .array [.bulk [13, 10], .integer 7 (by decide)]]) ++ ascii "+trailing") false
    (by decide)).2.2 _ (ascii "+trailing") rfl).1.trans (by decide)

/-- A simple string can be the text of a failure. -/
theorem formatReply_protocolError :
    formatReply (ReplyValue.encode (.simple ⟨ascii "(protocol error)", by decide⟩)) false =
      pure (ascii "(protocol error)") := by
  decide +kernel

end FlashKV
