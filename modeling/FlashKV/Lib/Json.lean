import FlashKV.Lib.Utf8

/-!
# JSON texts

JSON values with integers and strings, their texts without white space, and a reader for them. In a
string the quotes, the backslash and the control characters are escaped. A string is given by its
bytes, which need not be UTF-8; a text is, so that a value with other bytes is written to no JSON text.
The main fact is `parse_render`: if what is written is UTF-8, reading undoes writing, so the text
denotes no other value.
-/

inductive Json where
  | number (value : Int)
  | string (value : Bytes)
  | array (items : List Json)
  | object (members : List (Bytes × Json))

namespace Json

/-! ### Writing -/

def hexDigit (n : Nat) : UInt8 :=
  UInt8.ofNat (if n < 10 then 48 + n else 87 + n)

/-- A byte of a string. -/
def escape (b : UInt8) : Bytes :=
  if b = 34 then [92, 34]
  else if b = 92 then [92, 92]
  else if b = 10 then [92, 110]
  else if b = 13 then [92, 114]
  else if b = 9 then [92, 116]
  else if b < 32 then [92, 117, 48, 48, hexDigit (b.toNat / 16), hexDigit (b.toNat % 16)]
  else [b]

def renderString (value : Bytes) : Bytes :=
  34 :: (value.flatMap escape ++ [34])

mutual

def render : Json → Bytes
  | .number value => Decimal.ofInt value
  | .string value => renderString value
  | .array items => 91 :: (List.intercalate [44] (renderEach items) ++ [93])
  | .object members => 123 :: (List.intercalate [44] (renderMembers members) ++ [125])

def renderEach : List Json → List Bytes
  | [] => []
  | item :: items => render item :: renderEach items

def renderMembers : List (Bytes × Json) → List Bytes
  | [] => []
  | (name, value) :: members =>
    (renderString name ++ (58 :: render value)) :: renderMembers members

end

/-! ### Reading -/

def hexValue (b : UInt8) : Option Nat :=
  if 48 ≤ b ∧ b ≤ 57 then some (b.toNat - 48)
  else if 97 ≤ b ∧ b ≤ 102 then some (b.toNat - 87)
  else if 65 ≤ b ∧ b ≤ 70 then some (b.toNat - 55)
  else none

/-- The characters that are escaped by one letter. -/
def escapes : List (UInt8 × UInt8) :=
  [(34, 34), (92, 92), (47, 47), (98, 8), (102, 12), (110, 10), (114, 13), (116, 9)]

/-- The code point after a `u`, where it is one byte. -/
def readCodePoint (text : Bytes) : Option (UInt8 × Bytes) :=
  ((text.take 4).mapM hexValue).bind fun digits =>
    let code := digits.foldl (fun code digit => code * 16 + digit) 0
    if digits.length = 4 ∧ code < 128 then some (UInt8.ofNat code, text.drop 4) else none

/-- What follows a backslash. -/
def readEscape (text : Bytes) : Option (UInt8 × Bytes) :=
  text.head?.bind fun kind =>
    if kind = 117 then readCodePoint text.tail
    else (escapes.lookup kind).map fun b => (b, text.tail)

/-- A string after its first quote, of less than so many characters. -/
def readString : Nat → Bytes → Option (Bytes × Bytes)
  | 0, _ => none
  | rounds + 1, text =>
    text.head?.bind fun first =>
      if first = 34 then some ([], text.tail)
      else if first < 32 then none
      else (if first = 92 then readEscape text.tail else some (first, text.tail)).bind fun found =>
        (readString rounds found.2).map fun later => (found.1 :: later.1, later.2)

/-- Can the byte stand in a number? -/
def isNumeral (b : UInt8) : Bool :=
  Decimal.isDigit b || b == 45

/-- An integer without leading zeros. -/
def readNumber (text : Bytes) : Option (Json × Bytes) :=
  (Decimal.parseSigned (text.takeWhile isNumeral)).bind fun value =>
    if text.takeWhile isNumeral = Decimal.ofInt value then
      some (.number value, text.dropWhile isNumeral)
    else none

section Lists

variable {α : Type}

/-- At least one item, with commas between them, up to the closing bracket. -/
def readList (item : Bytes → Option (α × Bytes)) (close : UInt8) : Nat → Bytes →
    Option (List α × Bytes)
  | 0, _ => none
  | rounds + 1, text =>
    (item text).bind fun found =>
      if found.2.head? = some close then some ([found.1], found.2.tail)
      else if found.2.head? = some 44 then
        (readList item close rounds found.2.tail).map fun later => (found.1 :: later.1, later.2)
      else none

/-- A name, a colon and a value. -/
def readMember (value : Bytes → Option (α × Bytes)) (text : Bytes) : Option ((Bytes × α) × Bytes) :=
  if text.head? = some 34 then
    (readString text.length text.tail).bind fun name =>
      if name.2.head? = some 58 then
        (value name.2.tail).map fun found => ((name.1, found.1), found.2)
      else none
  else none

end Lists

/-- A value, nested less than so many rounds deep, and what follows it. -/
def read : Nat → Bytes → Option (Json × Bytes)
  | 0, _ => none
  | rounds + 1, text =>
    if text.head? = some 34 then
      (readString text.length text.tail).map fun found => (.string found.1, found.2)
    else if text.head? = some 91 then
      if text.tail.head? = some 93 then some (.array [], text.tail.tail)
      else (readList (read rounds) 93 text.length text.tail).map fun found =>
        (.array found.1, found.2)
    else if text.head? = some 123 then
      if text.tail.head? = some 125 then some (.object [], text.tail.tail)
      else (readList (readMember (read rounds)) 125 text.length text.tail).map fun found =>
        (.object found.1, found.2)
    else readNumber text

/-- The value of a whole text, which has to be UTF-8. -/
def parse (text : Bytes) : Option Json :=
  if Utf8 text then
    (read (text.length + 1) text).bind fun found => if found.2 = [] then some found.1 else none
  else none

/-! ### Reading undoes writing -/

lemma hexValue_hexDigit {n : Nat} (lt : n < 16) : hexValue (hexDigit n) = some n := by
  interval_cases n <;> rfl

/-- The escape of a control character. -/
lemma readCodePoint_hexDigit {b : UInt8} (lt : b < 32) (rest : Bytes) :
    readCodePoint ([48, 48, hexDigit (b.toNat / 16), hexDigit (b.toNat % 16)] ++ rest) =
      some (b, rest) := by
  have small : b.toNat < 32 := lt
  have zero : hexValue 48 = some 0 := rfl
  have high := hexValue_hexDigit (show b.toNat / 16 < 16 by omega)
  have low := hexValue_hexDigit (show b.toNat % 16 < 16 by omega)
  have whole : b.toNat / 16 * 16 + b.toNat % 16 = b.toNat := by omega
  have digits : [48, 48, hexDigit (b.toNat / 16), hexDigit (b.toNat % 16)].mapM hexValue =
      some [0, 0, b.toNat / 16, b.toNat % 16] := by
    simp [List.mapM_cons, zero, high, low]
  have four : ([48, 48, hexDigit (b.toNat / 16), hexDigit (b.toNat % 16)] ++ rest).take 4 =
      [48, 48, hexDigit (b.toNat / 16), hexDigit (b.toNat % 16)] := rfl
  rw [readCodePoint, four, digits, Option.bind_some]
  dsimp only [List.foldl_cons, List.foldl_nil]
  rw [if_pos ⟨rfl, by omega⟩]
  simp [whole]

/-- A character is read back. -/
lemma readString_escape (b : UInt8) (rounds : Nat) (rest : Bytes) :
    readString (rounds + 1) (escape b ++ rest) =
      (readString rounds rest).map fun later => (b :: later.1, later.2) := by
  unfold escape
  split_ifs with quotes backslash newline carriage tab control
  · subst quotes
    rfl
  · subst backslash
    rfl
  · subst newline
    rfl
  · subst carriage
    rfl
  · subst tab
    rfl
  · have point := readCodePoint_hexDigit control rest
    have escaped : readString (rounds + 1) (92 :: 117 :: ([48, 48, hexDigit (b.toNat / 16),
        hexDigit (b.toNat % 16)] ++ rest)) =
        (readCodePoint ([48, 48, hexDigit (b.toNat / 16), hexDigit (b.toNat % 16)] ++ rest)).bind
          fun found => (readString rounds found.2).map fun later => (found.1 :: later.1, later.2) :=
      rfl
    rw [point] at escaped
    exact escaped
  · rw [readString, List.singleton_append, List.head?_cons, Option.bind_some, if_neg quotes,
      if_neg control, if_neg backslash]
    rfl

/-- A string is read back. -/
lemma readString_render (value rest : Bytes) (rounds : Nat) (enough : value.length < rounds) :
    readString rounds (value.flatMap escape ++ (34 :: rest)) = some (value, rest) := by
  induction value generalizing rounds with
  | nil =>
    obtain ⟨rounds, rfl⟩ := Nat.exists_eq_succ_of_ne_zero (Nat.ne_zero_of_lt enough)
    rfl
  | cons b value ih =>
    obtain ⟨rounds, rfl⟩ := Nat.exists_eq_succ_of_ne_zero (Nat.ne_zero_of_lt enough)
    rw [List.flatMap_cons, List.append_assoc, readString_escape,
      ih rounds (Nat.lt_of_succ_lt_succ enough)]
    rfl

lemma length_escape (b : UInt8) : 1 ≤ (escape b).length := by
  unfold escape
  split_ifs <;> exact Nat.le_add_left _ _

lemma length_flatMap_escape (value : Bytes) : value.length ≤ (value.flatMap escape).length := by
  induction value with
  | nil => exact le_rfl
  | cons b value ih =>
    have one := length_escape b
    rw [List.flatMap_cons, List.length_append, List.length_cons]
    omega

/-- A string in its quotes. -/
lemma readString_renderString (value rest : Bytes) :
    let text := renderString value ++ rest
    text.head? = some 34 ∧ readString text.length text.tail = some (value, rest) := by
  have size := length_flatMap_escape value
  refine ⟨rfl, ?_⟩
  simp only [renderString, List.cons_append, List.append_assoc, List.tail_cons, List.length_cons,
    List.length_append, List.nil_append]
  exact readString_render value rest _ (by omega)

/-! Numbers end where something else begins. -/

/-- What may follow a value. -/
def Follows (rest : Bytes) : Prop :=
  ∀ b ∈ rest.head?, isNumeral b = false

lemma isNumeral_of_mem_ofInt {z : Int} {b : UInt8} (mem : b ∈ Decimal.ofInt z) : isNumeral b = true := by
  by_contra other
  rw [isNumeral, Bool.or_eq_true, not_or] at other
  exact Decimal.not_mem_ofInt (Bool.eq_false_of_not_eq_true other.1)
    (fun minus => other.2 (beq_iff_eq.mpr minus)) mem

lemma readNumber_ofInt (value : Int) {rest : Bytes} (follows : Follows rest) :
    readNumber (Decimal.ofInt value ++ rest) = some (.number value, rest) := by
  have all : ∀ b ∈ Decimal.ofInt value, isNumeral b = true := fun b mem => isNumeral_of_mem_ofInt mem
  have stop : rest.takeWhile isNumeral = [] ∧ rest.dropWhile isNumeral = rest := by
    cases rest with
    | nil => exact ⟨rfl, rfl⟩
    | cons b rest =>
      have other := follows b rfl
      exact ⟨by rw [List.takeWhile_cons, other]; rfl, by rw [List.dropWhile_cons, other]; rfl⟩
  rw [readNumber, List.takeWhile_append_of_pos all, List.dropWhile_append_of_pos all, stop.1, stop.2,
    List.append_nil, Decimal.parseSigned_ofInt, Option.bind_some, if_pos rfl]

/-! Lists, and values by their structure. -/

section Lists

variable {α : Type} {item : Bytes → Option (α × Bytes)} {close : UInt8}

/-- The item is read wherever it is followed by a comma or by the closing bracket. -/
def Reads (item : Bytes → Option (α × Bytes)) (text : Bytes) (value : α) : Prop :=
  ∀ rest, Follows rest → item (text ++ rest) = some (value, rest)

/-- A list of items is read back. -/
lemma readList_intercalate (end_ : isNumeral close = false) (other : close ≠ 44) {first : Bytes}
    {texts : List Bytes} {values : List α} (each : List.Forall₂ (Reads item) (first :: texts) values)
    (rest : Bytes) (rounds : Nat) (enough : texts.length < rounds) :
    readList item close rounds (List.intercalate [44] (first :: texts) ++ (close :: rest)) =
      some (values, rest) := by
  induction texts generalizing first values rounds with
  | nil =>
    obtain ⟨rounds, rfl⟩ := Nat.exists_eq_succ_of_ne_zero (Nat.ne_zero_of_lt enough)
    cases each with
    | cons one none =>
      cases none
      have found := one (close :: rest) (by rintro b ⟨⟩; exact end_)
      rw [List.intercalate_singleton, readList, found, Option.bind_some, List.head?_cons, if_pos rfl]
      rfl
  | cons second texts ih =>
    obtain ⟨rounds, rfl⟩ := Nat.exists_eq_succ_of_ne_zero (Nat.ne_zero_of_lt enough)
    cases each with
    | cons one others =>
      rw [List.intercalate_cons_cons, List.append_assoc, List.append_assoc]
      have comma : Follows ([44] ++ (List.intercalate [44] (second :: texts) ++ (close :: rest))) := by
        rintro b ⟨⟩
        rfl
      have notClose : (44 : UInt8) ≠ close := other.symm
      rw [readList, one _ comma, Option.bind_some, List.singleton_append, List.head?_cons,
        if_neg (by simpa using notClose), if_pos rfl, List.tail_cons,
        ih others rounds (Nat.lt_of_succ_lt_succ enough)]
      rfl

end Lists

/-- The values by their structure. -/
lemma induction {P : Json → Prop} (number : ∀ value, P (.number value))
    (string : ∀ value, P (.string value))
    (array : ∀ items, (∀ item ∈ items, P item) → P (.array items))
    (object : ∀ members, (∀ member ∈ members, P member.2) → P (.object members)) : ∀ json, P json
  | .number value => number value
  | .string value => string value
  | .array items => array items fun item _ => induction number string array object item
  | .object members => object members fun member mem =>
    have smaller : sizeOf member.2 < sizeOf members := by
      have le := List.sizeOf_lt_of_mem mem
      have part : sizeOf member = 1 + sizeOf member.1 + sizeOf member.2 := rfl
      omega
    induction number string array object member.2

lemma renderEach_eq (items : List Json) : renderEach items = items.map render := by
  induction items with
  | nil => rfl
  | cons item items ih => rw [renderEach, List.map_cons, ih]

/-- The text of a member. -/
def renderMember (member : Bytes × Json) : Bytes :=
  renderString member.1 ++ (58 :: render member.2)

lemma renderMembers_eq (members : List (Bytes × Json)) :
    renderMembers members = members.map renderMember := by
  induction members with
  | nil => rfl
  | cons member members ih => rw [renderMembers, List.map_cons, ih, renderMember]

lemma length_intercalate (texts : List Bytes) :
    texts.length ≤ (List.intercalate [44] texts).length + 1 ∧
    ∀ text ∈ texts, text.length ≤ (List.intercalate [44] texts).length := by
  induction texts with
  | nil => exact ⟨Nat.zero_le _, nofun⟩
  | cons first texts ih =>
    cases texts with
    | nil => exact ⟨Nat.le_add_left _ _, fun text mem => by
        rw [List.mem_singleton.mp mem, List.intercalate_singleton]⟩
    | cons second texts =>
      obtain ⟨count, each⟩ := ih
      rw [List.intercalate_cons_cons, List.length_append, List.length_append, List.length_cons,
        List.length_singleton]
      refine ⟨by omega, fun text mem => ?_⟩
      rcases List.mem_cons.mp mem with rfl | mem
      · omega
      · have le := each text mem
        omega

/-- The first byte of a value closes nothing. -/
lemma render_head (json : Json) : ∃ b text, render json = b :: text ∧ b ≠ 93 := by
  cases json with
  | number value =>
    cases numeral : Decimal.ofInt value with
    | nil =>
      have read := Decimal.parseSigned_ofInt value
      rw [numeral] at read
      cases read
    | cons b text =>
      refine ⟨b, text, numeral, ?_⟩
      rintro rfl
      have mem : (93 : UInt8) ∈ Decimal.ofInt value := by simp [numeral]
      exact absurd (isNumeral_of_mem_ofInt mem) (by decide)
  | string | array | object => exact ⟨_, _, rfl, by decide⟩

lemma reads_number (value : Int) (rounds : Nat) :
    Reads (read (rounds + 1)) (render (.number value)) (.number value) := by
  intro rest follows
  obtain ⟨b, text, shape, _⟩ := render_head (.number value)
  have numeral : isNumeral b = true := isNumeral_of_mem_ofInt (z := value) (by
    rw [render] at shape
    simp [shape])
  have other : ∀ c, isNumeral c = false → (render (.number value) ++ rest).head? ≠ some c := by
    intro c no found
    rw [shape] at found
    cases found
    rw [no] at numeral
    cases numeral
  rw [read, if_neg (other _ rfl), if_neg (other _ rfl), if_neg (other _ rfl)]
  exact readNumber_ofInt value follows

lemma reads_string (value : Bytes) (rounds : Nat) :
    Reads (read (rounds + 1)) (render (.string value)) (.string value) := by
  intro rest _
  obtain ⟨quotes, found⟩ := readString_renderString value rest
  rw [render, read, if_pos quotes, found]
  rfl

/-- The items of an array or of an object that has some, between the brackets. -/
lemma readList_closed {α : Type} {item : Bytes → Option (α × Bytes)} {close b : UInt8}
    (opening : UInt8) (end_ : isNumeral close = false) (other : close ≠ 44) {first tail : Bytes} {texts : List Bytes}
    {values : List α} (each : List.Forall₂ (Reads item) (first :: texts) values)
    (shape : first = b :: tail) (head : b ≠ close) (rest : Bytes) :
    let text := opening :: (List.intercalate [44] (first :: texts) ++ [close]) ++ rest
    text.head? = some opening ∧ text.tail.head? ≠ some close ∧
    readList item close text.length text.tail = some (values, rest) := by
  intro text
  have whole : text.tail = List.intercalate [44] (first :: texts) ++ (close :: rest) := by
    simp [text]
  refine ⟨rfl, ?_, ?_⟩
  · rw [whole, shape]
    cases texts with
    | nil => simpa using head
    | cons second texts => simpa [List.intercalate_cons_cons] using head
  · have size := (length_intercalate (first :: texts)).1
    rw [whole]
    refine readList_intercalate end_ other each rest _ ?_
    simp only [text, List.length_append, List.length_cons, List.length_nil] at size ⊢
    omega

lemma reads_array {items : List Json} {rounds : Nat}
    (each : ∀ item ∈ items, Reads (read rounds) (render item) item) :
    Reads (read (rounds + 1)) (render (.array items)) (.array items) := by
  intro rest _
  rw [render, renderEach_eq]
  cases items with
  | nil => rfl
  | cons item items =>
    obtain ⟨b, text, shape, other⟩ := render_head item
    have texts : List.Forall₂ (Reads (read rounds)) ((item :: items).map render) (item :: items) := by
      rw [List.forall₂_map_left_iff, List.forall₂_same]
      exact each
    rw [List.map_cons] at texts ⊢
    obtain ⟨opens, some_, found⟩ := readList_closed 91 rfl (by decide) texts shape other rest
    rw [read, if_neg (by rw [opens]; decide), if_pos opens, if_neg some_, found]
    rfl

/-- A member is read back if its value is. -/
lemma reads_member {member : Bytes × Json} {value : Bytes → Option (Json × Bytes)}
    (reads : Reads value (render member.2) member.2) :
    Reads (readMember value) (renderMember member) member := by
  intro rest follows
  obtain ⟨quotes, found⟩ := readString_renderString member.1 (58 :: (render member.2 ++ rest))
  have whole : renderMember member ++ rest =
      renderString member.1 ++ (58 :: (render member.2 ++ rest)) := by
    rw [renderMember, List.append_assoc]
    rfl
  rw [whole, readMember, if_pos quotes, found, Option.bind_some, List.head?_cons, if_pos rfl,
    List.tail_cons, reads rest follows]
  rfl

lemma reads_object {members : List (Bytes × Json)} {rounds : Nat}
    (each : ∀ member ∈ members, Reads (read rounds) (render member.2) member.2) :
    Reads (read (rounds + 1)) (render (.object members)) (.object members) := by
  intro rest _
  rw [render, renderMembers_eq]
  cases members with
  | nil => rfl
  | cons member members =>
    have texts : List.Forall₂ (Reads (readMember (read rounds)))
        ((member :: members).map renderMember) (member :: members) := by
      rw [List.forall₂_map_left_iff, List.forall₂_same]
      exact fun other mem => reads_member (each other mem)
    rw [List.map_cons] at texts ⊢
    have closes : isNumeral 125 = false := rfl
    obtain ⟨opens, some_, found⟩ := readList_closed 123 closes (by decide) texts rfl (by decide) rest
    rw [read, if_neg (by rw [opens]; decide), if_neg (by rw [opens]; decide), if_pos opens,
      if_neg some_, found]
    rfl

/-- A value is read back, whatever follows it that is no number. -/
lemma reads (json : Json) (rounds : Nat) (enough : (render json).length ≤ rounds) :
    Reads (read rounds) (render json) json := by
  induction json using induction generalizing rounds with
  | number value =>
    obtain ⟨b, text, shape, _⟩ := render_head (.number value)
    rw [shape, List.length_cons] at enough
    obtain ⟨rounds, rfl⟩ := Nat.exists_eq_succ_of_ne_zero (Nat.ne_zero_of_lt enough)
    exact reads_number value rounds
  | string value =>
    obtain ⟨rounds, rfl⟩ := Nat.exists_eq_succ_of_ne_zero (Nat.ne_zero_of_lt enough)
    exact reads_string value rounds
  | array items ih =>
    obtain ⟨rounds, rfl⟩ := Nat.exists_eq_succ_of_ne_zero (Nat.ne_zero_of_lt enough)
    refine reads_array fun item mem => ih item mem rounds ?_
    rw [render, List.length_cons, List.length_append] at enough
    have le := (length_intercalate (renderEach items)).2 (render item)
      (by rw [renderEach_eq]; exact List.mem_map_of_mem mem)
    omega
  | object members ih =>
    obtain ⟨rounds, rfl⟩ := Nat.exists_eq_succ_of_ne_zero (Nat.ne_zero_of_lt enough)
    refine reads_object fun member mem => ih member mem rounds ?_
    rw [render, List.length_cons, List.length_append] at enough
    have le := (length_intercalate (renderMembers members)).2 (renderMember member)
      (by rw [renderMembers_eq]; exact List.mem_map_of_mem mem)
    rw [renderMember, List.length_append, List.length_cons] at le
    omega

/-- Reading undoes writing, and what is not UTF-8 is not read. -/
lemma parse_render (json : Json) :
    parse (render json) = if Utf8 (render json) then some json else none := by
  have found := reads json ((render json).length + 1) (Nat.le_succ _) [] nofun
  rw [List.append_nil] at found
  rw [parse, found, Option.bind_some, if_pos rfl]

/-! ### Which texts are UTF-8 -/

lemma hexDigit_plain {n : Nat} (lt : n < 16) : 32 ≤ hexDigit n ∧ hexDigit n < 128 := by
  interval_cases n <;> decide

/-- A byte that is no control character is left as it is, or it is ASCII and some ASCII bytes that are
no control characters stand for it. -/
lemma escape_shape (b : UInt8) :
    escape b = [b] ∧ 32 ≤ b ∨ b < 128 ∧ ∃ first rest, escape b = first :: rest ∧
      ∀ c ∈ first :: rest, 32 ≤ c ∧ c < 128 := by
  unfold escape
  have short : ∀ {letter : UInt8}, 32 ≤ letter ∧ letter < 128 →
      ∀ c ∈ [92, letter], 32 ≤ c ∧ c < 128 := fun plain =>
    List.forall_mem_cons.mpr ⟨by decide, List.forall_mem_singleton.mpr plain⟩
  split_ifs with quotes backslash newline carriage tab control
  · subst quotes
    exact .inr ⟨by decide, _, _, rfl, short (by decide)⟩
  · subst backslash
    exact .inr ⟨by decide, _, _, rfl, short (by decide)⟩
  · subst newline
    exact .inr ⟨by decide, _, _, rfl, short (by decide)⟩
  · subst carriage
    exact .inr ⟨by decide, _, _, rfl, short (by decide)⟩
  · subst tab
    exact .inr ⟨by decide, _, _, rfl, short (by decide)⟩
  · have small : b.toNat < 32 := control
    refine .inr ⟨show b.toNat < 128 by omega, _, _, rfl, ?_⟩
    simp only [List.forall_mem_cons]
    exact ⟨by decide, by decide, by decide, by decide, hexDigit_plain (by omega),
      hexDigit_plain (by omega), nofun⟩
  · exact .inl ⟨rfl, UInt8.not_lt.mp control⟩

/-- Escaping keeps a string UTF-8, and makes no other one so. -/
lemma utf8_escape (front value : Bytes) :
    Utf8 (front ++ value.flatMap escape) ↔ Utf8 (front ++ value) := by
  induction value generalizing front with
  | nil => rfl
  | cons b value ih =>
    rw [List.flatMap_cons]
    rcases escape_shape b with ⟨plain, _⟩ | ⟨small, first, rest, escaped, shape⟩
    · rw [plain, ← List.append_assoc, ih, List.append_assoc]
      rfl
    · obtain ⟨one, others⟩ := List.forall_mem_cons.mp fun c mem => (shape c mem).2
      have later := ih []
      rw [List.nil_append, List.nil_append] at later
      rw [escaped, List.cons_append, utf8_append_cons one, utf8_ascii_append others, later,
        utf8_append_cons small]

lemma utf8_renderString (value : Bytes) : Utf8 (renderString value) ↔ Utf8 value := by
  have inner := utf8_escape [] value
  rw [List.nil_append, List.nil_append] at inner
  rw [renderString, utf8_cons (by decide), utf8_append_cons (by decide), inner]
  exact and_iff_left utf8_nil

lemma utf8_number (value : Int) : Utf8 (render (.number value)) := by
  refine utf8_of_ascii fun b mem => ?_
  have numeral := isNumeral_of_mem_ofInt mem
  rw [isNumeral, Bool.or_eq_true, beq_iff_eq, Decimal.isDigit, Bool.and_eq_true, decide_eq_true_eq,
    decide_eq_true_eq] at numeral
  rcases numeral with digit | rfl
  · exact UInt8.lt_iff_toNat_lt.mpr (digit.2.trans_lt (by decide))
  · decide

lemma utf8_string (value : Bytes) : Utf8 (render (.string value)) ↔ Utf8 value :=
  utf8_renderString value

lemma utf8_array (items : List Json) :
    Utf8 (render (.array items)) ↔ ∀ item ∈ items, Utf8 (render item) := by
  rw [render, renderEach_eq, utf8_cons (by decide), utf8_append_cons (by decide),
    utf8_intercalate (by decide), List.forall_mem_map]
  exact and_iff_left utf8_nil

lemma utf8_object (members : List (Bytes × Json)) :
    Utf8 (render (.object members)) ↔
      ∀ member ∈ members, Utf8 member.1 ∧ Utf8 (render member.2) := by
  have each : ∀ member : Bytes × Json,
      Utf8 (renderMember member) ↔ Utf8 member.1 ∧ Utf8 (render member.2) := by
    intro member
    rw [renderMember, utf8_append_cons (by decide), utf8_renderString]
  rw [render, renderMembers_eq, utf8_cons (by decide), utf8_append_cons (by decide),
    utf8_intercalate (by decide), List.forall_mem_map]
  simp only [each]
  exact and_iff_left utf8_nil

/-! ### Control characters -/

/-- No control character is left of a character. -/
lemma escape_ge (b : UInt8) : ∀ c ∈ escape b, 32 ≤ c := by
  rcases escape_shape b with ⟨plain, ge⟩ | ⟨_, first, rest, escaped, shape⟩
  · rw [plain, List.forall_mem_singleton]
    exact ge
  · rw [escaped]
    exact fun c mem => (shape c mem).1

lemma renderString_ge (value : Bytes) : ∀ c ∈ renderString value, 32 ≤ c := by
  rw [renderString, List.forall_mem_cons, List.forall_mem_append, List.forall_mem_singleton]
  refine ⟨by decide, fun c mem => ?_, by decide⟩
  obtain ⟨b, _, mem⟩ := List.mem_flatMap.mp mem
  exact escape_ge b c mem

lemma intercalate_ge {texts : List Bytes} (each : ∀ text ∈ texts, ∀ c ∈ text, 32 ≤ c) :
    ∀ c ∈ List.intercalate [44] texts, 32 ≤ c := by
  induction texts with
  | nil => exact nofun
  | cons first texts ih =>
    obtain ⟨one, others⟩ := List.forall_mem_cons.mp each
    cases texts with
    | nil => rwa [List.intercalate_singleton]
    | cons second texts =>
      rw [List.intercalate_cons_cons, List.forall_mem_append, List.forall_mem_append,
        List.forall_mem_singleton]
      exact ⟨⟨one, by decide⟩, ih others⟩

/-- A text has no control characters, so it stands on one line and is not cut as a C string. -/
lemma render_ge (json : Json) : ∀ c ∈ render json, 32 ≤ c := by
  induction json using induction with
  | number value =>
    intro c mem
    have numeral := isNumeral_of_mem_ofInt mem
    rw [isNumeral, Bool.or_eq_true, beq_iff_eq, Decimal.isDigit, Bool.and_eq_true,
      decide_eq_true_eq] at numeral
    rcases numeral with digit | rfl
    · exact UInt8.le_iff_toNat_le.mpr ((by decide : (32 : UInt8).toNat ≤ 48).trans digit.1)
    · decide
  | string value => exact renderString_ge value
  | array items ih =>
    rw [render, renderEach_eq, List.forall_mem_cons, List.forall_mem_append, List.forall_mem_singleton]
    refine ⟨by decide, intercalate_ge fun text mem => ?_, by decide⟩
    obtain ⟨item, among, rfl⟩ := List.mem_map.mp mem
    exact ih item among
  | object members ih =>
    rw [render, renderMembers_eq, List.forall_mem_cons, List.forall_mem_append,
      List.forall_mem_singleton]
    refine ⟨by decide, intercalate_ge fun text mem => ?_, by decide⟩
    obtain ⟨member, among, rfl⟩ := List.mem_map.mp mem
    rw [renderMember, List.forall_mem_append, List.forall_mem_cons]
    exact ⟨renderString_ge member.1, by decide, ih member among⟩

example : parse (ascii "[1,-20,[]]") = some (.array [.number 1, .number (-20), .array []]) := rfl

example : parse [34, 195, 164, 34] = some (.string [195, 164]) ∧ parse [34, 195, 34] = none :=
  ⟨rfl, rfl⟩

end Json
