import FlashKV.Lib.Checked
import FlashKV.Resp.Extension
import FlashKV.Resp.Quote

/-!
# Rendering replies

Model of `reply_format.cpp`: `ReplyReader` with its cursor into the reply, and `formatReply`. What is
read at a position is checked, and the recursion has so many rounds at most: `formatReply_total` says
that it never reads outside the reply and that a round for each byte is enough.
-/

namespace FlashKV

/-- `isspace` of the "C" locale, which `strtoll` skips. -/
def isspace (character : UInt8) : Bool :=
  character = 32 ∨ (9 ≤ character ∧ character ≤ 13)

/-- `std::stoll`: white space, a sign and digits, and anything after them. It throws `none` where
there is no digit or where the number does not fit. -/
def stoll (text : Bytes) : Option Int :=
  let text := text.dropWhile isspace
  let negative : Bool := text.head? = some 45
  let digits := (if negative ∨ text.head? = some 43 then text.tail else text).takeWhile
    Decimal.isDigit
  if digits = [] then none
  else fit64 (if negative then -(Decimal.value digits : Int) else Decimal.value digits)

namespace ReplyReader

/-- What `format` does with the output, the indent and the cursor: the output and the cursor
afterwards, or `none` where it returns `false` or throws. -/
abbrev Formatter := Bytes → Nat → Nat → Checked (Option (Bytes × Nat))

def readLine (reply : Bytes) (position : Nat) : Checked (Option (Bytes × Nat)) := do
  let found ← Checked.find reply (findCrlf reply) position
  found.elim (pure none) fun lineEnd => do
    let count ← Checked.sub lineEnd position
    let line ← Checked.substr reply position count
    let next ← Checked.add lineEnd 2
    pure (some (line, next))

/-- A bulk string after its first line. -/
def formatBulkString (reply : Bytes) (raw : Bool) (line output : Bytes) (position : Nat) :
    Checked (Option (Bytes × Nat)) :=
  (stoll line).elim (pure none) fun length =>
    if length < 0 then pure (some (output ++ ascii "(nil)", position))
    else do
      let dataEnd ← Checked.add position length.toNat
      let next ← Checked.add dataEnd 2
      if next > reply.length then pure none
      else do
        let value ← Checked.substr reply position length.toNat
        pure (some (output ++ (if raw then value else quote value), next))

/-- What is written before element `i` of an array: the line break and the indent, if it is not the
first one, and its number. -/
def elementLabel (width indent i : Nat) : Checked Bytes := do
  let padding ← Checked.sub width (Decimal.ofNat i).length
  pure ((if i > 1 then 10 :: List.replicate indent 32 else []) ++
    (List.replicate padding 32 ++ Decimal.ofNat i ++ ascii ") "))

/-- The loop over the elements of an array, from the element numbered `i` on. -/
def formatElements (element : Formatter) (count width indent : Nat) : Nat → Nat → Bytes → Nat →
    Checked (Option (Bytes × Nat))
  | 0, _, _, _ => throw .rounds
  | rounds + 1, i, output, position =>
    if i ≤ count then do
      let label ← elementLabel width indent i
      let formatted ← element (output ++ label) (indent + width + 2) position
      formatted.elim (pure none) fun found =>
        formatElements element count width indent rounds (i + 1) found.1 found.2
    else pure (some (output, position))

/-- An array after its first line. -/
def formatArray (element : Formatter) (rounds : Nat) (line output : Bytes) (indent position : Nat) :
    Checked (Option (Bytes × Nat)) :=
  (stoll line).elim (pure none) fun count =>
    if count < 0 then pure (some (output ++ ascii "(nil)", position))
    else if count = 0 then pure (some (output ++ ascii "(empty array)", position))
    else formatElements element count.toNat (Decimal.ofInt count).length indent rounds 1 output
      position

/-- The switch of `format`, `kind` being the first byte. -/
def formatKind (reply : Bytes) (raw : Bool) (element : Formatter) (rounds : Nat) (kind : UInt8)
    (line output : Bytes) (indent position : Nat) : Checked (Option (Bytes × Nat)) :=
  if kind = 43 then pure (some (output ++ line, position))
  else if kind = 45 then pure (some (output ++ (ascii "(error) " ++ line), position))
  else if kind = 58 then pure (some (output ++ (ascii "(integer) " ++ line), position))
  else if kind = 36 then formatBulkString reply raw line output position
  else if kind = 42 then formatArray element rounds line output indent position
  else pure none

/-- Source `format`, for values that are nested less than so many rounds deep. -/
def format (reply : Bytes) (raw : Bool) : Nat → Formatter
  | 0, _, _, _ => throw .rounds
  | rounds + 1, output, indent, position =>
    if position ≥ reply.length then pure none
    else do
      let kind ← Checked.get reply position
      let found ← readLine reply (position + 1)
      found.elim (pure none) fun found =>
        formatKind reply raw (format reply raw rounds) rounds kind found.1 output indent found.2

end ReplyReader

def formatReply (reply : Bytes) (raw : Bool) : Checked Bytes := do
  let formatted ← ReplyReader.format reply raw (reply.length + 1) [] 0 0
  pure (formatted.elim (ascii "(protocol error)") (·.1))

lemma stoll_range {text : Bytes} {z : Int} (h : stoll text = some z) : IsInt64 z := by
  unfold stoll at h
  exact (fit64_eq_some_iff.mp (Option.ite_none_left_eq_some.mp h).2).1 ▸
    (fit64_eq_some_iff.mp (Option.ite_none_left_eq_some.mp h).2).2

namespace ReplyReader

/-- There is no fault, and the cursor ends within the reply and not before this position. -/
def Advances (reply : Bytes) (position : Nat) (formatted : Checked (Option (Bytes × Nat))) : Prop :=
  ∃ result, formatted = pure result ∧
    ∀ found, result = some found → position ≤ found.2 ∧ found.2 ≤ reply.length

section Total

variable {reply output line : Bytes} {raw : Bool} {position next rounds : Nat}

lemma Advances.refused : Advances reply position (pure none) :=
  ⟨none, rfl, fun _ e => by cases e⟩

lemma Advances.done (after : position ≤ next) (inside : next ≤ reply.length) :
    Advances reply position (pure (some (output, next))) :=
  ⟨_, rfl, fun _ e => by cases e; exact ⟨after, inside⟩⟩

/-- One step after another, where the first one may refuse. -/
lemma Advances.andThen {first : Checked (Option (Bytes × Nat))}
    {continue_ : Bytes × Nat → Checked (Option (Bytes × Nat))}
    (advances : Advances reply position first)
    (later : ∀ found : Bytes × Nat, position ≤ found.2 → found.2 ≤ reply.length →
      Advances reply next (continue_ found)) :
    Advances reply next (first >>= fun found => found.elim (pure none) continue_) := by
  obtain ⟨result, rfl, bounds⟩ := advances
  rw [pure_bind]
  cases result with
  | none => exact .refused
  | some found =>
    obtain ⟨after, inside⟩ := bounds found rfl
    exact later found after inside

lemma readLine_advances (fits : reply.length < 2 ^ 63 - 1) (inside : position ≤ reply.length) :
    Advances reply position (readLine reply position) := by
  rw [readLine, Checked.find_inside inside, pure_bind]
  cases found : findCrlf reply position with
  | none => exact .refused
  | some lineEnd =>
    obtain ⟨_, after, before⟩ := findCrlf_extend [] found
    rw [Option.elim_some, Checked.sub_fits after, pure_bind, Checked.substr_inside inside,
      pure_bind, Checked.add_fits (by omega), pure_bind]
    exact .done (by omega) before

lemma formatBulkString_advances (fits : reply.length < 2 ^ 63 - 1)
    (inside : position ≤ reply.length) :
    Advances reply position (formatBulkString reply raw line output position) := by
  rw [formatBulkString]
  cases read : stoll line with
  | none => exact .refused
  | some length =>
    obtain ⟨_, most⟩ := stoll_range read
    rw [int64Max] at most
    dsimp only [Option.elim_some]
    split
    · exact .done le_rfl inside
    · rw [Checked.add_fits (by omega), pure_bind, Checked.add_fits (by omega), pure_bind]
      split
      · exact .refused
      · rw [Checked.substr_inside inside, pure_bind]
        exact .done (by omega) (by omega)

/-- A formatter that reads at least one byte, for positions with fewer bytes left than rounds. -/
def Reads (reply : Bytes) (rounds : Nat) (element : Formatter) : Prop :=
  ∀ output indent position, position ≤ reply.length → reply.length - position < rounds →
    Advances reply (position + 1) (element output indent position)

/-- The loop needs no more rounds than bytes are left, whatever the count is. -/
lemma formatElements_advances {element : Formatter} {total count width indent i : Nat}
    (reads : Reads reply total element) (labels : ∀ i ≤ count, (Decimal.ofNat i).length ≤ width)
    (few : rounds ≤ total) (inside : position ≤ reply.length)
    (enough : reply.length - position < rounds) :
    Advances reply position (formatElements element count width indent rounds i output position) := by
  induction rounds generalizing i output position with
  | zero => omega
  | succ rounds ih =>
    rw [formatElements]
    split
    · rename_i more
      rw [elementLabel, Checked.sub_fits (labels i more), pure_bind, pure_bind]
      refine (reads _ _ position inside (by omega)).andThen fun found after inside' => ?_
      obtain ⟨result, runs, bounds⟩ := ih (by omega) inside' (by omega)
      refine ⟨result, runs, fun last e => ?_⟩
      obtain ⟨later, within⟩ := bounds last e
      exact ⟨by omega, within⟩
    · exact .done le_rfl inside

lemma formatArray_advances {element : Formatter} {indent : Nat} (reads : Reads reply rounds element)
    (inside : position ≤ reply.length) (enough : reply.length - position < rounds) :
    Advances reply position (formatArray element rounds line output indent position) := by
  rw [formatArray]
  cases stoll line with
  | none => exact .refused
  | some count =>
    dsimp only [Option.elim_some]
    split
    · exact .done le_rfl inside
    · split
      · exact .done le_rfl inside
      · refine formatElements_advances reads (fun i le => ?_) le_rfl inside enough
        rw [Decimal.ofInt_of_nonneg (by omega)]
        exact Decimal.length_ofNat_mono le

lemma format_reads (fits : reply.length < 2 ^ 63 - 1) (rounds : Nat) :
    Reads reply rounds (format reply raw rounds) := by
  induction rounds with
  | zero =>
    intro output indent position inside enough
    omega
  | succ rounds ih =>
    intro output indent position inside enough
    rw [format]
    split
    · exact .refused
    · rename_i more
      obtain ⟨kind, read, _⟩ := Checked.get_inside (Nat.lt_of_not_le more)
      rw [read, pure_bind]
      refine (readLine_advances fits (by omega)).andThen fun found after inside' => ?_
      have atLine : ∀ output, Advances reply (position + 1) (pure (some (output, found.2))) :=
        fun output => .done after inside'
      have further : ∀ {formatted}, Advances reply found.2 formatted →
          Advances reply (position + 1) formatted := by
        rintro formatted ⟨result, rfl, bounds⟩
        exact ⟨result, rfl, fun last e => ⟨after.trans (bounds last e).1, (bounds last e).2⟩⟩
      rw [formatKind]
      split_ifs
      · exact atLine _
      · exact atLine _
      · exact atLine _
      · exact further (formatBulkString_advances fits inside')
      · exact further (formatArray_advances ih inside' (by omega))
      · exact .refused

end Total

end ReplyReader

/-- On every reply the recursion comes to an end and reads nothing outside the reply. -/
lemma formatReply_total {reply : Bytes} (fits : reply.length < 2 ^ 63 - 1) (raw : Bool) :
    ∃ output, formatReply reply raw = pure output := by
  obtain ⟨result, runs, _⟩ := ReplyReader.format_reads fits (reply.length + 1) [] 0 0
    (Nat.zero_le _) (by omega)
  rw [formatReply, runs]
  exact ⟨_, rfl⟩

example : formatReply (ascii "*2\r\n$1\r\na\r\n$-1\r\n") false =
    .ok (ascii "1) \"a\"\n2) (nil)") := by
  decide +kernel

end FlashKV
