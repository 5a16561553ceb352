import FlashKV.Lib.Decimal

/-!
# UTF-8

Which byte strings are the UTF-8 encoding of some characters. An ASCII byte stands only for itself and
never inside the encoding of another character, so a text can be split there (`utf8_append_cons`).
-/

/-- The bytes encode a sequence of characters in UTF-8. -/
def Utf8 (bytes : Bytes) : Prop :=
  bytes.toByteArray.IsValidUTF8

instance (bytes : Bytes) : Decidable (Utf8 bytes) :=
  inferInstanceAs (Decidable bytes.toByteArray.IsValidUTF8)

lemma utf8_iff {bytes : Bytes} :
    Utf8 bytes ↔ ∃ characters : List Char, bytes = characters.flatMap String.utf8EncodeChar := by
  constructor
  · rintro ⟨characters, same⟩
    refine ⟨characters, ?_⟩
    have data := congrArg (·.data.toList) same
    simpa [List.utf8Encode] using data
  · rintro ⟨characters, rfl⟩
    exact ⟨characters, rfl⟩

/-- A character is one ASCII byte or has no ASCII bytes. -/
lemma utf8EncodeChar_ascii (c : Char) :
    (∃ b, b < 128 ∧ String.utf8EncodeChar c = [b]) ∨ ∀ b ∈ String.utf8EncodeChar c, 128 ≤ b := by
  -- the bytes of the longer encodings are `128` and more by construction
  have high : ∀ {n base : Nat}, n + base < 256 → 128 ≤ base → 128 ≤ UInt8.ofNat (n + base) := by
    intro n base lt le
    rw [UInt8.le_iff_toNat_le, UInt8.toNat_ofNat', Nat.mod_eq_of_lt lt]
    exact le.trans (Nat.le_add_left _ _)
  unfold String.utf8EncodeChar
  dsimp only
  split_ifs with one two three
  · refine .inl ⟨_, ?_, rfl⟩
    rw [UInt8.lt_iff_toNat_lt, UInt8.toNat_ofNat']
    exact (Nat.mod_le _ _).trans_lt (Nat.lt_succ_of_le one)
  all_goals
    right
    simp only [List.forall_mem_cons]
  · exact ⟨high (by omega) (by omega), high (by omega) (by omega), nofun⟩
  · exact ⟨high (by omega) (by omega), high (by omega) (by omega), high (by omega) (by omega), nofun⟩
  · exact ⟨high (by omega) (by omega), high (by omega) (by omega), high (by omega) (by omega),
      high (by omega) (by omega), nofun⟩

lemma utf8_nil : Utf8 [] :=
  utf8_iff.mpr ⟨[], rfl⟩

lemma Utf8.append {first second : Bytes} (h : Utf8 first) (h' : Utf8 second) :
    Utf8 (first ++ second) := by
  rw [Utf8, List.toByteArray_append]
  exact ByteArray.IsValidUTF8.append h h'

/-- An ASCII byte stands for itself. -/
lemma utf8_singleton {b : UInt8} (small : b < 128) : Utf8 [b] := by
  have lt : b.toNat < 128 := small
  refine utf8_iff.mpr ⟨[Char.ofNat b.toNat], ?_⟩
  have same : (Char.ofNat b.toNat).val.toNat = b.toNat := by
    have valid : b.toNat.isValidChar := .inl (by omega)
    rw [Char.ofNat, dif_pos valid]
    rfl
  rw [List.flatMap_singleton, String.utf8EncodeChar]
  rw [same, if_pos (by omega), UInt8.ofNat_toNat]

/-- At an ASCII byte a text can be split. -/
lemma utf8_append_cons {first second : Bytes} {b : UInt8} (small : b < 128) :
    Utf8 (first ++ b :: second) ↔ Utf8 first ∧ Utf8 second := by
  constructor
  · intro whole
    obtain ⟨characters, same⟩ := utf8_iff.mp whole
    clear whole
    induction characters generalizing first with
    | nil => simp at same
    | cons c characters ih =>
      rw [List.flatMap_cons] at same
      rcases List.append_eq_append_iff.mp same with ⟨middle, front, rest⟩ | ⟨middle, front, rest⟩
      · cases middle with
        | nil =>
          obtain ⟨_, valid'⟩ := @ih [] rest
          rw [← List.append_nil first, ← front]
          exact ⟨utf8_iff.mpr ⟨[c], (List.flatMap_singleton ..).symm⟩, valid'⟩
        | cons other middle =>
          -- the byte is part of the character, so it is all of it
          cases (List.cons.inj rest).1
          rcases utf8EncodeChar_ascii c with ⟨only, _, single⟩ | high
          · rw [single] at front
            cases first with
            | nil =>
              cases (List.cons.inj front).2
              exact ⟨utf8_nil, utf8_iff.mpr ⟨characters, (List.cons.inj rest).2⟩⟩
            | cons => simp at front
          · have le := high b (by rw [front]; simp)
            exact absurd small (UInt8.not_lt.mpr le)
      · -- `first` begins with the character
        obtain ⟨valid, valid'⟩ := ih rest.symm
        rw [front]
        exact ⟨(utf8_iff.mpr ⟨[c], (List.flatMap_singleton ..).symm⟩).append valid, valid'⟩
  · rintro ⟨valid, valid'⟩
    exact valid.append ((utf8_singleton small).append valid')

lemma utf8_cons {bytes : Bytes} {b : UInt8} (small : b < 128) :
    Utf8 (b :: bytes) ↔ Utf8 bytes := by
  rw [← List.nil_append (b :: bytes), utf8_append_cons small]
  exact and_iff_right utf8_nil

lemma utf8_ascii_append {first second : Bytes} (small : ∀ b ∈ first, b < 128) :
    Utf8 (first ++ second) ↔ Utf8 second := by
  induction first with
  | nil => rfl
  | cons b first ih =>
    obtain ⟨one, others⟩ := List.forall_mem_cons.mp small
    rw [List.cons_append, utf8_cons one]
    exact ih others

lemma utf8_of_ascii {bytes : Bytes} (small : ∀ b ∈ bytes, b < 128) : Utf8 bytes := by
  rw [← List.append_nil bytes, utf8_ascii_append small]
  exact utf8_nil

/-- The same, as a test. -/
lemma utf8_of_all {bytes : Bytes} (small : bytes.all (· < 128) = true) : Utf8 bytes :=
  utf8_of_ascii fun b mem => of_decide_eq_true (List.all_eq_true.mp small b mem)

/-- Texts that are separated by an ASCII byte. -/
lemma utf8_intercalate {b : UInt8} (small : b < 128) (texts : List Bytes) :
    Utf8 (List.intercalate [b] texts) ↔ ∀ text ∈ texts, Utf8 text := by
  induction texts with
  | nil => exact iff_of_true utf8_nil nofun
  | cons first texts ih =>
    cases texts with
    | nil => rw [List.intercalate_singleton, List.forall_mem_singleton]
    | cons second texts =>
      rw [List.intercalate_cons_cons, List.append_assoc, List.singleton_append,
        utf8_append_cons small, ih, List.forall_mem_cons (a := first)]
