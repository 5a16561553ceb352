import FlashKV.Database.Reachable
import FlashKV.Lib.Checked

/-!
# List slices

`listRange` and `listIndex` normalise their indices separately. Both compute the slice of the list
between two positions in exact integers. Once more with every `long long` operation and every iterator
checked, they never fault.
-/

namespace FlashKV

namespace Database

/-- The position that an index means: negative indices count from the end. -/
def normIndex (length index : Int) : Int :=
  if index < 0 then index + length else index

/-- The elements between two positions, both included. -/
def slice {α : Type} (list : List α) (first last : Int) : List α :=
  (list.zipIdx.filter fun e => first ≤ e.2 ∧ e.2 ≤ last).map (·.1)

/-- The slice that `start` and `stop` mean. -/
def sliceOf {α : Type} (list : List α) (start stop : Int) : List α :=
  slice list (max 0 (normIndex list.length start))
    (min (list.length - 1) (normIndex list.length stop))

/-! ### What is executed on the list -/

/-- The first step of both functions. -/
def normIndexAt (length index : Int) : Checked Int :=
  if index < 0 then Checked.signed (index + length) else pure index

/-- Source `listRange` on the list that it has found, with its `long long` arithmetic and its iterators
checked; `none` if it returns before it touches the key. -/
def listRangeAt (list : ListValue) (start stop : Int) : Checked (Option (List Bytes)) := do
  let length : Int := list.length
  let start ← normIndexAt length start
  let stop ← normIndexAt length stop
  let start := max start 0
  let last ← Checked.signed (length - 1)
  let stop := min stop last
  if start > stop ∨ start ≥ length then pure none
  else do
    let first ← Checked.iterator list start
    let last ← Checked.iterator list stop
    let afterLast ← Checked.iterator list (last + 1)
    pure (some ((list.take afterLast.toNat).drop first.toNat))

/-- Source `listIndex` on the list that it has found. -/
def listIndexAt (list : ListValue) (index : Int) : Checked (Option Bytes) := do
  let length : Int := list.length
  let index ← normIndexAt length index
  if index < 0 ∨ index ≥ length then pure none
  else do
    let element ← Checked.get list index.toNat
    pure (some element)

section Slice

variable {α : Type} (list : List α)

lemma filter_zipIdx (first last offset : Nat) :
    ((list.zipIdx offset).filter fun e => first ≤ e.2 ∧ e.2 < last).map (·.1) =
      (list.take (last - offset)).drop (first - offset) := by
  induction list generalizing offset with
  | nil => simp
  | cons a list ih =>
    rw [List.zipIdx_cons]
    by_cases inside : first ≤ offset ∧ offset < last
    · rw [List.filter_cons_of_pos (by simpa using inside), List.map_cons, ih,
        Nat.sub_eq_zero_of_le inside.1, Nat.sub_eq_zero_of_le (by omega), List.drop_zero,
        List.drop_zero, ← List.take_succ_cons]
      congr 1
      omega
    · rw [List.filter_cons_of_neg (by simpa using inside), ih]
      by_cases before : offset < first
      · obtain ⟨k, e⟩ : ∃ k, first - offset = k + 1 := ⟨first - offset - 1, by omega⟩
        have k_eq : first - (offset + 1) = k := by omega
        rw [e, k_eq]
        by_cases empty : last ≤ offset
        · rw [Nat.sub_eq_zero_of_le empty, Nat.sub_eq_zero_of_le (by omega)]
          simp
        · obtain ⟨n, e'⟩ : ∃ n, last - offset = n + 1 := ⟨last - offset - 1, by omega⟩
          have n_eq : last - (offset + 1) = n := by omega
          rw [e', n_eq, List.take_succ_cons, List.drop_succ_cons]
      · have after : last - offset = 0 := by omega
        have after' : last - (offset + 1) = 0 := by omega
        rw [after, after']
        simp

/-- A slice between positions of the list is what is between two iterators. -/
lemma slice_eq {first last : Int} (start : 0 ≤ first) (stop : 0 ≤ last) :
    slice list first last = (list.take (last + 1).toNat).drop first.toNat := by
  have same := filter_zipIdx list first.toNat (last + 1).toNat 0
  rw [Nat.sub_zero, Nat.sub_zero] at same
  rw [← same, slice]
  congr 1
  apply List.filter_congr
  intro e _
  rw [decide_eq_decide]
  omega

lemma slice_eq_nil {first last : Int} (empty : last < first ∨ last < 0 ∨ (list.length : Int) ≤ first) :
    slice list first last = [] := by
  rw [slice, List.map_eq_nil_iff, List.filter_eq_nil_iff]
  intro e mem
  have lt := List.snd_lt_of_mem_zipIdx mem
  simp only [decide_eq_true_eq]
  omega

/-- A slice from a position to itself is the element there. -/
lemma slice_self {index : Int} (first : 0 ≤ index) (last : index < list.length) :
    slice list index index = [list.get ⟨index.toNat, by omega⟩] := by
  have inside : index.toNat < list.length := by omega
  have next : (index + 1).toNat = index.toNat + 1 := by omega
  have front : (list.take index.toNat).length = index.toNat := by
    rw [List.length_take]
    omega
  rw [slice_eq list first first, next, List.take_succ_eq_append_getElem inside,
    List.drop_append_of_le_length front.ge, List.drop_of_length_le front.le]
  rfl

end Slice

section Bounds

variable {length index : Int}

/-- The additions of `listRange` and `listIndex` are of numbers of opposite signs. -/
lemma normIndexAt_eq (size : 0 ≤ length ∧ length ≤ int64Max)
    (range : int64Min ≤ index ∧ index ≤ int64Max) :
    normIndexAt length index = pure (normIndex length index) := by
  unfold int64Min int64Max at *
  unfold normIndexAt normIndex
  split
  · exact Checked.signed_fits (by omega) (by omega)
  · rfl

end Bounds

section Operations

variable {db : Database} {key : Bytes} {now : Int} {entry : Entry} {list : ListValue}

/-- `listRange` is what it is with all checks. -/
lemma listRange_checked (found : db.findLive key now = (some entry, db))
    (held : entry.value = .list list) (size : (list.length : Int) ≤ int64Max) {start stop : Int}
    (startRange : int64Min ≤ start ∧ start ≤ int64Max)
    (stopRange : int64Min ≤ stop ∧ stop ≤ int64Max) :
    ∃ range, listRangeAt list start stop = pure range ∧
      listRange key start stop now db =
        (.ok (range.getD []), range.elim db fun _ => db.touch key) := by
  have length : 0 ≤ (list.length : Int) ∧ (list.length : Int) ≤ int64Max :=
    ⟨Int.natCast_nonneg _, size⟩
  have last : Checked.signed ((list.length : Int) - 1) = pure ((list.length : Int) - 1) := by
    unfold int64Max at length
    exact Checked.signed_fits (by omega) (by omega)
  simp only [listRangeAt, normIndexAt_eq length startRange, normIndexAt_eq length stopRange, last,
    pure_bind, listRange, found, held]
  rw [← normIndex, ← normIndex]
  generalize normIndex list.length start = first, normIndex list.length stop = final
  split
  · exact ⟨none, rfl, rfl⟩
  · rename_i inside
    rw [Checked.iterator_inside (by omega) (by omega), Checked.iterator_inside (by omega) (by omega),
      pure_bind, pure_bind, Checked.iterator_inside (by omega) (by omega), pure_bind]
    exact ⟨_, rfl, rfl⟩

lemma listIndex_checked (found : db.findLive key now = (some entry, db))
    (held : entry.value = .list list) (size : (list.length : Int) ≤ int64Max) {index : Int}
    (range : int64Min ≤ index ∧ index ≤ int64Max) :
    ∃ element, listIndexAt list index = pure element ∧
      listIndex key index now db = (.ok element, element.elim db fun _ => db.touch key) := by
  have length : 0 ≤ (list.length : Int) ∧ (list.length : Int) ≤ int64Max :=
    ⟨Int.natCast_nonneg _, size⟩
  simp only [listIndexAt, normIndexAt_eq length range, pure_bind, listIndex, found, held]
  rw [← normIndex]
  generalize normIndex list.length index = position
  split
  · exact ⟨none, rfl, rfl⟩
  · rename_i inside
    have inside' : position.toNat < list.length := by omega
    obtain ⟨element, read, rest⟩ := Checked.get_inside inside'
    have here : list[position.toNat]? = some element := by
      rw [← List.head?_drop, rest]
      rfl
    rw [read, here, pure_bind]
    exact ⟨_, rfl, rfl⟩

lemma listRange_eq (found : db.findLive key now = (some entry, db)) (held : entry.value = .list list)
    (start stop : Int) :
    (listRange key start stop now db).1 = .ok (sliceOf list start stop) := by
  have run : (listRange key start stop now db).1 =
      (if max (normIndex list.length start) 0 > min (normIndex list.length stop) (list.length - 1) ∨
          max (normIndex list.length start) 0 ≥ list.length then .ok []
        else .ok ((list.take (min (normIndex list.length stop) (list.length - 1) + 1).toNat).drop
          (max (normIndex list.length start) 0).toNat)) := by
    simp only [listRange, found, held, normIndex, apply_ite Prod.fst]
    rfl
  rw [run, sliceOf]
  generalize normIndex list.length start = first, normIndex list.length stop = last
  split
  · rw [slice_eq_nil list (by omega)]
  · rw [slice_eq list (by omega) (by omega), max_comm, min_comm]

lemma listIndex_eq (found : db.findLive key now = (some entry, db)) (held : entry.value = .list list)
    (index : Int) :
    (sliceOf list index index = [] ∧ (listIndex key index now db).1 = .ok none) ∨
    ∃ element, sliceOf list index index = [element] ∧
      (listIndex key index now db).1 = .ok (some element) := by
  have run : (listIndex key index now db).1 =
      (if normIndex list.length index < 0 ∨ normIndex list.length index ≥ list.length then .ok none
        else .ok list[(normIndex list.length index).toNat]?) := by
    simp only [listIndex, found, held, normIndex, apply_ite Prod.fst]
    rfl
  rw [run, sliceOf]
  generalize normIndex list.length index = position
  split
  · exact .inl ⟨slice_eq_nil list (by omega), rfl⟩
  · rename_i inside
    have last : min ((list.length : Int) - 1) position = position := by omega
    rw [max_eq_right (by omega), last, List.getElem?_eq_getElem (by omega)]
    exact .inr ⟨_, slice_self list (by omega) (by omega), rfl⟩

/-- `listRange` returns the elements whose positions lie between its normalised bounds, and
`listIndex` the one element of the slice from an index to itself. Both run without a fault: no
`long long` operation of theirs overflows, and no iterator leaves the list. -/
theorem listRange_slice (present : db.data.lookup key = some entry)
    (live : entry.expired now = false) (held : entry.value = .list list)
    (size : 1 ≤ list.length ∧ list.length < 2 ^ 63) {start stop : Int}
    (startRange : int64Min ≤ start ∧ start ≤ int64Max)
    (stopRange : int64Min ≤ stop ∧ stop ≤ int64Max) :
    (listRange key start stop now db).1 = .ok (sliceOf list start stop) ∧
    (∃ range, listRangeAt list start stop = pure range ∧
      listRange key start stop now db =
        (.ok (range.getD []), range.elim db fun _ => db.touch key)) ∧
    ∀ index, int64Min ≤ index → index ≤ int64Max →
      (∃ element, listIndexAt list index = pure element ∧
        listIndex key index now db = (.ok element, element.elim db fun _ => db.touch key)) ∧
      ((sliceOf list index index = [] ∧ (listIndex key index now db).1 = .ok none) ∨
        ∃ element, sliceOf list index index = [element] ∧
          (listIndex key index now db).1 = .ok (some element)) := by
  have found : db.findLive key now = (some entry, db) := by
    simp [findLive, present, live]
  have fits : (list.length : Int) ≤ int64Max := by
    unfold int64Max
    omega
  refine ⟨listRange_eq found held start stop,
    listRange_checked found held fits startRange stopRange, fun index least greatest => ?_⟩
  exact ⟨listIndex_checked found held fits ⟨least, greatest⟩, listIndex_eq found held index⟩

/-- Bounds at both ends of the range, on a list of two elements. -/
theorem listRange_slice_extreme :
    let db := Op.run [.listPush [108] [[1], [2]] .right 0]
    (listRange [108] int64Min int64Max 0 db).1 = .ok [[1], [2]] ∧
    sliceOf [[1], [2]] int64Min int64Min = ([] : List Bytes) ∧
    (listIndex [108] int64Min 0 db).1 = .ok none := by
  intro db
  let entry : Entry := ⟨.list [[1], [2]], -1, 163, 0, none⟩
  have present : db.data.lookup [108] = some entry := by decide +kernel
  have live : entry.expired 0 = false := by decide
  have least : int64Min ≤ int64Min ∧ int64Min ≤ int64Max := by decide
  have greatest : int64Min ≤ int64Max ∧ int64Max ≤ int64Max := by decide
  obtain ⟨range, -, index⟩ := listRange_slice present live rfl (by decide) least greatest
  have nothing : sliceOf [[1], [2]] int64Min int64Min = ([] : List Bytes) := by decide
  obtain ⟨-, ⟨_, absent⟩ | ⟨_, one, _⟩⟩ := index int64Min (by decide) (by decide)
  · exact ⟨range, nothing, absent⟩
  · rw [nothing] at one
    cases one

end Operations

end Database

end FlashKV
