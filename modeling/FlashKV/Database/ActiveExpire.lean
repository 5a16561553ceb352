import FlashKV.Database.Index

/-!
# Active expiration

`activeExpireCycle` erases sampled keys whose deadline field is not after the clock reading, without
looking at the sentinel. With a consistent index the sampled keys have a deadline, so it erases
expired keys only and the live view stays what it was, whatever is sampled.
-/

namespace FlashKV

namespace Database

variable {db : Database} {now : Int}

/-- A sampled key has a deadline. -/
lemma Indexed.expired_of_sampled (h : db.Indexed) {i : Nat} {key : Bytes} {node : Entry}
    (sampled : db.volatileKeys[i]? = some key) (present : db.data.lookup key = some node)
    (past : node.expiresAtMs ≤ now) : node.expired now = true := by
  have index : node.volatileIndex = some i := by
    have index := (h.getElem? i key).mp sampled
    rwa [volatileIndexOf, present] at index
  have proper : node.expiresAtMs ≠ noExpiry := by
    intro none_
    rw [(h.deadline key node present).mpr none_] at index
    cases index
  simp [Entry.expired, proper, past]

/-- Erasing an expired key leaves the live view. -/
lemma view_erase_expired {key : Bytes} {node : Entry} (present : db.data.lookup key = some node)
    (dead : node.expired now = true) : (db.erase key).view now = db.view now := by
  rw [view_erase, ← view_of_expired present dead, Function.update_eq_self]

lemma sampleExpired_view (pick : Nat → Nat) (now : Int) (samples picked : Nat) (counts : Nat × Nat)
    (h : db.Indexed) :
    (sampleExpired pick now samples picked counts db).2.view now = db.view now ∧
    (sampleExpired pick now samples picked counts db).2.Indexed := by
  induction samples generalizing picked counts db with
  | zero => exact ⟨rfl, h⟩
  | succ samples ih =>
    unfold sampleExpired
    split
    · exact ⟨rfl, h⟩
    · rename_i key sampled
      split
      · exact ⟨rfl, h⟩
      · rename_i node present
        split
        · rename_i past
          have dead := h.expired_of_sampled sampled present past
          obtain ⟨view, indexed⟩ := ih (picked + 1) (_, _) (h.erase present)
          exact ⟨view.trans (view_erase_expired present dead), indexed⟩
        · exact ih _ _ h

lemma expireRounds_view (choices : CycleChoices) (samplesPerLoop : Nat) (now : Int)
    (fuel round picked removed : Nat) (h : db.Indexed) :
    (expireRounds choices samplesPerLoop now fuel round picked removed db).2.view now = db.view now ∧
    (expireRounds choices samplesPerLoop now fuel round picked removed db).2.Indexed := by
  induction fuel generalizing round picked removed db with
  | zero => exact ⟨rfl, h⟩
  | succ fuel ih =>
    unfold expireRounds
    split
    · exact ⟨rfl, h⟩
    · have sampled := sampleExpired_view choices.pick now
        (min samplesPerLoop db.volatileKeys.length) picked (0, 0) h
      dsimp only
      generalize sampleExpired choices.pick now (min samplesPerLoop db.volatileKeys.length) picked
        (0, 0) db = sample at sampled ⊢
      obtain ⟨view, indexed⟩ := sampled
      -- the counters of the statistics are no part of the view or the index
      have counted : ∀ f, (sample.2.count f).view now = db.view now ∧ (sample.2.count f).Indexed :=
        fun f => ⟨view, indexed.congr (fun _ => rfl) rfl⟩
      split
      · exact counted _
      · split
        · exact counted _
        · obtain ⟨view', indexed'⟩ := ih (round + 1) _ _ (counted _).2
          exact ⟨view'.trans view, indexed'⟩

/-- A cycle of active expiration leaves the live view, for any picks and any outcomes of the budget
test. -/
lemma activeExpireCycle_view (choices : CycleChoices) (samplesPerLoop : Nat) (now : Int)
    (h : db.Indexed) :
    (activeExpireCycle choices samplesPerLoop now db).2.view now = db.view now ∧
    (activeExpireCycle choices samplesPerLoop now db).2.Indexed := by
  have rounds := expireRounds_view choices samplesPerLoop now (db.volatileKeys.length + 1) 0 0 0 h
  exact rounds

end Database

end FlashKV
