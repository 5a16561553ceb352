import FlashKV.Lib.StateAction

/-!
# Actions with a budget

How much an action can add to the size of the state. The bound holds however the action ends: what is
changed before an exception is thrown counts. Costs add up along a sequence, and a loop costs what its
rounds cost together.
-/

namespace StateAction

variable {ε σ α β : Type} {I : σ → Prop} {size : σ → Nat}

/-- The invariant is kept from `s` to `s'`, and the size grows by at most `cost`. -/
def Costs (I : σ → Prop) (size : σ → Nat) (cost : Nat) (s s' : σ) : Prop :=
  I s → I s' ∧ size s' ≤ size s + cost

/-- The action never costs more, from any state. -/
def Spends (I : σ → Prop) (size : σ → Nat) (cost : Nat) (x : StateAction ε σ α) : Prop :=
  ∀ s, Costs I size cost s (x s).2

section Costs

variable {cost cost' : Nat} {s s' s'' : σ}

lemma Costs.refl : Costs I size cost s s :=
  fun inv => ⟨inv, Nat.le_add_right _ _⟩

lemma Costs.mono (h : Costs I size cost s s') (le : cost ≤ cost') : Costs I size cost' s s' :=
  fun inv => ⟨(h inv).1, (h inv).2.trans (Nat.add_le_add_left le _)⟩

/-- Costs add up. -/
lemma Costs.trans (h : Costs I size cost s s') (h' : Costs I size cost' s' s'') :
    Costs I size (cost + cost') s s'' := by
  intro inv
  obtain ⟨inv', le⟩ := h inv
  obtain ⟨inv'', le'⟩ := h' inv'
  refine ⟨inv'', le'.trans ?_⟩
  rw [← Nat.add_assoc]
  exact Nat.add_le_add_right le _

/-- What costs nothing can follow. -/
lemma Costs.then_free (h : Costs I size cost s s') (h' : Costs I size 0 s' s'') :
    Costs I size cost s s'' :=
  h.trans h'

/-- A loop costs what its rounds cost together. -/
lemma Costs.foldl {γ : Type} {f : σ → γ → σ} {price : γ → Nat}
    (h : ∀ s c, Costs I size (price c) s (f s c)) (cs : List γ) (s : σ) :
    Costs I size (cs.map price).sum s (cs.foldl f s) := by
  induction cs generalizing s with
  | nil => exact .refl
  | cons c cs ih => exact .trans (h s c) (ih (f s c))

end Costs

section Spends

variable {cost cost' : Nat}

lemma Spends.pure (a : α) : Spends (ε := ε) I size cost (pure a) :=
  fun _ => .refl

lemma Spends.throw (e : ε) : Spends (α := α) I size cost (throw e) :=
  fun _ => .refl

lemma Spends.mono {x : StateAction ε σ α} (h : Spends I size cost x) (le : cost ≤ cost') :
    Spends I size cost' x :=
  fun s => (h s).mono le

/-- A sequence costs what its parts cost, unless the first part throws. -/
lemma Spends.bind {x : StateAction ε σ α} {f : α → StateAction ε σ β} (hx : Spends I size cost x)
    (h : ∀ a, Spends I size cost' (f a)) : Spends I size (cost + cost') (x >>= f) := by
  intro s
  have first := hx s
  rcases e : x s with ⟨_ | a, s'⟩
  · rw [e] at first
    rw [bind_of_error e]
    exact first.mono (Nat.le_add_right _ _)
  · rw [e] at first
    rw [bind_of_ok e]
    exact first.trans (h a s')

/-- A first part that costs nothing. -/
lemma Spends.bind_free {x : StateAction ε σ α} {f : α → StateAction ε σ β} (hx : Spends I size 0 x)
    (h : ∀ a, Spends I size cost (f a)) : Spends I size cost (x >>= f) :=
  (hx.bind h).mono (Nat.zero_add cost).le

/-- A last part that costs nothing. -/
lemma Spends.then_free {x : StateAction ε σ α} {f : α → StateAction ε σ β}
    (hx : Spends I size cost x) (h : ∀ a, Spends I size 0 (f a)) : Spends I size cost (x >>= f) :=
  hx.bind h

lemma Spends.ite {c : Prop} [Decidable c] {x y : StateAction ε σ α} (h : Spends I size cost x)
    (h' : Spends I size cost y) : Spends I size cost (if c then x else y) := by
  split
  · exact h
  · exact h'

end Spends

end StateAction
