import Mathlib.Tactic

/-!
# Computations with a state and exceptions

`StateAction ε σ α` is a computation that reads and replaces a state `σ` and ends with a result `α` or an
exception `ε`. A thrown exception keeps the changes made before it, as a C++ `throw` does.

Three ways to reason about actions follow, all closed under the monad's operations:
* `Simulates R x y`: started in related states, `x` and `y` end the same way, in related states;
* `Ends P E x`: if `x` ends with a result, the result satisfies `P`; if it throws, the exception
  satisfies `E`;
* `Retains bad x`: if the outcome of `x` is bad, the state is as it was.
-/

/-- A computation over a state that returns a result or throws, keeping its changes either way. -/
def StateAction (ε σ α : Type) : Type :=
  σ → Except ε α × σ

namespace StateAction

variable {ε σ τ α β : Type}

instance : Monad (StateAction ε σ) where
  pure a := fun s => (.ok a, s)
  bind x f := fun s => match x s with
    | (.ok a, s') => f a s'
    | (.error e, s') => (.error e, s')

/-- Throw an exception. -/
def throw (e : ε) : StateAction ε σ α :=
  fun s => (.error e, s)

/-- Run `x`, and `handle e` if it throws `e`. -/
def tryCatch (x : StateAction ε σ α) (handle : ε → StateAction ε σ α) : StateAction ε σ α :=
  fun s => match x s with
    | (.ok a, s') => (.ok a, s')
    | (.error e, s') => handle e s'

/-- Lift a total function on the state. -/
def modify (f : σ → σ) : StateAction ε σ Unit :=
  fun s => (.ok (), f s)

@[simp]
lemma pure_apply (a : α) (s : σ) : (pure a : StateAction ε σ α) s = (.ok a, s) := rfl

@[simp]
lemma throw_apply (e : ε) (s : σ) : (throw e : StateAction ε σ α) s = (.error e, s) := rfl

@[simp]
lemma modify_apply (f : σ → σ) (s : σ) : (modify f : StateAction ε σ Unit) s = (.ok (), f s) := rfl

/-- Sequencing after a result. -/
lemma bind_of_ok {x : StateAction ε σ α} {f : α → StateAction ε σ β} {s s' : σ} {a : α}
    (h : x s = (.ok a, s')) : (x >>= f) s = f a s' := by
  show (match x s with
    | (.ok a, s') => f a s'
    | (.error e, s') => (.error e, s')) = f a s'
  rw [h]

/-- Sequencing after an exception. -/
lemma bind_of_error {x : StateAction ε σ α} {f : α → StateAction ε σ β} {s s' : σ} {e : ε}
    (h : x s = (.error e, s')) : (x >>= f) s = (.error e, s') := by
  show (match x s with
    | (.ok a, s') => f a s'
    | (.error e, s') => (.error e, s')) = (.error e, s')
  rw [h]

@[simp]
lemma pure_bind_apply (a : α) (f : α → StateAction ε σ β) (s : σ) : (pure a >>= f) s = f a s := rfl

@[simp]
lemma modify_bind_apply (g : σ → σ) (f : Unit → StateAction ε σ β) (s : σ) :
    (modify g >>= f) s = f () (g s) := rfl

instance : LawfulMonad (StateAction ε σ) :=
  LawfulMonad.mk' (StateAction ε σ)
    (fun x => by
      funext s
      rcases e : x s with ⟨_ | a, s'⟩
      · exact bind_of_error e
      · exact bind_of_ok e)
    (fun _ _ => rfl)
    (fun x f g => by
      funext s
      rcases e : x s with ⟨_ | a, s'⟩
      · rw [bind_of_error e, bind_of_error (bind_of_error e)]
      · rw [bind_of_ok e]
        rcases e' : f a s' with ⟨_ | b, s''⟩
        · rw [bind_of_error e', bind_of_error ((bind_of_ok e).trans e')]
        · rw [bind_of_ok e', bind_of_ok ((bind_of_ok e).trans e')])

section Simulates

variable {R : σ → τ → Prop}

/-- From related states, `x` and `y` end the same way, in related states. -/
def Simulates (R : σ → τ → Prop) (x : StateAction ε σ α) (y : StateAction ε τ α) : Prop :=
  ∀ s t, R s t → (x s).1 = (y t).1 ∧ R (x s).2 (y t).2

lemma Simulates.pure (a : α) : Simulates (ε := ε) R (pure a) (pure a) :=
  fun _ _ h => ⟨rfl, h⟩

lemma Simulates.throw (e : ε) : Simulates (α := α) R (throw e) (throw e) :=
  fun _ _ h => ⟨rfl, h⟩

lemma Simulates.modify {f : σ → σ} {g : τ → τ} (h : ∀ s t, R s t → R (f s) (g t)) :
    Simulates (ε := ε) R (modify f) (modify g) :=
  fun s t hst => ⟨rfl, h s t hst⟩

/-- Simulation is closed under sequencing. -/
lemma Simulates.bind {x : StateAction ε σ α} {y : StateAction ε τ α} {f : α → StateAction ε σ β}
    {g : α → StateAction ε τ β} (hx : Simulates R x y) (hf : ∀ a, Simulates R (f a) (g a)) :
    Simulates R (x >>= f) (y >>= g) := by
  intro s t hst
  obtain ⟨e, hR⟩ := hx s t hst
  rcases hxs : x s with ⟨r, s'⟩
  rcases hyt : y t with ⟨r', t'⟩
  rw [hxs, hyt] at e hR
  change r = r' at e
  subst e
  cases r with
  | ok a =>
    rw [bind_of_ok hxs, bind_of_ok hyt]
    exact hf a s' t' hR
  | error e =>
    rw [bind_of_error hxs, bind_of_error hyt]
    exact ⟨rfl, hR⟩

/-- Simulation is closed under handling an exception. -/
lemma Simulates.tryCatch {x : StateAction ε σ α} {y : StateAction ε τ α} {f : ε → StateAction ε σ α}
    {g : ε → StateAction ε τ α} (hx : Simulates R x y) (hf : ∀ e, Simulates R (f e) (g e)) :
    Simulates R (tryCatch x f) (tryCatch y g) := by
  intro s t hst
  obtain ⟨e, hR⟩ := hx s t hst
  unfold StateAction.tryCatch
  rcases hxs : x s with ⟨r, s'⟩
  rcases hyt : y t with ⟨r', t'⟩
  rw [hxs, hyt] at e hR
  change r = r' at e
  subst e
  cases r with
  | ok a => exact ⟨rfl, hR⟩
  | error e => exact hf e s' t' hR

/-- Simulation is closed under a choice that both sides make alike. -/
lemma Simulates.ite {c : Prop} [Decidable c] {x x' : StateAction ε σ α} {y y' : StateAction ε τ α}
    (h : Simulates R x y) (h' : Simulates R x' y') :
    Simulates R (if c then x else x') (if c then y else y') := by
  split
  · exact h
  · exact h'

/-- Simulation is closed under a loop over a list. -/
lemma Simulates.foldlM {γ : Type} {f : β → γ → StateAction ε σ β} {g : β → γ → StateAction ε τ β}
    (cs : List γ) (h : ∀ b, ∀ c ∈ cs, Simulates R (f b c) (g b c)) (b : β) :
    Simulates R (cs.foldlM f b) (cs.foldlM g b) := by
  induction cs generalizing b with
  | nil => exact .pure b
  | cons c cs ih =>
    rw [List.foldlM_cons, List.foldlM_cons]
    exact .bind (h b c (by simp)) fun b => ih (fun b c mem => h b c (by simp [mem])) b

end Simulates

section Ends

variable {P : α → Prop} {Q : β → Prop} {E : ε → Prop}

/-- Every result of the action satisfies `P` and every exception satisfies `E`. -/
def Ends (P : α → Prop) (E : ε → Prop) (x : StateAction ε σ α) : Prop :=
  ∀ s, match (x s).1 with
    | .ok a => P a
    | .error e => E e

lemma Ends.pure {a : α} (h : P a) : Ends (σ := σ) P E (pure a) :=
  fun _ => h

lemma Ends.throw {e : ε} (h : E e) : Ends (σ := σ) P E (throw e) :=
  fun _ => h

lemma Ends.mono {Q : α → Prop} {x : StateAction ε σ α} (h : Ends P E x) (le : ∀ a, P a → Q a) :
    Ends Q E x := by
  intro s
  have hs := h s
  rcases e : (x s).1 with _ | a
  · rw [e] at hs
    exact hs
  · rw [e] at hs
    exact le a hs

/-- The last action of a sequence may rely on what the first one returns. -/
lemma Ends.bind {x : StateAction ε σ α} {f : α → StateAction ε σ β} (hx : Ends P E x)
    (h : ∀ a, P a → Ends Q E (f a)) : Ends Q E (x >>= f) := by
  intro s
  have hxs := hx s
  rcases e : x s with ⟨_ | a, s'⟩
  · rw [e] at hxs
    rw [bind_of_error e]
    exact hxs
  · rw [e] at hxs
    rw [bind_of_ok e]
    exact h a hxs s'

/-- The handler of an exception may rely on what is thrown. -/
lemma Ends.tryCatch {x : StateAction ε σ α} {handle : ε → StateAction ε σ α} {E' : ε → Prop}
    (hx : Ends P E' x) (h : ∀ e, E' e → Ends P E (handle e)) : Ends P E (tryCatch x handle) := by
  intro s
  have hxs := hx s
  unfold StateAction.tryCatch
  rcases e : x s with ⟨_ | a, s'⟩
  · rw [e] at hxs
    exact h _ hxs s'
  · rw [e] at hxs
    exact hxs

lemma Ends.ite {c : Prop} [Decidable c] {x y : StateAction ε σ α} (h : c → Ends P E x)
    (h' : ¬ c → Ends P E y) : Ends P E (if c then x else y) := by
  split
  · rename_i yes
    exact h yes
  · rename_i no
    exact h' no

/-- A loop keeps what every round keeps. -/
lemma Ends.foldlM {γ : Type} {f : α → γ → StateAction ε σ α} (h : ∀ a c, P a → Ends P E (f a c))
    (a : α) (ha : P a) (cs : List γ) : Ends P E (cs.foldlM f a) := by
  induction cs generalizing a with
  | nil => exact .pure ha
  | cons c cs ih =>
    rw [List.foldlM_cons]
    exact .bind (h a c ha) fun b hb => ih b hb

end Ends

section Retains

variable {bad : Except ε α → Prop}

/-- The outcome is an exception. -/
def Thrown (outcome : Except ε α) : Prop :=
  ∃ e, outcome = .error e

@[simp]
lemma not_thrown {a : α} : ¬ Thrown (.ok a : Except ε α) := by
  rintro ⟨e, h⟩
  cases h

/-- Whenever the action ends badly, the state is as it was. -/
def Retains (bad : Except ε α → Prop) (x : StateAction ε σ α) : Prop :=
  ∀ s, bad (x s).1 → (x s).2 = s

lemma Retains.pure (a : α) : Retains (σ := σ) bad (pure a) :=
  fun _ _ => rfl

lemma Retains.ite {c : Prop} [Decidable c] {x y : StateAction ε σ α} (h : Retains bad x)
    (h' : Retains bad y) : Retains bad (if c then x else y) := by
  split
  · exact h
  · exact h'

/-- A bound on the outcomes rules bad ones out. -/
lemma Ends.not_bad {P : α → Prop} {E : ε → Prop} {x : StateAction ε σ α} (h : Ends P E x)
    (fine : ∀ a, P a → ¬ bad (.ok a)) (fine' : ∀ e, E e → ¬ bad (.error e)) (s : σ) :
    ¬ bad (x s).1 := by
  have outcome := h s
  cases done : (x s).1 with
  | ok a =>
    rw [done] at outcome
    exact fine a outcome
  | error e =>
    rw [done] at outcome
    exact fine' e outcome

/-- A first action that keeps the state in any case. -/
lemma Retains.bind_keeps {x : StateAction ε σ β} {f : β → StateAction ε σ α} (keeps : ∀ s, (x s).2 = s)
    (h : ∀ b, Retains bad (f b)) : Retains bad (x >>= f) := by
  intro s ended
  have same := keeps s
  rcases done : x s with ⟨e | b, s'⟩
  · rw [done] at same
    rw [bind_of_error done]
    exact same
  · rw [done] at same
    change s' = s at same
    subst same
    rw [bind_of_ok done] at ended ⊢
    exact h b s' ended

/-- After a first action that retains the state when it throws, the rest may not end badly. -/
lemma Retains.bind {x : StateAction ε σ β} {f : β → StateAction ε σ α} (hx : Retains Thrown x)
    (h : ∀ b s, ¬ bad (f b s).1) : Retains bad (x >>= f) := by
  intro s ended
  rcases done : x s with ⟨e | b, s'⟩
  · have kept := hx s ⟨e, congrArg Prod.fst done⟩
    rw [done] at kept
    rw [bind_of_error done]
    exact kept
  · rw [bind_of_ok done] at ended
    exact absurd ended (h b s')

end Retains

end StateAction
