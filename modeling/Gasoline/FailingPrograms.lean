import Mathlib.Tactic

/-!
# Programs that fail and keep their state

A program of `EStateM ε σ` runs on a state and returns or fails, and the
state it leaves is there in both cases. What such a program may do is said
by what has to hold before it (`Before`), computed along the program by the
rules below: a return, a failure, a sequence, a handler, a choice, and
reading and writing the state.
-/

namespace Gasoline

variable {ε σ α β : Type}

/-- **What has to hold of the state before** for `Q` to hold of the result
and of the state after. -/
def Before (x : EStateM ε σ α) (Q : Except ε α → σ → Prop) (s : σ) : Prop :=
  match x.run s with
  | .ok a s' => Q (.ok a) s'
  | .error e s' => Q (.error e) s'

variable {Q Q' : Except ε α → σ → Prop} {s : σ}

@[simp] theorem before_pure (a : α) : Before (pure a : EStateM ε σ α) Q s ↔ Q (.ok a) s := Iff.rfl

@[simp] theorem before_throw (e : ε) :
    Before (throw e : EStateM ε σ α) Q s ↔ Q (.error e) s := Iff.rfl

@[simp] theorem before_get {Q : Except ε σ → σ → Prop} :
    Before (get : EStateM ε σ σ) Q s ↔ Q (.ok s) s := Iff.rfl

@[simp] theorem before_set (t : σ) {Q : Except ε PUnit → σ → Prop} :
    Before (set t : EStateM ε σ PUnit) Q s ↔ Q (.ok ⟨⟩) t := Iff.rfl

@[simp] theorem before_modify (f : σ → σ) {Q : Except ε PUnit → σ → Prop} :
    Before (modify f : EStateM ε σ PUnit) Q s ↔ Q (.ok ⟨⟩) (f s) := Iff.rfl

/-- **A sequence**: the second program starts where the first one ended, and
does not start where that one failed. -/
@[simp] theorem before_bind (x : EStateM ε σ α) (f : α → EStateM ε σ β)
    {Q : Except ε β → σ → Prop} :
    Before (x >>= f) Q s ↔ Before x (fun r t => match r with
      | .ok a => Before (f a) Q t
      | .error e => Q (.error e) t) s := by
  show (match EStateM.bind x f s with
    | .ok a t => Q (.ok a) t
    | .error e t => Q (.error e) t) ↔ _
  unfold Before EStateM.bind EStateM.run
  cases x s with
  | ok a t => exact Iff.rfl
  | error e t => exact Iff.rfl

/-- **A handler** starts where the program failed. -/
@[simp] theorem before_tryCatch (x : EStateM ε σ α) (handle : ε → EStateM ε σ α) :
    Before (tryCatch x handle) Q s ↔ Before x (fun r t => match r with
      | .ok a => Q (.ok a) t
      | .error e => Before (handle e) Q t) s := by
  show (match EStateM.tryCatch x handle s with
    | .ok a t => Q (.ok a) t
    | .error e t => Q (.error e) t) ↔ _
  unfold Before EStateM.tryCatch EStateM.run
  cases x s with
  | ok a t => exact Iff.rfl
  | error e t => exact Iff.rfl

theorem before_ite {c : Prop} [Decidable c] {x y : EStateM ε σ α}
    (hx : c → Before x Q s) (hy : ¬ c → Before y Q s) : Before (if c then x else y) Q s := by
  split
  · exact hx ‹_›
  · exact hy ‹_›

/-- What is weaker afterwards needs no more before. -/
theorem Before.mono {x : EStateM ε σ α} (h : Before x Q s) (hQ : ∀ r t, Q r t → Q' r t) :
    Before x Q' s := by
  unfold Before at h ⊢
  split at h
  · exact hQ _ _ h
  · exact hQ _ _ h

end Gasoline
