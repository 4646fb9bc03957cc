import Mathlib.Tactic

/-!
# Runs of a guarded step function

A system is a function `step : S → E → Option S`: `step s e` is the state
after the event `e`, and `none` where the guard of `e` does not hold in
`s`. Events carry every choice the system leaves open, so a run is a list
of events and a state reached by it is computed.

A few rules are all the developments below need. An invariant that every step
keeps is kept by every run (`runs_invariant`); and a property that does not
hold at the start of a run but holds at its end was brought about by a last
step, after which it held throughout (`runs_last_change`). How often
something happens in a run is bounded by a rank (`occurrences_le_rank`), and
that a system is not stuck is that it can get on (`Reaches`).
-/

namespace Gasoline

variable {S E : Type}

/-- **A run**: the events in order, each in the state the one before it
left. -/
def runs (step : S → E → Option S) : S → List E → Option S
  | s, [] => some s
  | s, e :: es => (step s e).bind (fun t => runs step t es)

/-- `P` holds in every state a run goes through, its first and last
included. -/
def Along (step : S → E → Option S) (P : S → Prop) : S → List E → Prop
  | s, [] => P s
  | s, e :: es => P s ∧ ∀ t, step s e = some t → Along step P t es

/-- Every step of a run meets `P`, a condition on its event in the state
before it. -/
def EachStep (step : S → E → Option S) (P : S → E → Prop) : S → List E → Prop
  | _, [] => True
  | s, e :: es => P s e ∧ ∀ t, step s e = some t → EachStep step P t es

/-- How many steps of a run meet `P`, a condition on the event in the state
before it. -/
def occurrences (step : S → E → Option S) (P : S → E → Bool) : S → List E → ℕ
  | _, [] => 0
  | s, e :: es => (if P s e then 1 else 0) + (step s e).elim 0 (fun t => occurrences step P t es)

/-- A state with `P` can be reached by events of the kind `A`. -/
inductive Reaches (step : S → E → Option S) (A : E → Prop) (P : S → Prop) : S → Prop
  | done {s : S} (h : P s) : Reaches step A P s
  | next {s t : S} {e : E} (he : A e) (hstep : step s e = some t) (h : Reaches step A P t) :
      Reaches step A P s

/-- Whether every step of a run meets a condition can be computed. -/
def EachStep.decide (step : S → E → Option S) (P : S → E → Prop) [∀ s e, Decidable (P s e)] :
    S → List E → Bool
  | _, [] => true
  | s, e :: es => Decidable.decide (P s e) && (step s e).all (fun t => EachStep.decide step P t es)

section Runs

variable {step : S → E → Option S}

@[simp] theorem runs_nil (s : S) : runs step s [] = some s := rfl

theorem runs_singleton (s : S) (e : E) : runs step s [e] = step s e := by
  show (step s e).bind some = step s e
  exact Option.bind_fun_some _

/-- A run that starts with `e` starts with a step. -/
theorem runs_cons {s t : S} {e : E} {es : List E} :
    runs step s (e :: es) = some t ↔ ∃ u, step s e = some u ∧ runs step u es = some t :=
  Option.bind_eq_some_iff

theorem runs_append (s : S) (es es' : List E) :
    runs step s (es ++ es') = (runs step s es).bind (fun t => runs step t es') := by
  induction es generalizing s with
  | nil => rfl
  | cons e es ih =>
    rw [List.cons_append, runs, runs, Option.bind_assoc]
    exact congrArg (Option.bind (step s e)) (funext ih)

/-- A run over `es ++ es'` passes through a state in between. -/
theorem runs_append_iff {s t : S} {es es' : List E} :
    runs step s (es ++ es') = some t ↔ ∃ u, runs step s es = some u ∧ runs step u es' = some t := by
  rw [runs_append]
  exact Option.bind_eq_some_iff

/-- A run that ends with `e` ends with a step. -/
theorem runs_concat {s t : S} {es : List E} {e : E} :
    runs step s (es ++ [e]) = some t ↔ ∃ u, runs step s es = some u ∧ step u e = some t := by
  rw [runs_append_iff]
  simp only [runs_singleton]

/-- **What every step keeps, every run keeps.** -/
theorem runs_invariant {I : S → Prop} (hstep : ∀ s e t, I s → step s e = some t → I t)
    {s t : S} {es : List E} (h : runs step s es = some t) (hs : I s) : I t := by
  induction es generalizing s with
  | nil =>
    cases h
    exact hs
  | cons e es ih =>
    obtain ⟨u, hu, hrest⟩ := runs_cons.mp h
    exact ih hrest (hstep s e u hs hu)

/-- The last step of a run meets the condition, and so do the others. -/
theorem EachStep.of_concat {P : S → E → Prop} {s : S} {es : List E} {e : E}
    (h : EachStep step P s (es ++ [e])) :
    EachStep step P s es ∧ ∀ t, runs step s es = some t → P t e := by
  induction es generalizing s with
  | nil =>
    refine ⟨trivial, fun t ht => ?_⟩
    cases ht
    exact h.1
  | cons d es ih =>
    refine ⟨⟨h.1, fun t ht => (ih (h.2 t ht)).1⟩, fun t ht => ?_⟩
    obtain ⟨u, hu, hrest⟩ := runs_cons.mp ht
    exact (ih (h.2 u hu)).2 t hrest

/-- **What every step that meets the condition keeps**, every run keeps whose
steps all do. -/
theorem EachStep.invariant {P : S → E → Prop} {I : S → Prop}
    (hstep : ∀ s e t, I s → P s e → step s e = some t → I t) {s t : S} {es : List E}
    (hes : EachStep step P s es) (h : runs step s es = some t) (hs : I s) : I t := by
  induction es generalizing s with
  | nil =>
    cases h
    exact hs
  | cons e es ih =>
    obtain ⟨u, hu, hrest⟩ := runs_cons.mp h
    exact ih (hes.2 u hu) hrest (hstep s e u hs hes.1 hu)

/-- The steps at the beginning of a run meet the condition. -/
theorem EachStep.of_append {P : S → E → Prop} {s : S} {es es' : List E}
    (h : EachStep step P s (es ++ es')) : EachStep step P s es := by
  induction es generalizing s with
  | nil => trivial
  | cons e es ih => exact ⟨h.1, fun t ht => ih (h.2 t ht)⟩

theorem EachStep.and {P Q : S → E → Prop} {s : S} {es : List E} (hP : EachStep step P s es)
    (hQ : EachStep step Q s es) : EachStep step (fun s e => P s e ∧ Q s e) s es := by
  induction es generalizing s with
  | nil => trivial
  | cons e es ih => exact ⟨⟨hP.1, hQ.1⟩, fun t ht => ih (hP.2 t ht) (hQ.2 t ht)⟩

theorem EachStep.decide_eq_true {P : S → E → Prop} [∀ s e, Decidable (P s e)] {s : S}
    {es : List E} : EachStep.decide step P s es = true ↔ EachStep step P s es := by
  induction es generalizing s with
  | nil => exact ⟨fun _ => trivial, fun _ => rfl⟩
  | cons e es ih =>
    simp only [EachStep.decide, EachStep, Bool.and_eq_true, decide_eq_true_eq, Option.all_eq_true, ih]

instance {P : S → E → Prop} [∀ s e, Decidable (P s e)] (s : S) (es : List E) :
    Decidable (EachStep step P s es) :=
  decidable_of_iff _ EachStep.decide_eq_true

/-- What holds along a run holds at its start. -/
theorem Along.head {P : S → Prop} {s : S} {es : List E} (h : Along step P s es) : P s := by
  cases es with
  | nil => exact h
  | cons e es => exact h.1

/-- Holding along a run and after one more step is holding along the longer
run. -/
theorem Along.concat {P : S → Prop} {s : S} {es : List E} {e : E}
    (h : Along step P s es)
    (hlast : ∀ t u, runs step s es = some t → step t e = some u → P u) :
    Along step P s (es ++ [e]) := by
  induction es generalizing s with
  | nil => exact ⟨h, fun t ht => hlast s t rfl ht⟩
  | cons d es ih =>
    refine ⟨h.1, fun t ht => ih (h.2 t ht) (fun u v hu hv => hlast u v ?_ hv)⟩
    exact runs_cons.mpr ⟨t, ht, hu⟩

theorem Along.mono {P Q : S → Prop} {s : S} {es : List E} (h : Along step P s es)
    (hPQ : ∀ t, P t → Q t) : Along step Q s es := by
  induction es generalizing s with
  | nil => exact hPQ s h
  | cons e es ih => exact ⟨hPQ s h.1, fun t ht => ih (h.2 t ht)⟩

theorem Along.and {P Q : S → Prop} {s : S} {es : List E} (hP : Along step P s es)
    (hQ : Along step Q s es) : Along step (fun t => P t ∧ Q t) s es := by
  induction es generalizing s with
  | nil => exact ⟨hP, hQ⟩
  | cons e es ih => exact ⟨⟨hP.1, hQ.1⟩, fun t ht => ih (hP.2 t ht) (hQ.2 t ht)⟩

/-- **What held before wherever it holds after**, and holds at the end of a
run, holds along the run. -/
theorem Along.of_end {I J : S → Prop} (hI : ∀ s e t, I s → step s e = some t → I t)
    (hJ : ∀ s e t, I s → step s e = some t → J t → J s) {s t : S} {es : List E}
    (h : runs step s es = some t) (hs : I s) (ht : J t) :
    Along step (fun u => I u ∧ J u) s es := by
  induction es generalizing s with
  | nil =>
    cases h
    exact ⟨hs, ht⟩
  | cons e es ih =>
    obtain ⟨u, hu, hrest⟩ := runs_cons.mp h
    have hnext := ih hrest (hI s e u hs hu)
    refine ⟨⟨hs, hJ s e u hs hu hnext.head.2⟩, fun v hv => ?_⟩
    obtain rfl := Option.some.inj (hu.symm.trans hv)
    exact hnext

/-- **A rank bounds how often something happens**: as long as `I` holds, no
step raises it, and every step that meets `P` lowers it. -/
theorem occurrences_le_rank {P : S → E → Bool} {I : S → Prop} (rank : S → ℕ)
    (hstep : ∀ s e t, I s → I t → step s e = some t →
      rank t + (if P s e then 1 else 0) ≤ rank s)
    {s t : S} {es : List E} (h : runs step s es = some t) (hI : Along step I s es) :
    occurrences step P s es ≤ rank s := by
  induction es generalizing s with
  | nil => exact Nat.zero_le _
  | cons e es ih =>
    obtain ⟨u, hu, hrest⟩ := runs_cons.mp h
    have hnext := ih hrest (hI.2 u hu)
    have hfirst := hstep s e u hI.1 (hI.2 u hu).head hu
    rw [occurrences, hu, Option.elim_some]
    omega

theorem Reaches.trans {A : E → Prop} {P Q : S → Prop} {s : S} (h : Reaches step A P s)
    (hPQ : ∀ t, P t → Reaches step A Q t) : Reaches step A Q s := by
  induction h with
  | done h => exact hPQ _ h
  | next he hstep _ ih => exact .next he hstep ih

/-- What every event of the kind keeps can be kept on the way. -/
theorem Reaches.keeps {A : E → Prop} {P I : S → Prop} {s : S} (h : Reaches step A P s)
    (hI : ∀ s e t, A e → I s → step s e = some t → I t) (hs : I s) :
    Reaches step A (fun t => P t ∧ I t) s := by
  induction h with
  | done h => exact .done ⟨h, hs⟩
  | next he hstep _ ih => exact .next he hstep (ih (hI _ _ _ he hs hstep))

theorem Reaches.exists_runs {A : E → Prop} {P : S → Prop} {s : S} (h : Reaches step A P s) :
    ∃ es t, (∀ e ∈ es, A e) ∧ runs step s es = some t ∧ P t := by
  induction h with
  | done h => exact ⟨[], _, by simp, rfl, h⟩
  | next he hstep _ ih =>
    obtain ⟨es, t, hes, hrun, ht⟩ := ih
    exact ⟨_ :: es, t, List.forall_mem_cons.mpr ⟨he, hes⟩, runs_cons.mpr ⟨_, hstep, hrun⟩, ht⟩

/-- **The last step that brought `P` about.** -/
theorem runs_last_change {P : S → Prop} {s t : S} {es : List E}
    (h : runs step s es = some t) (hs : ¬ P s) (ht : P t) :
    ∃ before e after u v, es = before ++ e :: after
      ∧ runs step s before = some u ∧ step u e = some v ∧ runs step v after = some t
      ∧ ¬ P u ∧ P v ∧ Along step P v after := by
  -- from the end: either the last step brought `P` about, or an earlier one did
  induction es using List.reverseRecOn generalizing t with
  | nil =>
    cases h
    exact absurd ht hs
  | append_singleton es e ih =>
    obtain ⟨w, hw, hstep⟩ := runs_concat.mp h
    by_cases hPw : P w
    · obtain ⟨before, d, after, u, v, rfl, hu, hv, hafter, hPu, hPv, halong⟩ := ih hw hPw
      refine ⟨before, d, after ++ [e], u, v, by simp, hu, hv, ?_, hPu, hPv, ?_⟩
      · exact runs_concat.mpr ⟨w, hafter, hstep⟩
      · refine halong.concat (fun x y hx hy => ?_)
        rw [hafter] at hx
        cases hx
        rw [hstep] at hy
        cases hy
        exact ht
    · exact ⟨es, e, [], w, t, rfl, hw, hstep, rfl, hPw, ht, ht⟩

end Runs

end Gasoline
