import Gasoline.Runs

/-!
# Programs that call a system

A program is a tree: it has returned, it has failed, or it makes a call and
goes on with the reply (`Prog`). What the calls do is not part of the
program but of the system that answers them; a reply the system may give in
a state, and the state it leaves, is one step, so errors and short counts
are replies like any other.

Programs that share a system are reasoned about one at a time, with
preconditions and postconditions under interference. An `Actor` says what a
program may rely on while it is not running, and what it guarantees of each
of its own steps; `Actor.Triple P p Q` says that from every state in `P`,
whatever the replies and whatever the others do, each step of `p` keeps the
guarantee and a return of `p` satisfies `Q`. The rules follow the structure
of the program (`Triple.done`, `Triple.call`, `Triple.bind`), and
`Triple.advance` and `Triple.interfere` are what a proof about the whole
system needs.
-/

namespace Gasoline

/-- **A program**: it returned, it failed with a message, or it is about to
make a call. -/
inductive Prog (C R α : Type)
  | done (value : α)
  | failed (message : String)
  | call (c : C) (next : R → Prog C R α)

namespace Prog

variable {C R α β : Type}

/-- Sequencing. A failure ends the whole program. -/
def bind : Prog C R α → (α → Prog C R β) → Prog C R β
  | .done a, f => f a
  | .failed message, _ => .failed message
  | .call c next, f => .call c (fun r => (next r).bind f)

instance : Monad (Prog C R) where
  pure := .done
  bind := .bind

@[simp] theorem pure_eq (a : α) : (pure a : Prog C R α) = .done a := rfl

@[simp] theorem done_bind (a : α) (f : α → Prog C R β) : (.done a >>= f) = f a := rfl

@[simp] theorem failed_bind (message : String) (f : α → Prog C R β) :
    ((.failed message : Prog C R α) >>= f) = .failed message := rfl

@[simp] theorem call_bind (c : C) (next : R → Prog C R α) (f : α → Prog C R β) :
    (.call c next >>= f) = .call c (fun r => next r >>= f) := rfl

end Prog

/-- **A party of a system**: how the system answers its calls, what the
party relies on of the steps of others, and what it guarantees of its
own. -/
structure Actor (σ C R : Type) where
  step : σ → C → R → Option σ
  Rely : σ → σ → Prop
  Guarantee : σ → σ → Prop
  rely_refl : ∀ s, Rely s s
  rely_trans : ∀ {s t u}, Rely s t → Rely t u → Rely s u

namespace Actor

variable {σ C R α β : Type} (A : Actor σ C R)

/-- From a state on, whatever is replied and whatever others do: every step
of the program keeps the guarantee, and a return satisfies `Q`. -/
def Meets (Q : α → σ → Prop) : Prog C R α → σ → Prop
  | .done a, s => ∀ t, A.Rely s t → Q a t
  | .failed _, _ => True
  | .call c next, s => ∀ t, A.Rely s t → ∀ r u, A.step t c r = some u →
      A.Guarantee t u ∧ Meets Q (next r) u

/-- **Precondition, program, postcondition.** -/
def Triple (P : σ → Prop) (p : Prog C R α) (Q : α → σ → Prop) : Prop :=
  ∀ s, P s → A.Meets Q p s

/-- `P` outlasts what others do. -/
def Stable (P : σ → Prop) : Prop := ∀ s t, P s → A.Rely s t → P t

variable {A}

/-- What a program meets it still meets after steps of others. -/
theorem Meets.interfere {Q : α → σ → Prop} {p : Prog C R α} {s t : σ}
    (h : A.Meets Q p s) (hrely : A.Rely s t) : A.Meets Q p t := by
  cases p with
  | done a => exact fun u hu => h u (A.rely_trans hrely hu)
  | failed message => trivial
  | call c next => exact fun u hu => h u (A.rely_trans hrely hu)

theorem Meets.advance {Q : α → σ → Prop} {c : C} {next : R → Prog C R α} {s t : σ} {r : R}
    (h : A.Meets Q (.call c next) s) (hstep : A.step s c r = some t) :
    A.Guarantee s t ∧ A.Meets Q (next r) t :=
  h s (A.rely_refl s) r t hstep

/-- A program that returned satisfies its postcondition. -/
theorem Meets.returned {Q : α → σ → Prop} {a : α} {s : σ} (h : A.Meets Q (.done a) s) : Q a s :=
  h s (A.rely_refl s)

theorem Meets.mono {Q Q' : α → σ → Prop} (hQ : ∀ a s, Q a s → Q' a s) {p : Prog C R α} {s : σ}
    (h : A.Meets Q p s) : A.Meets Q' p s := by
  induction p generalizing s with
  | done a => exact fun t ht => hQ a t (h t ht)
  | failed message => trivial
  | call c next ih =>
    intro t ht r u hu
    exact ⟨(h t ht r u hu).1, ih r (h t ht r u hu).2⟩

/-! ## Rules -/

namespace Triple

variable {P P' : σ → Prop} {Q Q' : α → σ → Prop}

/-- Strengthen the precondition, weaken the postcondition. -/
theorem consequence {p : Prog C R α} (h : A.Triple P p Q) (hP : ∀ s, P' s → P s)
    (hQ : ∀ a s, Q a s → Q' a s) : A.Triple P' p Q' :=
  fun s hs => (h s (hP s hs)).mono hQ

theorem weaken {p : Prog C R α} (h : A.Triple P p Q) (hP : ∀ s, P' s → P s) : A.Triple P' p Q :=
  h.consequence hP (fun _ _ hq => hq)

/-- A precondition that does not speak of the state. -/
theorem given {p : Prog C R α} {φ : Prop} (h : φ → A.Triple P p Q) :
    A.Triple (fun s => P s ∧ φ) p Q :=
  fun s hs => h hs.2 s hs.1

theorem done (hstable : A.Stable P) {a : α} (h : ∀ s, P s → Q a s) :
    A.Triple P (.done a) Q :=
  fun s hs t ht => h t (hstable s t hs ht)

theorem failed {message : String} : A.Triple P (.failed message) Q :=
  fun _ _ => trivial

/-- **A call**: in every state of the precondition, every reply the system
may give keeps the guarantee and leads to what the rest of the program
needs. -/
theorem call {c : C} {next : R → Prog C R α} {M : R → σ → Prop} (hstable : A.Stable P)
    (hstep : ∀ s r t, P s → A.step s c r = some t → A.Guarantee s t ∧ M r t)
    (hnext : ∀ r, A.Triple (M r) (next r) Q) : A.Triple P (.call c next) Q := by
  intro s hs t ht r u hu
  obtain ⟨hguarantee, hM⟩ := hstep t r u (hstable s t hs ht) hu
  exact ⟨hguarantee, hnext r u hM⟩

theorem bind {p : Prog C R α} {f : α → Prog C R β} {M : α → σ → Prop} {Q : β → σ → Prop}
    (hp : A.Triple P p M) (hf : ∀ a, A.Triple (M a) (f a) Q) : A.Triple P (p >>= f) Q := by
  intro s hs
  have h := hp s hs
  clear hp hs
  induction p generalizing s with
  | done a => exact hf a s h.returned
  | failed message => trivial
  | call c next ih =>
    intro t ht r u hu
    obtain ⟨hguarantee, hrest⟩ := h t ht r u hu
    exact ⟨hguarantee, ih r u hrest⟩

end Triple

end Actor

/-! ## A program that runs alone -/

/-- One reply to a program that runs alone. -/
def Prog.answer {σ C R α : Type} (step : σ → C → R → Option σ) (s : Prog C R α × σ) (r : R) :
    Option (Prog C R α × σ) :=
  match s.1 with
  | .done _ => none
  | .failed _ => none
  | .call c next => (step s.2 c r).map (fun t => (next r, t))

/-- **A program ends**: no run of it goes on forever. -/
theorem Prog.acc_answer {σ C R α : Type} (step : σ → C → R → Option σ) (p : Prog C R α) (s : σ) :
    Acc (fun y x => ∃ r, Prog.answer step x r = some y) (p, s) := by
  induction p generalizing s with
  | done a => exact ⟨_, fun _ ⟨_, h⟩ => by cases h⟩
  | failed message => exact ⟨_, fun _ ⟨_, h⟩ => by cases h⟩
  | call c next ih =>
    refine ⟨_, fun y ⟨r, h⟩ => ?_⟩
    obtain ⟨t, -, rfl⟩ := Option.map_eq_some_iff.mp h
    exact ih r t

/-- **A program can return** a value from a state and leave another, if the
system gives the replies it may give. -/
inductive Prog.Returns {σ C R α : Type} (step : σ → C → R → Option σ) :
    Prog C R α → σ → α → σ → Prop
  | done {a : α} {s : σ} : Returns step (.done a) s a s
  | call {c : C} {next : R → Prog C R α} {s u t : σ} {r : R} {a : α}
      (hstep : step s c r = some u) (hnext : Returns step (next r) u a t) :
      Returns step (.call c next) s a t

theorem Prog.Returns.bind {σ C R α β : Type} {step : σ → C → R → Option σ} {p : Prog C R α}
    {f : α → Prog C R β} {s u t : σ} {a : α} {b : β} (hp : p.Returns step s a u)
    (hf : (f a).Returns step u b t) : (p >>= f).Returns step s b t := by
  induction hp with
  | done => exact hf
  | call hstep _ ih => exact .call hstep (ih hf)

/-- **A program returns nothing**, whatever the system replies. -/
inductive Prog.Fails {C R α : Type} : Prog C R α → Prop
  | failed (message : String) : Fails (.failed message)
  | call {c : C} {next : R → Prog C R α} (h : ∀ r, Fails (next r)) : Fails (.call c next)

/-- **What every step of a program guarantees holds when it runs alone**, in
every state it passes through; and what it returns satisfies its
postcondition. -/
theorem Actor.Triple.alone {σ C R α : Type} {A : Actor σ C R} {P : σ → Prop} {p : Prog C R α}
    {Q : α → σ → Prop} (h : A.Triple P p Q) {J : σ → Prop}
    (hJ : ∀ s t, J s → A.Guarantee s t → J t) {s : σ} (hs : P s) (hJs : J s)
    {rs : List R} {q : Prog C R α} {t : σ}
    (hrun : runs (Prog.answer A.step) (p, s) rs = some (q, t)) :
    J t ∧ A.Meets Q q t := by
  refine runs_invariant (I := fun x : Prog C R α × σ => J x.2 ∧ A.Meets Q x.1 x.2) ?_ hrun
    ⟨hJs, h s hs⟩
  rintro ⟨p, s⟩ r ⟨q, t⟩ ⟨hJ', hmeets⟩ hanswer
  cases p with
  | done a => cases hanswer
  | failed message => cases hanswer
  | call c next =>
    obtain ⟨u, hu, heq⟩ := Option.map_eq_some_iff.mp hanswer
    obtain ⟨rfl, rfl⟩ := Prod.mk.inj heq
    obtain ⟨hguarantee, hrest⟩ := hmeets.advance hu
    exact ⟨hJ _ _ hJ' hguarantee, hrest⟩

end Gasoline
