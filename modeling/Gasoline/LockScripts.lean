import Mathlib.Data.Finset.Max
import Mathlib.Logic.Function.Basic
import Gasoline.Runs

/-!
# Threads, locks and shared objects

Threads that run scripts. A script is what is left of a function when all but
its locking is taken out: the scopes in which it holds a lock, the shared
pointers it has, and its branches and loops, which may go any way. A lock is
global or part of an object, and objects are counted: weak pointers are
turned into shared ones while there is one, and the thread that gives up the
last one runs the destructor, there and then, with the locks that it holds.

A thread is a stack of frames, and the locks it holds and the pointers it has
are read off the stack. So scopes are closed in their order, by construction.

If the locks have ranks, a thread that asks for a lock of a higher rank than
all it holds is not part of a deadlock (`exists_not_waiting`). Destructors do
not keep to the ranks where they take the locks of their own object, and need
not: nobody else can ask for these any more. `Script.Within` says this of a
script, once and for all, and `Threads.Sound.progress` of every state that is
reached: in every set of threads that are not done, one can go on or waits
for a thread outside. Nor does an object that is gone come back
(`Threads.Sound.gone_runs`). Both rest on a list of what a step of a thread
can do (`Threads.Moves`).
-/

namespace Gasoline

/-! ## Locks with ranks -/

/-- **No set of threads waits for itself.** Each waits for a lock that ranks
higher than those it holds, so one of those that wait for the highest waits
for nobody among them. -/
theorem exists_not_waiting {T L ι : Type} [LinearOrder ι] {holds waits : T → L → Prop}
    {rank : L → ι} (hordered : ∀ t l, waits t l → ∀ m, holds t m → rank m < rank l) {D : Finset T}
    (hD : D.Nonempty) : ∃ t ∈ D, ∀ l, waits t l → ∀ u ∈ D, ¬ holds u l := by
  classical
  by_contra hall
  push Not at hall
  obtain ⟨t₀, ht₀⟩ := hD
  obtain ⟨l₀, -, -⟩ := hall t₀ ht₀
  have : Nonempty T := ⟨t₀⟩
  have : Nonempty L := ⟨l₀⟩
  choose! wanted hwaits holder hholder hholds using hall
  obtain ⟨t, ht, hmax⟩ := D.exists_max_image (fun t => rank (wanted t)) ⟨t₀, ht₀⟩
  have hnext := hordered (holder t) (wanted (holder t)) (hwaits _ (hholder t ht)) (wanted t)
    (hholds t ht)
  exact absurd (hmax (holder t) (hholder t ht)) (not_le.mpr hnext)

/-! ## Scripts -/

/-- **What a function does with locks and shared pointers.** -/
inductive Script (L : Type)
  | skip
  | seq (a b : Script L)
  /-- One of the two. -/
  | either (a b : Script L)
  /-- As often as it likes. -/
  | many (a : Script L)
  /-- The lock is held for the body. -/
  | guard (l : L) (body : Script L)
  /-- A variable for a shared pointer, which goes behind the body. -/
  | scope (body : Script L)
  /-- A weak pointer is turned into a shared one, in the innermost variable.
  The body follows unless the object is gone. -/
  | lockWeak (c : ℕ) (body : Script L)
  /-- With some object. -/
  | any (body : ℕ → Script L)
  /-- With a new object, in the innermost variable. -/
  | create (body : ℕ → Script L)
  /-- A new thread, which has a shared pointer to the object. -/
  | spawn (c : ℕ) (body : Script L)

/-- What is on the stack of a thread. -/
inductive ThreadFrame (L : Type)
  | run (s : Script L)
  /-- The end of the scope of a lock. -/
  | unlock (l : L)
  /-- The end of the scope of a variable, with the pointers in it. -/
  | owns (objects : List ℕ)
  /-- The end of a destructor. -/
  | bury (c : ℕ)

/-- **A program**: which object a lock is part of, the ranks of the locks, the
destructors, and what threads are started with. -/
structure LockProgram (L E : Type) where
  owner : L → Option ℕ
  rank : L → ℕ
  /-- Pointers go only where all locks that are held rank lower. -/
  ceiling : ℕ
  destructor : ℕ → Script L
  entry : E → Script L

variable {L E : Type}

/-- The locks that a thread holds. -/
def heldBy : List (ThreadFrame L) → List L
  | [] => []
  | .unlock l :: k => l :: heldBy k
  | _ :: k => heldBy k

/-- The objects that a thread has pointers to. -/
def ownedBy : List (ThreadFrame L) → List ℕ
  | [] => []
  | .owns objects :: k => objects ++ ownedBy k
  | _ :: k => ownedBy k

/-- The objects whose destructors a thread is in. -/
def buriedBy : List (ThreadFrame L) → List ℕ
  | [] => []
  | .bury c :: k => c :: buriedBy k
  | _ :: k => buriedBy k

/-- A pointer is put into the innermost variable. -/
def fill (c : ℕ) : List (ThreadFrame L) → Option (List (ThreadFrame L))
  | [] => none
  | .owns objects :: k => some (.owns (c :: objects) :: k)
  | frame :: k => (fill c k).map (fun k => frame :: k)

/-! ## Threads -/

/-- The threads, with the numbers of the next thread and of the next
object. -/
structure Threads (L : Type) where
  stack : ℕ → List (ThreadFrame L)
  nextThread : ℕ
  nextObject : ℕ

/-- What may happen next. -/
inductive ThreadEvent (E : Type)
  | start (e : E)
  /-- A thread goes on, and chooses where it has a choice. -/
  | go (t : ℕ) (choice : ℕ)

namespace Threads

/-- No threads. -/
def initial : Threads L := ⟨fun _ => [], 0, 0⟩

/-- A thread changes. -/
def set (s : Threads L) (t : ℕ) (k : List (ThreadFrame L)) : Threads L :=
  { s with stack := Function.update s.stack t k }

/-- Somebody has a pointer to the object. -/
def isAlive (s : Threads L) (c : ℕ) : Bool :=
  (List.range s.nextThread).any (fun t => decide (c ∈ ownedBy (s.stack t)))

section

variable [DecidableEq L]

/-- Nobody holds the lock. -/
def isFree (s : Threads L) (l : L) : Bool :=
  (List.range s.nextThread).all (fun t => decide (l ∉ heldBy (s.stack t)))

/-- **A thread goes on.** -/
def go (p : LockProgram L E) (s : Threads L) (t choice : ℕ) : Option (Threads L) :=
  match s.stack t with
  | [] => none
  | .run .skip :: k => some (s.set t k)
  | .run (.seq a b) :: k => some (s.set t (.run a :: .run b :: k))
  | .run (.either a b) :: k => some (s.set t (.run (if choice = 0 then a else b) :: k))
  | .run (.many a) :: k => some (s.set t (if choice = 0 then k else .run a :: .run (.many a) :: k))
  | .run (.guard l body) :: k =>
    if s.isFree l then some (s.set t (.run body :: .unlock l :: k)) else none
  | .run (.scope body) :: k => some (s.set t (.run body :: .owns [] :: k))
  | .run (.lockWeak c body) :: k =>
    if s.isAlive c then (fill c k).map (fun k => s.set t (.run body :: k)) else some (s.set t k)
  | .run (.any body) :: k => some (s.set t (.run (body choice) :: k))
  | .run (.create body) :: k =>
    (fill s.nextObject k).map (fun k =>
      { s.set t (.run (body s.nextObject) :: k) with nextObject := s.nextObject + 1 })
  | .run (.spawn c body) :: k =>
    some { (s.set t k).set s.nextThread [.run body, .owns [c]] with nextThread := s.nextThread + 1 }
  | .unlock _ :: k => some (s.set t k)
  | .owns [] :: k => some (s.set t k)
  | .owns (c :: objects) :: k =>
    let dropped := s.set t (.owns objects :: k)
    if dropped.isAlive c then some dropped
    else some (s.set t (.run (p.destructor c) :: .bury c :: .owns objects :: k))
  | .bury _ :: k => some (s.set t k)

/-- **What happens at an event**, or `none` where it cannot happen. -/
def step (p : LockProgram L E) (s : Threads L) : ThreadEvent E → Option (Threads L)
  | .start e =>
    some { s.set s.nextThread [.run (p.entry e)] with nextThread := s.nextThread + 1 }
  | .go t choice => s.go p t choice

end

end Threads

/-! ## What a script must keep to -/

namespace Script

/-- **The script asks for its locks in their order**, where the thread holds
`held`, has pointers to `owned`, is in the destructors of `buried`, and has a
variable for pointers if `slot` is true. A lock of an object needs a pointer
to it, or is asked for in its destructor; there the ranks do not matter, as
long as the lock is not held already. Pointers go where only locks below the
ceiling are held. -/
def Within (p : LockProgram L E) (held : List L) (owned buried : List ℕ) (slot : Bool) :
    Script L → Prop
  | .skip => True
  | .seq a b => a.Within p held owned buried slot ∧ b.Within p held owned buried slot
  | .either a b => a.Within p held owned buried slot ∧ b.Within p held owned buried slot
  | .many a => a.Within p held owned buried slot
  | .guard l body =>
    (∀ c, p.owner l = some c → c ∈ owned ∨ c ∈ buried)
      ∧ ((∀ m ∈ held, p.rank m < p.rank l) ∨ ∃ c ∈ buried, p.owner l = some c ∧ l ∉ held)
      ∧ body.Within p (l :: held) owned buried slot
  | .scope body => (∀ m ∈ held, p.rank m < p.ceiling) ∧ body.Within p held owned buried true
  | .lockWeak c body => slot = true ∧ body.Within p held (c :: owned) buried slot
  | .any body => ∀ c, (body c).Within p held owned buried slot
  | .create body => slot = true ∧ ∀ c, (body c).Within p held (c :: owned) buried slot
  | .spawn c body => c ∈ owned ∧ body.Within p [] [c] [] true

variable {p : LockProgram L E} {held : List L} {owned owned' buried : List ℕ} {slot : Bool}

theorem Within.mono {s : Script L} (hsub : owned ⊆ owned')
    (h : s.Within p held owned buried slot) : s.Within p held owned' buried slot := by
  induction s generalizing held owned owned' slot with
  | skip => trivial
  | seq a b iha ihb => exact ⟨iha hsub h.1, ihb hsub h.2⟩
  | either a b iha ihb => exact ⟨iha hsub h.1, ihb hsub h.2⟩
  | many a ih => exact ih hsub h
  | guard l body ih =>
    obtain ⟨howner, horder, hbody⟩ := h
    exact ⟨fun c hc => (howner c hc).imp_left (fun hmem => hsub hmem), horder, ih hsub hbody⟩
  | scope body ih => exact ⟨h.1, ih hsub h.2⟩
  | lockWeak c body ih => exact ⟨h.1, ih (List.cons_subset_cons c hsub) h.2⟩
  | any body ih => exact fun c => ih c hsub (h c)
  | create body ih => exact ⟨h.1, fun c => ih c (List.cons_subset_cons c hsub) (h.2 c)⟩
  | spawn c body ih => exact ⟨hsub h.1, h.2⟩

end Script

/-- The stack has a variable for pointers. -/
def hasSlot : List (ThreadFrame L) → Bool
  | [] => false
  | .owns _ :: _ => true
  | _ :: k => hasSlot k

/-- **Everything on the stack keeps to it.** -/
def StackOk (p : LockProgram L E) : List (ThreadFrame L) → Prop
  | [] => True
  | .run s :: k => s.Within p (heldBy k) (ownedBy k) (buriedBy k) (hasSlot k) ∧ StackOk p k
  | .unlock l :: k => (∀ c, p.owner l = some c → c ∈ ownedBy k ∨ c ∈ buriedBy k) ∧ StackOk p k
  | .owns _ :: k => (∀ m ∈ heldBy k, p.rank m < p.ceiling) ∧ StackOk p k
  | .bury _ :: k => StackOk p k

/-- **What a program must keep to**: what threads are started with, and the
destructors, wherever pointers may go. -/
structure LockProgram.Ordered (p : LockProgram L E) : Prop where
  entry : ∀ e, (p.entry e).Within p [] [] [] false
  destructor : ∀ c held owned buried slot, (∀ m ∈ held, p.rank m < p.ceiling) →
    (∀ m ∈ held, p.owner m ≠ some c) → (p.destructor c).Within p held owned (c :: buried) slot

section Stacks

variable {p : LockProgram L E} {k k' : List (ThreadFrame L)} {c : ℕ}

/-- A variable that is there can be filled. -/
theorem exists_fill (h : hasSlot k = true) : ∃ k', fill c k = some k' := by
  induction k with
  | nil => cases h
  | cons frame k ih =>
    cases frame with
    | owns objects => exact ⟨_, rfl⟩
    | _ =>
      obtain ⟨k', hk'⟩ := ih h
      exact ⟨_, congrArg (Option.map _) hk'⟩

/-- **A pointer in the innermost variable**: nothing else changes. -/
structure Filled (c : ℕ) (k k' : List (ThreadFrame L)) : Prop where
  held : heldBy k' = heldBy k
  owned : ∀ d, d ∈ ownedBy k' ↔ d = c ∨ d ∈ ownedBy k
  buried : buriedBy k' = buriedBy k
  slot : hasSlot k' = hasSlot k

theorem filled_of_fill (h : fill c k = some k') : Filled c k k' := by
  induction k generalizing k' with
  | nil => cases h
  | cons frame k ih =>
    cases frame with
    | owns objects =>
      obtain rfl := Option.some.inj h
      exact ⟨rfl, fun d => by simp [ownedBy], rfl, rfl⟩
    | run s =>
      obtain ⟨k', hk', rfl⟩ := Option.map_eq_some_iff.mp h
      have hfilled := ih hk'
      exact ⟨hfilled.held, hfilled.owned, hfilled.buried, hfilled.slot⟩
    | unlock l =>
      obtain ⟨k', hk', rfl⟩ := Option.map_eq_some_iff.mp h
      have hfilled := ih hk'
      exact ⟨congrArg (l :: ·) hfilled.held, hfilled.owned, hfilled.buried, hfilled.slot⟩
    | bury d =>
      obtain ⟨k', hk', rfl⟩ := Option.map_eq_some_iff.mp h
      have hfilled := ih hk'
      exact ⟨hfilled.held, hfilled.owned, congrArg (d :: ·) hfilled.buried, hfilled.slot⟩

theorem StackOk.fill (hk : StackOk p k) (h : Gasoline.fill c k = some k') : StackOk p k' := by
  induction k generalizing k' with
  | nil => cases h
  | cons frame k ih =>
    cases frame with
    | owns objects =>
      obtain rfl := Option.some.inj h
      exact hk
    | run s =>
      obtain ⟨k', hk', rfl⟩ := Option.map_eq_some_iff.mp h
      have hfilled := filled_of_fill hk'
      refine ⟨?_, ih hk.2 hk'⟩
      rw [hfilled.held, hfilled.buried, hfilled.slot]
      exact hk.1.mono (fun d hd => (hfilled.owned d).mpr (.inr hd))
    | unlock l =>
      obtain ⟨k', hk', rfl⟩ := Option.map_eq_some_iff.mp h
      have hfilled := filled_of_fill hk'
      refine ⟨fun d hd => ?_, ih hk.2 hk'⟩
      rw [hfilled.buried]
      exact (hk.1 d hd).imp_left (fun hmem => (hfilled.owned d).mpr (.inr hmem))
    | bury d =>
      obtain ⟨k', hk', rfl⟩ := Option.map_eq_some_iff.mp h
      have hrest : StackOk p k' := ih hk hk'
      exact hrest

/-- A lock of an object is held by a thread that has a pointer to it, or is in
its destructor. -/
theorem StackOk.owner (hk : StackOk p k) {l : L} (hl : l ∈ heldBy k) (hc : p.owner l = some c) :
    c ∈ ownedBy k ∨ c ∈ buriedBy k := by
  induction k with
  | nil => cases hl
  | cons frame k ih =>
    cases frame with
    | run s => exact ih hk.2 hl
    | unlock m =>
      rcases List.mem_cons.mp hl with rfl | hl
      · exact hk.1 c hc
      · exact ih hk.2 hl
    | owns objects => exact (ih hk.2 hl).imp_left (fun h => List.mem_append_right _ h)
    | bury d => exact (ih hk hl).imp_right (fun h => List.mem_cons_of_mem _ h)

end Stacks

/-! ## What every run keeps -/

namespace Threads

variable {p : LockProgram L E} {s s' : Threads L}

/-- **The invariant.** An object in its destructor is in one destructor, and
nobody has a pointer to it. -/
structure Sound (p : LockProgram L E) (s : Threads L) : Prop where
  ok : ∀ t, StackOk p (s.stack t)
  idle : ∀ t, s.nextThread ≤ t → s.stack t = []
  dying : ∀ t c, c ∈ buriedBy (s.stack t) →
    (∀ u, c ∉ ownedBy (s.stack u)) ∧ ∀ u, c ∈ buriedBy (s.stack u) → u = t
  fresh : ∀ t c, s.nextObject ≤ c → c ∉ ownedBy (s.stack t) ∧ c ∉ buriedBy (s.stack t)

theorem Sound.lt (hs : s.Sound p) {t : ℕ} (h : s.stack t ≠ []) : t < s.nextThread := by
  by_contra hle
  exact h (hs.idle t (not_lt.mp hle))

/-- **A thread changes**, gets no pointer but to objects that are alive or
new, and enters no destructor. -/
theorem Sound.change (hs : s.Sound p) {t n : ℕ} {k : List (ThreadFrame L)} (ht : t < s.nextThread)
    (hn : s.nextObject ≤ n) (hk : StackOk p k)
    (howned : ∀ c ∈ ownedBy k, (∃ u, c ∈ ownedBy (s.stack u)) ∨ (s.nextObject ≤ c ∧ c < n))
    (hburied : ∀ c ∈ buriedBy k, c ∈ buriedBy (s.stack t)) :
    Sound p { s.set t k with nextObject := n } := by
  have howned : ∀ u c, c ∈ ownedBy ((s.set t k).stack u) →
      (∃ v, c ∈ ownedBy (s.stack v)) ∨ (s.nextObject ≤ c ∧ c < n) := by
    intro u c hc
    by_cases hu : u = t
    · subst hu
      exact howned c (by simpa [Threads.set] using hc)
    · exact .inl ⟨u, by simpa [Threads.set, Function.update_of_ne hu] using hc⟩
  have hburied : ∀ u c, c ∈ buriedBy ((s.set t k).stack u) → c ∈ buriedBy (s.stack u) := by
    intro u c hc
    by_cases hu : u = t
    · subst hu
      exact hburied c (by simpa [Threads.set] using hc)
    · simpa [Threads.set, Function.update_of_ne hu] using hc
  constructor
  · intro u
    by_cases hu : u = t
    · subst hu
      simpa [Threads.set] using hk
    · simpa [Threads.set, Function.update_of_ne hu] using hs.ok u
  · intro u hu
    have hne : u ≠ t := (ht.trans_le hu).ne'
    simpa [Threads.set, Function.update_of_ne hne] using hs.idle u hu
  · intro u c hc
    obtain ⟨hgone, honly⟩ := hs.dying u c (hburied u c hc)
    refine ⟨fun v hv => ?_, fun v hv => honly v (hburied v c hv)⟩
    rcases howned v c hv with ⟨w, hw⟩ | ⟨hnew, -⟩
    · exact hgone w hw
    · exact (hs.fresh u c hnew).2 (hburied u c hc)
  · intro u c hc
    refine ⟨fun hmem => ?_, fun hmem => (hs.fresh u c (hn.trans hc)).2 (hburied u c hmem)⟩
    rcases howned u c hmem with ⟨w, hw⟩ | ⟨-, hlt⟩
    · exact (hs.fresh w c (hn.trans hc)).1 hw
    · exact absurd hlt (not_lt.mpr hc)

theorem Sound.set (hs : s.Sound p) {t : ℕ} {k : List (ThreadFrame L)} (ht : t < s.nextThread)
    (hk : StackOk p k) (howned : ∀ c ∈ ownedBy k, ∃ u, c ∈ ownedBy (s.stack u))
    (hburied : ∀ c ∈ buriedBy k, c ∈ buriedBy (s.stack t)) : (s.set t k).Sound p :=
  hs.change ht le_rfl hk (fun c hc => .inl (howned c hc)) hburied

theorem Sound.start (hs : s.Sound p) {k : List (ThreadFrame L)} (hk : StackOk p k)
    (howned : ∀ c ∈ ownedBy k, ∃ u, c ∈ ownedBy (s.stack u)) (hburied : buriedBy k = []) :
    Sound p { s.set s.nextThread k with nextThread := s.nextThread + 1 } := by
  have hmore : Sound p { s with nextThread := s.nextThread + 1 } :=
    ⟨hs.ok, fun t ht => hs.idle t ((Nat.le_succ _).trans ht), hs.dying, hs.fresh⟩
  refine hmore.set (Nat.lt_succ_self _) hk howned (fun c hc => ?_)
  rw [hburied] at hc
  cases hc

/-- **A destructor is entered**, of an object that nobody has a pointer to. -/
theorem Sound.bury (hp : p.Ordered) (hs : s.Sound p) {t c : ℕ} (ht : t < s.nextThread)
    (hgone : ∀ u, c ∉ ownedBy (s.stack u)) (hnone : ∀ u, c ∉ buriedBy (s.stack u))
    (hold : c < s.nextObject) (hceiling : ∀ m ∈ heldBy (s.stack t), p.rank m < p.ceiling) :
    (s.set t (.run (p.destructor c) :: .bury c :: s.stack t)).Sound p := by
  have howner : ∀ m ∈ heldBy (s.stack t), p.owner m ≠ some c := by
    intro m hm hc
    rcases (hs.ok t).owner hm hc with h | h
    · exact hgone t h
    · exact hnone t h
  have hstack : ∀ u, ownedBy ((s.set t (.run (p.destructor c) :: .bury c :: s.stack t)).stack u)
      = ownedBy (s.stack u) := by
    intro u
    by_cases hu : u = t
    · subst hu
      simp [Threads.set, ownedBy]
    · simp [Threads.set, Function.update_of_ne hu]
  have hburied : ∀ u d, d ∈ buriedBy ((s.set t
      (.run (p.destructor c) :: .bury c :: s.stack t)).stack u) ↔ (u = t ∧ d = c)
        ∨ d ∈ buriedBy (s.stack u) := by
    intro u d
    by_cases hu : u = t
    · subst hu
      simp [Threads.set, buriedBy]
    · simp [Threads.set, hu]
  constructor
  · intro u
    by_cases hu : u = t
    · subst hu
      have hnext : StackOk p (.run (p.destructor c) :: .bury c :: s.stack u) :=
        ⟨hp.destructor c _ _ _ _ hceiling howner, hs.ok u⟩
      simpa [Threads.set] using hnext
    · simpa [Threads.set, Function.update_of_ne hu] using hs.ok u
  · intro u hu
    have hne : u ≠ t := (ht.trans_le hu).ne'
    simpa [Threads.set, Function.update_of_ne hne] using hs.idle u hu
  · intro u d hd
    simp only [hstack, hburied] at hd ⊢
    rcases hd with ⟨rfl, rfl⟩ | hd
    · refine ⟨hgone, ?_⟩
      rintro v (⟨rfl, -⟩ | hv)
      · rfl
      · exact absurd hv (hnone v)
    · obtain ⟨hlost, honly⟩ := hs.dying u d hd
      refine ⟨hlost, ?_⟩
      rintro v (⟨rfl, rfl⟩ | hv)
      · exact absurd hd (hnone u)
      · exact honly v hv
  · intro u d hd
    simp only [hstack, hburied]
    refine ⟨(hs.fresh u d hd).1, ?_⟩
    rintro (⟨-, rfl⟩ | hmem)
    · exact absurd hold (not_lt.mpr hd)
    · exact (hs.fresh u d hd).2 hmem

/-- An object that is alive has a pointer to it. -/
theorem isAlive_iff (hs : s.Sound p) {c : ℕ} :
    s.isAlive c = true ↔ ∃ t, c ∈ ownedBy (s.stack t) := by
  simp only [isAlive, List.any_eq_true, List.mem_range, decide_eq_true_eq]
  constructor
  · rintro ⟨t, -, ht⟩
    exact ⟨t, ht⟩
  · rintro ⟨t, ht⟩
    refine ⟨t, hs.lt (fun hnil => ?_), ht⟩
    rw [hnil] at ht
    cases ht

/-- **A pointer goes.** If it was the last, the destructor follows. -/
theorem Sound.drop (hp : p.Ordered) (hs : s.Sound p) {t c : ℕ} {objects : List ℕ}
    {k : List (ThreadFrame L)} (hstack : s.stack t = .owns (c :: objects) :: k) :
    (s.set t (.owns objects :: k)).Sound p
      ∧ ((s.set t (.owns objects :: k)).isAlive c = false →
        (s.set t (.run (p.destructor c) :: .bury c :: .owns objects :: k)).Sound p) := by
  have hok : StackOk p (.owns (c :: objects) :: k) := hstack ▸ hs.ok t
  have ht : t < s.nextThread := hs.lt (by simp [hstack])
  have hhere : c ∈ ownedBy (s.stack t) := by
    rw [hstack]
    exact List.mem_cons_self
  have hdropped : (s.set t (.owns objects :: k)).Sound p := by
    refine hs.set ht hok (fun d hd => ⟨t, ?_⟩) (fun d hd => ?_)
    · rw [hstack]
      exact List.mem_cons_of_mem _ hd
    · rw [hstack]
      exact hd
  refine ⟨hdropped, fun hgone => ?_⟩
  have hself : (s.set t (.owns objects :: k)).stack t = .owns objects :: k :=
    Function.update_self _ _ _
  have hagain : s.set t (.run (p.destructor c) :: .bury c :: .owns objects :: k)
      = (s.set t (.owns objects :: k)).set t
        (.run (p.destructor c) :: .bury c :: (s.set t (.owns objects :: k)).stack t) := by
    simp [Threads.set]
  rw [hagain]
  refine hdropped.bury hp ht (fun u hu => ?_) (fun u hu => ?_) ?_ (by rw [hself]; exact hok.1)
  · rw [(isAlive_iff hdropped).mpr ⟨u, hu⟩] at hgone
    cases hgone
  · have hburied : c ∈ buriedBy (s.stack u) := by
      by_cases hut : u = t
      · subst hut
        rw [hself] at hu
        rw [hstack]
        exact hu
      · simpa [Threads.set, Function.update_of_ne hut] using hu
    exact (hs.dying u c hburied).1 t hhere
  · by_contra hnew
    exact (hs.fresh t c (not_lt.mp hnew)).1 hhere

/-- The thread asks for the lock. -/
def Asks (s : Threads L) (t : ℕ) (l : L) : Prop := ∃ body k, s.stack t = .run (.guard l body) :: k

/-- **Who holds or asks for a lock of an object** has a pointer to it, or is in
its destructor. -/
theorem Sound.entitled (hs : s.Sound p) {t c : ℕ} {l : L} (howner : p.owner l = some c)
    (h : l ∈ heldBy (s.stack t) ∨ s.Asks t l) :
    c ∈ ownedBy (s.stack t) ∨ c ∈ buriedBy (s.stack t) := by
  rcases h with hheld | ⟨body, k, hstack⟩
  · exact (hs.ok t).owner hheld howner
  · have hok := hs.ok t
    rw [hstack] at hok ⊢
    exact hok.1.1 c howner

/-! ## Objects that are gone -/

/-- **There was such an object, and nobody has a pointer to it.** -/
structure Gone (s : Threads L) (c : ℕ) : Prop where
  old : c < s.nextObject
  lost : ∀ t, c ∉ ownedBy (s.stack t)

theorem gone_iff (hs : s.Sound p) {c : ℕ} :
    s.Gone c ↔ c < s.nextObject ∧ s.isAlive c = false := by
  constructor
  · rintro ⟨hold, hlost⟩
    refine ⟨hold, Bool.eq_false_iff.mpr (fun halive => ?_)⟩
    obtain ⟨t, ht⟩ := (isAlive_iff hs).mp halive
    exact hlost t ht
  · rintro ⟨hold, halive⟩
    refine ⟨hold, fun t ht => ?_⟩
    rw [(isAlive_iff hs).mpr ⟨t, ht⟩] at halive
    cases halive

/-- **It is still gone**, and no thread has entered its destructor since. -/
structure StaysGone (s s' : Threads L) (c : ℕ) : Prop where
  gone : s'.Gone c
  buried : ∀ t, (buriedBy (s'.stack t)).count c ≤ (buriedBy (s.stack t)).count c

theorem StaysGone.trans {s'' : Threads L} {c : ℕ} (h : StaysGone s s' c) (h' : StaysGone s' s'' c) :
    StaysGone s s'' c := ⟨h'.gone, fun t => (h'.buried t).trans (h.buried t)⟩

/-- A thread changes, and has no pointer to the object. -/
theorem Gone.set {c t n m : ℕ} {k : List (ThreadFrame L)} (hgone : s.Gone c)
    (hn : s.nextObject ≤ n) (howned : c ∉ ownedBy k)
    (hburied : (buriedBy k).count c ≤ (buriedBy (s.stack t)).count c) :
    StaysGone s ⟨(s.set t k).stack, m, n⟩ c := by
  refine ⟨⟨hgone.old.trans_le hn, fun u => ?_⟩, fun u => ?_⟩
  · by_cases hu : u = t
    · subst hu
      simpa [Threads.set] using howned
    · simpa [Threads.set, hu] using hgone.lost u
  · by_cases hu : u = t
    · subst hu
      simpa [Threads.set] using hburied
    · simp [Threads.set, hu]

section

variable [DecidableEq L]

theorem isFree_iff (hs : s.Sound p) {l : L} :
    s.isFree l = true ↔ ∀ t, l ∉ heldBy (s.stack t) := by
  simp only [isFree, List.all_eq_true, List.mem_range, decide_eq_true_eq]
  constructor
  · intro h t ht
    refine h t (hs.lt (fun hnil => ?_)) ht
    rw [hnil] at ht
    cases ht
  · exact fun h t _ => h t

/-- **What a step of a thread can do.** -/
inductive Moves (p : LockProgram L E) (s : Threads L) (t : ℕ) : Threads L → Prop
  /-- Its stack changes, and pointers in it lead to objects that are there. -/
  | shift {k : List (ThreadFrame L)} : StackOk p k →
      (∀ c ∈ ownedBy k, ∃ u, c ∈ ownedBy (s.stack u)) →
      (buriedBy k).Sublist (buriedBy (s.stack t)) → Moves p s t (s.set t k)
  /-- It has a new object. -/
  | create {k : List (ThreadFrame L)} : StackOk p k →
      (∀ c ∈ ownedBy k, c = s.nextObject ∨ c ∈ ownedBy (s.stack t)) →
      buriedBy k = buriedBy (s.stack t) →
      Moves p s t { s.set t k with nextObject := s.nextObject + 1 }
  /-- It starts a thread. -/
  | spawn {k k' : List (ThreadFrame L)} : StackOk p k → StackOk p k' →
      ownedBy k = ownedBy (s.stack t) → buriedBy k = buriedBy (s.stack t) →
      (∀ c ∈ ownedBy k', c ∈ ownedBy (s.stack t)) → buriedBy k' = [] →
      Moves p s t { (s.set t k).set s.nextThread k' with nextThread := s.nextThread + 1 }
  /-- It gives up the last pointer to an object. -/
  | bury {c : ℕ} {objects : List ℕ} {k : List (ThreadFrame L)} :
      s.stack t = .owns (c :: objects) :: k →
      (s.set t (.owns objects :: k)).isAlive c = false →
      Moves p s t (s.set t (.run (p.destructor c) :: .bury c :: .owns objects :: k))

/-- **A step is one of these.** The cases are those of the topmost frame. -/
theorem Sound.moves (hs : s.Sound p) {t choice : ℕ} (h : s.go p t choice = some s') :
    Moves p s t s' := by
  have hok := hs.ok t
  cases hstack : s.stack t with
  | nil =>
    simp only [Threads.go, hstack] at h
    cases h
  | cons frame k =>
    rw [hstack] at hok
    have hshift : ∀ {k' : List (ThreadFrame L)}, StackOk p k' →
        (∀ c ∈ ownedBy k', c ∈ ownedBy (frame :: k)) →
        (buriedBy k').Sublist (buriedBy (frame :: k)) → Moves p s t (s.set t k') := by
      intro k' hk' howned hburied
      refine .shift hk' (fun c hc => ⟨t, ?_⟩) (hstack.symm ▸ hburied)
      rw [hstack]
      exact howned c hc
    cases frame with
    | unlock l =>
      simp only [Threads.go, hstack, Option.some.injEq] at h
      subst h
      exact hshift hok.2 (fun _ hc => hc) (.refl _)
    | bury d =>
      simp only [Threads.go, hstack, Option.some.injEq] at h
      subst h
      exact hshift hok (fun _ hc => hc) (List.sublist_cons_self d _)
    | owns objects =>
      cases objects with
      | nil =>
        simp only [Threads.go, hstack, Option.some.injEq] at h
        subst h
        exact hshift hok.2 (fun _ hc => hc) (.refl _)
      | cons c objects =>
        simp only [Threads.go, hstack] at h
        split at h
        · cases h
          exact hshift hok (fun _ hd => List.mem_cons_of_mem _ hd) (.refl _)
        · rename_i hgone
          cases h
          exact .bury hstack (Bool.eq_false_iff.mpr hgone)
    | run script =>
      obtain ⟨hwithin, hk⟩ := hok
      cases script with
      | skip =>
        simp only [Threads.go, hstack, Option.some.injEq] at h
        subst h
        exact hshift hk (fun _ hc => hc) (.refl _)
      | seq a b =>
        simp only [Threads.go, hstack, Option.some.injEq] at h
        subst h
        exact hshift ⟨hwithin.1, hwithin.2, hk⟩ (fun _ hc => hc) (.refl _)
      | either a b =>
        simp only [Threads.go, hstack, Option.some.injEq] at h
        subst h
        refine hshift ⟨?_, hk⟩ (fun _ hc => hc) (.refl _)
        split
        · exact hwithin.1
        · exact hwithin.2
      | many a =>
        simp only [Threads.go, hstack, Option.some.injEq] at h
        subst h
        split
        · exact hshift hk (fun _ hc => hc) (.refl _)
        · exact hshift ⟨hwithin, hwithin, hk⟩ (fun _ hc => hc) (.refl _)
      | guard l body =>
        simp only [Threads.go, hstack] at h
        obtain ⟨-, h⟩ := Option.ite_none_right_eq_some.mp h
        cases h
        exact hshift ⟨hwithin.2.2, hwithin.1, hk⟩ (fun _ hc => hc) (.refl _)
      | scope body =>
        simp only [Threads.go, hstack, Option.some.injEq] at h
        subst h
        exact hshift ⟨hwithin.2, hwithin.1, hk⟩ (fun _ hc => hc) (.refl _)
      | lockWeak c body =>
        simp only [Threads.go, hstack] at h
        split at h
        · rename_i halive
          obtain ⟨k', hk', rfl⟩ := Option.map_eq_some_iff.mp h
          have hfilled := filled_of_fill hk'
          refine .shift ⟨?_, hk.fill hk'⟩ (fun d hd => ?_) ?_
          · rw [hfilled.held, hfilled.buried, hfilled.slot]
            exact hwithin.2.mono (fun d hd => (hfilled.owned d).mpr (List.mem_cons.mp hd))
          · rcases (hfilled.owned d).mp hd with rfl | hd
            · exact (isAlive_iff hs).mp halive
            · exact ⟨t, by rw [hstack]; exact hd⟩
          · rw [hstack]
            exact hfilled.buried ▸ .refl _
        · cases h
          exact hshift hk (fun _ hc => hc) (.refl _)
      | any body =>
        simp only [Threads.go, hstack, Option.some.injEq] at h
        subst h
        exact hshift ⟨hwithin choice, hk⟩ (fun _ hc => hc) (.refl _)
      | create body =>
        simp only [Threads.go, hstack] at h
        obtain ⟨k', hk', rfl⟩ := Option.map_eq_some_iff.mp h
        have hfilled := filled_of_fill hk'
        refine .create ⟨?_, hk.fill hk'⟩ (fun d hd => ?_) ?_
        · rw [hfilled.held, hfilled.buried, hfilled.slot]
          exact (hwithin.2 _).mono (fun d hd => (hfilled.owned d).mpr (List.mem_cons.mp hd))
        · rw [hstack]
          exact (hfilled.owned d).mp hd
        · rw [hstack]
          exact hfilled.buried
      | spawn c body =>
        simp only [Threads.go, hstack, Option.some.injEq] at h
        subst h
        refine .spawn hk ⟨hwithin.2, fun m hm => (by cases hm), trivial⟩ ?_ ?_ (fun d hd => ?_) rfl
        · rw [hstack]
          rfl
        · rw [hstack]
          rfl
        · obtain rfl : d = c := by simpa [ownedBy] using hd
          rw [hstack]
          exact hwithin.1

theorem Sound.go (hp : p.Ordered) (hs : s.Sound p) {t choice : ℕ}
    (h : s.go p t choice = some s') : s'.Sound p := by
  have ht : t < s.nextThread := by
    refine hs.lt (fun hnil => ?_)
    simp only [Threads.go, hnil] at h
    cases h
  cases hs.moves h with
  | shift hk howned hburied => exact hs.set ht hk howned (fun c hc => hburied.subset hc)
  | create hk howned hburied =>
    refine hs.change ht (Nat.le_succ _) hk (fun c hc => ?_) (fun c hc => hburied ▸ hc)
    rcases howned c hc with rfl | hc
    · exact .inr ⟨le_rfl, Nat.lt_succ_self _⟩
    · exact .inl ⟨t, hc⟩
  | @spawn k k' hk hk' howned hburied hgiven hnone =>
    have hnext : (s.set t k).Sound p :=
      hs.set ht hk (fun c hc => ⟨t, howned ▸ hc⟩) (fun c hc => hburied ▸ hc)
    refine hnext.start hk' (fun d hd => ⟨t, ?_⟩) hnone
    simpa [Threads.set, howned] using hgiven d hd
  | bury hstack hgone => exact (hs.drop hp hstack).2 hgone

theorem Sound.step (hp : p.Ordered) (hs : s.Sound p) {e : ThreadEvent E}
    (h : s.step p e = some s') : s'.Sound p := by
  cases e with
  | start e =>
    cases h
    exact hs.start ⟨hp.entry e, trivial⟩ (fun c hc => (by cases hc)) rfl
  | go t choice => exact hs.go hp h

theorem sound_of_runs (hp : p.Ordered) {events : List (ThreadEvent E)}
    (h : runs (Threads.step p) initial events = some s) : s.Sound p := by
  refine runs_invariant (I := Sound p) (fun _ _ _ hs hstep => hs.step hp hstep) h ?_
  exact ⟨fun _ => trivial, fun _ _ => rfl, fun _ _ h => (by cases h),
    fun _ _ _ => ⟨fun h => (by cases h), fun h => (by cases h)⟩⟩

/-- **A step does not bring an object back.** Weak pointers to it lead
nowhere, and it is in no variable. -/
theorem Sound.gone_go (hs : s.Sound p) {t choice c : ℕ} (hgone : s.Gone c)
    (h : s.go p t choice = some s') : StaysGone s s' c := by
  cases hs.moves h with
  | shift hk howned hburied =>
    refine hgone.set le_rfl (fun hc => ?_) (hburied.count_le c)
    obtain ⟨u, hu⟩ := howned c hc
    exact hgone.lost u hu
  | create hk howned hburied =>
    refine hgone.set (Nat.le_succ _) (fun hc => ?_) (le_of_eq (congrArg _ hburied))
    rcases howned c hc with rfl | hc
    · exact absurd hgone.old (lt_irrefl _)
    · exact hgone.lost t hc
  | @spawn k k' hk hk' howned hburied hgiven hnone =>
    have hdone : StaysGone s (s.set t k) c :=
      hgone.set le_rfl (howned ▸ hgone.lost t) (le_of_eq (congrArg _ hburied))
    refine hdone.trans (hdone.gone.set le_rfl (fun hc => hgone.lost t (hgiven c hc)) ?_)
    rw [hnone]
    exact Nat.zero_le _
  | @bury d objects k hstack hlast =>
    have hlost : c ∉ ownedBy (.owns (d :: objects) :: k) := hstack ▸ hgone.lost t
    refine hgone.set le_rfl (fun hc => hlost (List.mem_cons_of_mem d hc)) ?_
    have hne : d ≠ c := fun heq => hlost (heq ▸ List.mem_cons_self)
    simp [hstack, buriedBy, hne]

/-- **One step does not bring it back.** -/
theorem Sound.gone_step (hs : s.Sound p) {e : ThreadEvent E} {c : ℕ} (hgone : s.Gone c)
    (h : s.step p e = some s') : StaysGone s s' c := by
  cases e with
  | start e =>
    cases h
    exact hgone.set le_rfl (fun hc => (by cases hc)) (Nat.zero_le _)
  | go t choice => exact hs.gone_go hgone h

theorem Sound.gone_runs (hp : p.Ordered) (hs : s.Sound p) {events : List (ThreadEvent E)} {c : ℕ}
    (hgone : s.Gone c) (h : runs (Threads.step p) s events = some s') : StaysGone s s' c := by
  have hstep : ∀ (s₁ : Threads L) (e : ThreadEvent E) (s₂ : Threads L),
      s₁.Sound p ∧ StaysGone s s₁ c → Threads.step p s₁ e = some s₂ →
        s₂.Sound p ∧ StaysGone s s₂ c :=
    fun s₁ e s₂ hs₁ he => ⟨hs₁.1.step hp he, hs₁.2.trans (hs₁.1.gone_step hs₁.2.gone he)⟩
  exact (runs_invariant (I := fun s' => s'.Sound p ∧ StaysGone s s' c) hstep h
    ⟨hs, hgone, fun _ => le_rfl⟩).2

/-! ## No deadlock -/

/-- The thread waits for the lock. -/
def Waits (s : Threads L) (t : ℕ) (l : L) : Prop := s.Asks t l ∧ s.isFree l = false

/-- **A thread that waits holds only locks that rank lower.** The lock of an
object that it destroys would be free. -/
theorem Sound.lower (hs : s.Sound p) {t : ℕ} {l : L} (h : s.Waits t l) {m : L}
    (hm : m ∈ heldBy (s.stack t)) : p.rank m < p.rank l := by
  obtain ⟨⟨body, k, hstack⟩, hbusy⟩ := h
  have hok := hs.ok t
  rw [hstack] at hok hm
  obtain ⟨⟨-, horder, -⟩, -⟩ := hok
  rcases horder with hlower | ⟨c, hc, howner, hnot⟩
  · exact hlower m hm
  · have hburied : c ∈ buriedBy (s.stack t) := by
      rw [hstack]
      exact hc
    obtain ⟨hgone, honly⟩ := hs.dying t c hburied
    have hfree : s.isFree l = true := by
      refine (isFree_iff hs).mpr (fun u hu => ?_)
      rcases (hs.ok u).owner hu howner with h | h
      · exact hgone u h
      · obtain rfl := honly u h
        rw [hstack] at hu
        exact hnot hu
    rw [hfree] at hbusy
    cases hbusy

/-- A thread that is not done and does not wait can go on. -/
theorem Sound.goes (hs : s.Sound p) {t : ℕ} (hbusy : s.stack t ≠ [])
    (hwaits : ∀ l, ¬ s.Waits t l) : ∃ choice, (s.go p t choice).isSome = true := by
  have hok := hs.ok t
  refine ⟨0, ?_⟩
  cases hstack : s.stack t with
  | nil => exact absurd hstack hbusy
  | cons frame k =>
    rw [hstack] at hok
    cases frame with
    | unlock l => simp [Threads.go, hstack]
    | bury d => simp [Threads.go, hstack]
    | owns objects =>
      cases objects with
      | nil => simp [Threads.go, hstack]
      | cons c objects =>
        simp only [Threads.go, hstack]
        split <;> rfl
    | run script =>
      cases script with
      | guard l body =>
        have hfree : s.isFree l = true := by
          by_contra hnot
          exact hwaits l ⟨⟨body, k, hstack⟩, Bool.eq_false_iff.mpr hnot⟩
        simp [Threads.go, hstack, hfree]
      | lockWeak c body =>
        obtain ⟨k', hk'⟩ := exists_fill (c := c) hok.1.1
        simp only [Threads.go, hstack, hk']
        split <;> rfl
      | create body =>
        obtain ⟨k', hk'⟩ := exists_fill (c := s.nextObject) hok.1.1
        simp [Threads.go, hstack, hk']
      | _ => simp [Threads.go, hstack]

/-- **No set of threads is deadlocked.** Among threads that are not done, one
can go on, or waits for a lock that none of them holds. -/
theorem Sound.progress (hs : s.Sound p) {D : Finset ℕ} (hD : D.Nonempty)
    (hbusy : ∀ t ∈ D, s.stack t ≠ []) :
    ∃ t ∈ D, (∃ choice, (s.go p t choice).isSome = true)
      ∨ ∃ l, s.Waits t l ∧ ∀ u ∈ D, l ∉ heldBy (s.stack u) := by
  have hordered : ∀ t l, s.Waits t l → ∀ m, m ∈ heldBy (s.stack t) → p.rank m < p.rank l :=
    fun t l h m hm => hs.lower h hm
  obtain ⟨t, ht, hnone⟩ := exists_not_waiting hordered hD
  refine ⟨t, ht, ?_⟩
  by_cases hwaits : ∃ l, s.Waits t l
  · obtain ⟨l, hl⟩ := hwaits
    exact .inr ⟨l, hl, hnone l hl⟩
  · exact .inl (hs.goes (hbusy t ht) (fun l hl => hwaits ⟨l, hl⟩))

end

end Threads

end Gasoline
