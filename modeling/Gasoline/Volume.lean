import Gasoline.Bytes

/-!
# Files that survive

A directory of files, as the processes that use it see it and as a power
loss may leave it. A name stands for a file, and a file is a number with
contents. What was done is seen at once; what is durable is what was synced:
until its directory is synced a name may come back as any file it stood for
since the last time, or as none, and until a file is synced its contents may
come back as anything.

Names come back independently of each other, and a rename is one change of
a name like any other. Nothing is assumed about the order in which changes
reach the disk.
-/

namespace Gasoline

/-- **A directory and its files.** -/
structure Volume (N : Type) where
  /-- The file a name stands for. -/
  entry : N → Option ℕ
  /-- What a name may stand for after a power loss. -/
  durable : N → List (Option ℕ)
  content : ℕ → Bytes
  /-- Whether a file's contents are on the disk. -/
  synced : ℕ → Bool
  /-- The number of the next file. -/
  next : ℕ
  current : ∀ n, entry n ∈ durable n
  fresh : ∀ n k, some k ∈ durable n → k < next

namespace Volume

variable {N : Type}

/-- The contents under a name. -/
def view (v : Volume N) (n : N) : Option Bytes := (v.entry n).map v.content

/-- A file that stands under a name is older than the next one. -/
theorem entry_lt (v : Volume N) {n : N} {k : ℕ} (h : v.entry n = some k) : k < v.next :=
  v.fresh n k (h ▸ v.current n)

section Operations

variable [DecidableEq N]

/-- A name now stands for `file`, or for none. -/
def setEntry (v : Volume N) (n : N) (file : Option ℕ) (hfile : ∀ k, file = some k → k < v.next) :
    Volume N where
  entry := Function.update v.entry n file
  durable := Function.update v.durable n (file :: v.durable n)
  content := v.content
  synced := v.synced
  next := v.next
  current := fun m => by
    by_cases h : m = n
    · subst h
      simp
    · simpa [h] using v.current m
  fresh := fun m k hk => by
    by_cases h : m = n
    · subst h
      rw [Function.update_self, List.mem_cons] at hk
      exact hk.elim (fun e => hfile k e.symm) (v.fresh m k)
    · rw [Function.update_of_ne h] at hk
      exact v.fresh m k hk

/-- A new, empty file that stands under no name yet. -/
def allocate (v : Volume N) : Volume N where
  entry := v.entry
  durable := v.durable
  content := Function.update v.content v.next []
  synced := Function.update v.synced v.next false
  next := v.next + 1
  current := v.current
  fresh := fun n k hk => (v.fresh n k hk).trans (Nat.lt_succ_self _)

/-- A new, empty file. -/
def create (v : Volume N) (n : N) : Volume N :=
  v.allocate.setEntry n (some v.next) (fun _ hk => Option.some.inj hk ▸ Nat.lt_succ_self v.next)

/-- Give the file of `source` the name `target`. -/
def rename (v : Volume N) (source target : N) : Volume N :=
  (v.setEntry target (v.entry source) (fun _ hk => v.entry_lt hk)).setEntry source none
    (fun _ hk => by cases hk)

end Operations

/-- Append to a file. -/
def append (v : Volume N) (file : ℕ) (bytes : Bytes) : Volume N where
  entry := v.entry
  durable := v.durable
  content := Function.update v.content file (v.content file ++ bytes)
  synced := Function.update v.synced file false
  next := v.next
  current := v.current
  fresh := v.fresh

/-- `fsync` of a file. -/
def syncFile (v : Volume N) (file : ℕ) : Volume N :=
  { v with synced := Function.update v.synced file true }

/-- `fsync` of the directory. -/
def syncDirectory (v : Volume N) : Volume N where
  entry := v.entry
  durable := fun n => [v.entry n]
  content := v.content
  synced := v.synced
  next := v.next
  current := fun _ => List.mem_singleton_self _
  fresh := fun n k hk => v.fresh n k (List.mem_singleton.mp hk ▸ v.current n)

/-- **A power loss**: each name stands for something it may stand for, and
the contents that were not synced are lost. -/
def reboot (v : Volume N) (choice : N → Option ℕ) (hchoice : ∀ n, choice n ∈ v.durable n)
    (lost : ℕ → Bytes) : Volume N where
  entry := choice
  durable := fun n => [choice n]
  content := fun k => if v.synced k then v.content k else lost k
  synced := fun _ => true
  next := v.next
  current := fun _ => List.mem_singleton_self _
  fresh := fun n k hk => v.fresh n k (List.mem_singleton.mp hk ▸ hchoice n)

/-- A directory whose files are all on the disk. -/
def ofFiles (file : N → ℕ) (contents : N → Option Bytes) (bound : ℕ)
    (hbound : ∀ n, file n < bound) (content : ℕ → Bytes) : Volume N where
  entry := fun n => (contents n).map (fun _ => file n)
  durable := fun n => [(contents n).map (fun _ => file n)]
  content := content
  synced := fun _ => true
  next := bound
  current := fun _ => List.mem_singleton_self _
  fresh := fun n k hk => by
    obtain ⟨_, _, rfl⟩ := Option.map_eq_some_iff.mp (List.mem_singleton.mp hk).symm
    exact hbound n

/-! ## Writing a file and giving it its name -/

theorem append_append (v : Volume N) (file : ℕ) (a b : Bytes) :
    (v.append file a).append file b = v.append file (a ++ b) := by
  simp [append]

section Written

variable [DecidableEq N]

/-- Nothing written to a new file is the new file. -/
theorem create_append_nil (v : Volume N) (n : N) : (v.create n).append v.next [] = v.create n := by
  simp [append, create, setEntry, allocate]

/-- **A file written, synced and renamed.** -/
def written (v : Volume N) (temporary target : N) (bytes : Bytes) : Volume N :=
  (((v.create temporary).append v.next bytes).syncFile v.next).rename temporary target

variable {v : Volume N} {temporary target n : N} {bytes : Bytes}

theorem written_entry_target (h : target ≠ temporary) :
    (v.written temporary target bytes).entry target = some v.next := by
  simp [written, rename, setEntry, syncFile, append, create, allocate, h]

theorem written_entry_of_ne (h₁ : n ≠ temporary) (h₂ : n ≠ target) :
    (v.written temporary target bytes).entry n = v.entry n := by
  simp [written, rename, setEntry, syncFile, append, create, allocate, h₁, h₂]

/-- What the name may stand for after a power loss. -/
theorem written_durable_target (h : target ≠ temporary) :
    (v.written temporary target bytes).durable target = some v.next :: v.durable target := by
  simp [written, rename, setEntry, syncFile, append, create, allocate, h]

/-- Every name but the two comes back as before. -/
theorem written_durable_of_ne (h₁ : n ≠ temporary) (h₂ : n ≠ target) :
    (v.written temporary target bytes).durable n = v.durable n := by
  simp [written, rename, setEntry, syncFile, append, create, allocate, h₁, h₂]

theorem written_content_next : (v.written temporary target bytes).content v.next = bytes := by
  simp [written, rename, setEntry, syncFile, append, create, allocate]

/-- Every other file has the contents it had. -/
theorem written_content_of_ne {k : ℕ} (h : k ≠ v.next) :
    (v.written temporary target bytes).content k = v.content k := by
  simp [written, rename, setEntry, syncFile, append, create, allocate, h]

theorem written_synced_next : (v.written temporary target bytes).synced v.next = true := by
  simp [written, rename, setEntry, syncFile, append, create, allocate]

theorem written_synced_of_ne {k : ℕ} (h : k ≠ v.next) :
    (v.written temporary target bytes).synced k = v.synced k := by
  simp [written, rename, setEntry, syncFile, append, create, allocate, h]

end Written

/-- **What a change of others may be** to a process that has the files to
itself: more of what it did is durable. -/
structure Settles (v w : Volume N) : Prop where
  entry : w.entry = v.entry
  content : w.content = v.content
  synced : w.synced = v.synced
  next : w.next = v.next
  durable : ∀ n x, x ∈ w.durable n → x ∈ v.durable n

namespace Settles

theorem refl (v : Volume N) : v.Settles v := ⟨rfl, rfl, rfl, rfl, fun _ _ h => h⟩

theorem trans {u v w : Volume N} (h₁ : u.Settles v) (h₂ : v.Settles w) : u.Settles w where
  entry := h₂.entry.trans h₁.entry
  content := h₂.content.trans h₁.content
  synced := h₂.synced.trans h₁.synced
  next := h₂.next.trans h₁.next
  durable := fun n x hx => h₁.durable n x (h₂.durable n x hx)

variable [DecidableEq N] {v w : Volume N}

omit [DecidableEq N] in
theorem allocate (h : v.Settles w) : v.allocate.Settles w.allocate where
  entry := h.entry
  content := by
    show Function.update w.content w.next [] = Function.update v.content v.next []
    rw [h.content, h.next]
  synced := by
    show Function.update w.synced w.next false = Function.update v.synced v.next false
    rw [h.synced, h.next]
  next := congrArg (· + 1) h.next
  durable := h.durable

theorem setEntry (h : v.Settles w) {n : N} {file : Option ℕ} (hv : ∀ k, file = some k → k < v.next)
    (hw : ∀ k, file = some k → k < w.next) :
    (v.setEntry n file hv).Settles (w.setEntry n file hw) where
  entry := by
    show Function.update w.entry n file = Function.update v.entry n file
    rw [h.entry]
  content := h.content
  synced := h.synced
  next := h.next
  durable := fun m x hx => by
    change x ∈ Function.update w.durable n (file :: w.durable n) m at hx
    show x ∈ Function.update v.durable n (file :: v.durable n) m
    by_cases hm : m = n
    · subst hm
      rw [Function.update_self, List.mem_cons] at hx ⊢
      exact hx.imp_right (h.durable m x)
    · rw [Function.update_of_ne hm] at hx ⊢
      exact h.durable m x hx

theorem create (h : v.Settles w) (n : N) : (v.create n).Settles (w.create n) := by
  unfold Volume.create
  have hallocate := h.allocate
  obtain ⟨hentry, hcontent, hsynced, hnext, hdurable⟩ := h
  simp only [hnext] at *
  exact hallocate.setEntry _ _

theorem rename (h : v.Settles w) (source target : N) :
    (v.rename source target).Settles (w.rename source target) := by
  unfold Volume.rename
  refine setEntry ?_ _ _
  have hentry := h.entry
  simp only [hentry]
  exact h.setEntry _ _

omit [DecidableEq N] in
theorem append (h : v.Settles w) (file : ℕ) (bytes : Bytes) :
    (v.append file bytes).Settles (w.append file bytes) where
  entry := h.entry
  content := by
    show Function.update w.content file _ = Function.update v.content file _
    rw [h.content]
  synced := by
    show Function.update w.synced file false = Function.update v.synced file false
    rw [h.synced]
  next := h.next
  durable := h.durable

omit [DecidableEq N] in
theorem syncFile (h : v.Settles w) (file : ℕ) : (v.syncFile file).Settles (w.syncFile file) where
  entry := h.entry
  content := h.content
  synced := by
    show Function.update w.synced file true = Function.update v.synced file true
    rw [h.synced]
  next := h.next
  durable := h.durable

omit [DecidableEq N] in
theorem syncDirectory (h : v.Settles w) : v.syncDirectory.Settles w.syncDirectory where
  entry := h.entry
  content := h.content
  synced := h.synced
  next := h.next
  durable := fun n x hx => by
    change x ∈ [w.entry n] at hx
    show x ∈ [v.entry n]
    rwa [h.entry] at hx

end Settles

theorem settles_syncDirectory (v : Volume N) : v.Settles v.syncDirectory where
  entry := rfl
  content := rfl
  synced := rfl
  next := rfl
  durable := fun n _ hx => List.mem_singleton.mp hx ▸ v.current n

end Volume

end Gasoline
