import Gasoline.TrustAnchors
import Gasoline.TrustMigration
import Gasoline.TrustAttempts

/-!
# The lifetime of a trust store

Any number of processes open one trust store, use it and close it, any number
of times and in any interleaving. A constructor may fail at every call it
makes, an operation at every statement; a process may end at every point,
which releases its lock and takes back its transaction; and the power may go
at every point, which ends all processes and leaves of the names what was
synced (`StoreProcesses.step`).

Through all of it the records are what the operations that returned have made
of those there were at first (`StoreProcesses.records_survive`). What the
constructor is not to accept stays as it was, and no instance is ever open on
it (`StoreProcesses.refused_kept`).
-/

namespace Gasoline

/-- **An instance of `TrustStore`** in a process: none, one whose constructor
is under way, or an open one. -/
inductive StoreInstance
  | closed
  | opening (program : OpeningProg Unit)
  | opened

/-- Whether an instance is open. -/
def StoreInstance.isOpened : StoreInstance → Bool
  | .opened => true
  | _ => false

/-- An instance that is not open, and will not be. -/
def StoreInstance.Refused (x : StoreInstance) : Prop :=
  x ≠ .opened ∧ ∀ p, x = .opening p → p.Fails

/-- **The processes and their state directory.** -/
structure StoreProcesses where
  storage : TrustStorage
  instances : ℕ → StoreInstance

/-- What may happen next. -/
inductive LifetimeEvent
  /-- A process constructs a `TrustStore`. -/
  | start (process above : ℕ)
  /-- A call of the constructor returns. -/
  | reply (process : ℕ) (r : OpeningReply)
  /-- The constructor returns or throws. -/
  | finish (process : ℕ)
  /-- An operation is called; `faults` says which of its steps SQLite
  refuses. -/
  | operate (process : ℕ) (operation : StoreOperation) (faults : List Bool)
  /-- The instance is destroyed. -/
  | close (process : ℕ)
  /-- The process ends, wherever it is. -/
  | crash (process : ℕ)
  /-- SQLite creates or removes a file beside the database. -/
  | sidecar (file : Sidecar) (present : Bool)
  /-- All processes end. A name that is not durable may be lost, and the
  files beside the database come back as they may. -/
  | powerLoss (kept : Bool) (sidecar : Sidecar → Bool)

namespace TrustStorage

/-- The lock is released when its file is closed, and a transaction that has
not been committed is rolled back. -/
def release (s : TrustStorage) (process : ℕ) : TrustStorage :=
  { s with
    holder := if s.holder = some process then none else s.holder
    writer := if s.writer.map Prod.fst = some process then none else s.writer }

/-- **An operation of an open instance**, statement by statement. Where
another connection writes it is refused. -/
def operate (s : TrustStorage) (process : ℕ) (operation : StoreOperation) (faults : List Bool) :
    Option TrustStorage :=
  if s.writer = none then do
    let db ← s.read.database?
    match operation.call.run ⟨db, none, faults⟩ with
    | .ok _ h => return { s with
        database := some (.image (s.read.withDatabase h.committed))
        committed := s.committed ++ [⟨process, operation, true⟩] }
    | .error _ h => return { s with
        database := some (.image (s.read.withDatabase h.committed)) }
  else some s

/-- **What a power loss leaves.** -/
def powerLoss (s : TrustStorage) (kept : Bool) (sidecar : Sidecar → Bool) : TrustStorage :=
  { s with
    database := if s.named || kept then s.database else none
    named := true
    sidecar := if s.ran then sidecar else s.sidecar
    holder := none
    writer := none }

end TrustStorage

namespace StoreProcesses

/-- A process now has this instance. -/
def set (h : StoreProcesses) (storage : TrustStorage) (process : ℕ) (instance_ : StoreInstance) :
    StoreProcesses :=
  ⟨storage, Function.update h.instances process instance_⟩

/-- **One event.** -/
def step (filename : Bytes) (h : StoreProcesses) : LifetimeEvent → Option StoreProcesses
  | .start i above =>
    match h.instances i with
    | .closed => some (h.set h.storage i (.opening (TrustOpening.openStore filename above)))
    | _ => none
  | .reply i r =>
    match h.instances i with
    | .opening (.call c next) =>
      (h.storage.step i c r).map (fun s => h.set s i (.opening (next r)))
    | _ => none
  | .finish i =>
    match h.instances i with
    | .opening (.done ()) => some (h.set (h.storage.release i) i .opened)
    | .opening (.failed _) => some (h.set (h.storage.release i) i .closed)
    | _ => none
  | .operate i operation faults =>
    match h.instances i with
    | .opened => (h.storage.operate i operation faults).map (fun s => h.set s i .opened)
    | _ => none
  | .close i =>
    match h.instances i with
    | .opened => some (h.set h.storage i .closed)
    | _ => none
  | .crash i => some (h.set (h.storage.release i) i .closed)
  | .sidecar file present =>
    if h.storage.ran then
      some ⟨{ h.storage with sidecar := Function.update h.storage.sidecar file present },
        h.instances⟩
    else none
  | .powerLoss kept sidecar => some ⟨h.storage.powerLoss kept sidecar, fun _ => .closed⟩

/-- No process has an instance. -/
def initial (o : StoreOrigin) : StoreProcesses :=
  ⟨⟨o.database, true, o.sidecar, false, none, none, []⟩, fun _ => .closed⟩

/-- **The invariant of the system**: that of the directory, every constructor
meets its specification from where it is, the lock is held by a constructor,
and an instance is open on an established store only. -/
structure Inv (o : StoreOrigin) (h : StoreProcesses) : Prop where
  directory : StoreInvariant o h.storage
  meets : ∀ i p, h.instances i = .opening p →
    (TrustStorage.actor o i).Meets (fun _ => TrustStorage.Opened o i) p h.storage
  holder : ∀ i, (∀ p, h.instances i ≠ .opening p) → h.storage.holder ≠ some i
  opened : ∀ i, h.instances i = .opened → Established o h.storage

section Invariant

open TrustStorage

variable {o : StoreOrigin} {h : StoreProcesses} {s t : TrustStorage} {i : ℕ}

/-- What a constructor guarantees is what the others rely on. -/
theorem rely_of_guarantee {j : ℕ} (hij : j ≠ i) (hguarantee : (actor o i).Guarantee s t) :
    (actor o j).Rely s t := by
  obtain ⟨hkeeps, hheld | ⟨hdatabase, hwriter, hnamed, hholder⟩⟩ := hguarantee
  · have hsome : some i ≠ some j := fun h => hij (Option.some.inj h).symm
    refine ⟨hkeeps, fun hj => ?_, fun _ => ?_⟩
    · rw [hheld.1] at hj
      exact absurd hj hsome
    · rw [hheld.2]
      exact hsome
  · refine ⟨hkeeps, fun hj => ⟨?_, hwriter, .inl hdatabase, hnamed, fun _ => hdatabase⟩,
      fun hj => ?_⟩
    · rcases hholder with hholder | ⟨hnone, -⟩
      · rw [hholder, hj]
      · rw [hnone] at hj
        cases hj
    · rcases hholder with hholder | ⟨-, hholder⟩
      · rwa [hholder]
      · rw [hholder]
        exact fun h => hij (Option.some.inj h).symm

/-- A lock that another process holds is not released, nor is its transaction
rolled back. -/
theorem release_of_holder {j : ℕ} (hij : j ≠ i) (hs : StoreInvariant o s)
    (hj : s.holder = some j) : s.release i = s := by
  have hne : some j ≠ some i := fun h => hij (Option.some.inj h)
  have hwriter : ¬ s.writer.map Prod.fst = some i := by
    intro hw
    obtain ⟨⟨p, w⟩, hpw, rfl⟩ := Option.map_eq_some_iff.mp hw
    have hp := hs.writer p w hpw
    rw [hj] at hp
    exact hne hp
  show { s with
    holder := if s.holder = some i then none else s.holder
    writer := if s.writer.map Prod.fst = some i then none else s.writer } = s
  rw [if_neg (by rw [hj]; exact hne), if_neg hwriter]

theorem keeps_release : Keeps o s (s.release i) := by
  intro hs
  refine keeps_of_database (s := s) rfl id rfl rfl rfl (fun p w hw => ?_) hs
  change (if s.writer.map Prod.fst = some i then none else s.writer) = some (p, w) at hw
  show (if s.holder = some i then none else s.holder) = some p
  split at hw
  · cases hw
  · rename_i hne
    have hp : s.holder = some p := hs.writer p w hw
    rw [hw, Option.map_some] at hne
    rw [hp, if_neg hne]

/-- A process that released the lock does not hold it. -/
theorem holder_release : (s.release i).holder ≠ some i := by
  show (if s.holder = some i then none else s.holder) ≠ some i
  split
  · exact Option.some_ne_none i |>.symm
  · assumption

theorem rely_release {j : ℕ} (hij : j ≠ i) (hs : StoreInvariant o s) :
    (actor o j).Rely s (s.release i) := by
  refine ⟨keeps_release, fun hj => ?_, fun hj => ?_⟩
  · rw [release_of_holder hij hs hj]
    exact ⟨hj, rfl, .refl _, id, fun _ => rfl⟩
  · show (if s.holder = some i then none else s.holder) ≠ some j
    split
    · exact Option.some_ne_none j |>.symm
    · exact hj

/-- **A step of one process keeps the invariant**, if it keeps what the
others rely on. -/
theorem Inv.set {instance_ : StoreInstance} (hinv : Inv o h)
    (hkeeps : Keeps o h.storage s) (hrely : ∀ j ≠ i, (actor o j).Rely h.storage s)
    (hmeets : ∀ q, instance_ = .opening q → (actor o i).Meets (fun _ => Opened o i) q s)
    (hholder : (∀ q, instance_ ≠ .opening q) → s.holder ≠ some i)
    (hopened : instance_ = .opened → Established o s) :
    Inv o (h.set s i instance_) ∧ Keeps o h.storage (h.set s i instance_).storage := by
  refine ⟨⟨(hkeeps hinv.directory).1, fun j q hj => ?_, fun j hj => ?_, fun j hj => ?_⟩, hkeeps⟩
  · change Function.update h.instances i instance_ j = .opening q at hj
    by_cases hji : j = i
    · subst hji
      rw [Function.update_self] at hj
      exact hmeets q hj
    · rw [Function.update_of_ne hji] at hj
      exact (hinv.meets j q hj).interfere (hrely j hji)
  · change ∀ q, Function.update h.instances i instance_ j ≠ .opening q at hj
    by_cases hji : j = i
    · subst hji
      rw [Function.update_self] at hj
      exact hholder hj
    · rw [Function.update_of_ne hji] at hj
      exact (hrely j hji).2.2 (hinv.holder j hj)
  · change Function.update h.instances i instance_ j = .opened at hj
    by_cases hji : j = i
    · subst hji
      rw [Function.update_self] at hj
      exact hopened hj
    · rw [Function.update_of_ne hji] at hj
      exact (hkeeps hinv.directory).2 (hinv.opened j hj)

/-! ## Operations -/

/-- **What an operation does to an established store**: what it does in one
piece, if it returns, and nothing if it throws. -/
theorem operate_cases {operation : StoreOperation} {faults : List Bool}
    (hs : Established o s) (h : s.operate i operation faults = some t) :
    t = s ∨ (s.writer = none ∧ Established o t ∧ t = { s with
      database := t.database, committed := t.committed }
      ∧ Reshapes s.database t.database) := by
  obtain ⟨⟨origin, stores, j, haccepts, hruns, himage, hholds⟩, hnamed⟩ := hs
  have hread : s.read = j := by rw [TrustStorage.read, himage]; rfl
  unfold operate at h
  split at h
  · rename_i hwriter
    rw [hread, hholds.database] at h
    refine .inr ⟨hwriter, ?_⟩
    simp only [Option.bind_eq_bind, Option.bind_some] at h
    split at h
    · rename_i handle hcall
      cases h
      have hrun := StoreOperation.run_of_call rfl hcall
      refine ⟨⟨⟨origin, stores.commit i operation handle.committed, _, haccepts, ?_, rfl,
        hholds.withDatabase _⟩, hnamed⟩, rfl,
        .inr ⟨j, stores.database, handle.committed, hholds.database, himage, rfl⟩⟩
      refine runs_concat.mpr ⟨stores, hruns, ?_⟩
      show (if true then _ else _) = _
      rw [if_pos rfl, hrun]
    · rename_i handle hcall
      cases h
      have hsame := StoreOperation.committed_of_throw rfl hcall
      rw [hsame]
      exact ⟨⟨⟨origin, stores, _, haccepts, hruns, rfl, hholds.withDatabase _⟩, hnamed⟩, rfl,
        .inr ⟨j, stores.database, stores.database, hholds.database, himage, rfl⟩⟩
  · exact .inl (Option.some.inj h).symm

/-- Of the name of an established store a power loss takes nothing. -/
theorem established_powerLoss {kept : Bool} {sidecar : Sidecar → Bool} (hs : Established o s) :
    Established o (s.powerLoss kept sidecar) := by
  obtain ⟨⟨origin, stores, i, haccepts, hruns, himage, hholds⟩, hnamed⟩ := hs
  refine ⟨⟨origin, stores, i, haccepts, hruns, ?_, hholds⟩, rfl⟩
  show (if s.named || kept then s.database else none) = _
  rw [hnamed, Bool.true_or, if_pos rfl, himage]

/-- Of a store that is not established it takes at most a file just
created. -/
theorem untouched_powerLoss {kept : Bool} {sidecar : Sidecar → Bool}
    (hs : Untouched o s.database s.named) :
    Untouched o (s.powerLoss kept sidecar).database true := by
  show Untouched o (if s.named || kept then s.database else none) true
  split
  · cases hs with
    | kept hd hn => exact .kept hd (.inl rfl)
    | created hfresh hd => exact .created hfresh hd
    | initialized hfresh hd hn => exact .initialized hfresh hd rfl
    | converted j hfile hrecognized hd hn => exact .converted j hfile hrecognized hd rfl
  · rename_i hlost
    have hnamed : s.named ≠ true := fun hn => hlost (by rw [hn, Bool.true_or])
    cases hs with
    | kept hd hn => exact .kept (hn.resolve_left hnamed).symm (.inl rfl)
    | created hfresh hd => exact .kept hfresh.database.symm (.inl rfl)
    | initialized hfresh hd hn => exact absurd hn hnamed
    | converted j hfile hrecognized hd hn => exact absurd hn hnamed

/-- **A power loss keeps the invariant.** -/
theorem keeps_powerLoss {kept : Bool} {sidecar : Sidecar → Bool} :
    Keeps o s (s.powerLoss kept sidecar) := by
  intro hs
  refine ⟨⟨?_, ?_, fun _ _ hw => (by cases hw)⟩, established_powerLoss⟩
  · exact hs.database.imp established_powerLoss (fun hu => ⟨hu.1, untouched_powerLoss hu.2⟩)
  · rcases hs.sidecar with ⟨hran, hsidecar⟩ | hnone
    · refine .inl ⟨hran, ?_⟩
      show (if s.ran then sidecar else s.sidecar) = _
      rw [hran]
      exact hsidecar
    · exact .inr hnone

/-! ## Runs -/

/-- **Every event keeps the invariant**, and an established store. -/
theorem inv_step {filename : Bytes} {h h' : StoreProcesses} {e : LifetimeEvent} (hinv : Inv o h)
    (hstep : step filename h e = some h') : Inv o h' ∧ Keeps o h.storage h'.storage := by
  cases e with
  | start i above =>
    simp only [step] at hstep
    split at hstep
    · rename_i hclosed
      cases hstep
      refine hinv.set (.refl _) (fun j _ => (actor o j).rely_refl _) ?_
        (fun hno => absurd rfl (hno _)) (fun hopened => (by cases hopened))
      rintro q ⟨⟩
      exact openStore_triple filename above _
        ⟨hinv.directory, hinv.holder i (fun p hp => by rw [hclosed] at hp; cases hp)⟩
    · cases hstep
  | reply i r =>
    simp only [step] at hstep
    split at hstep
    · rename_i c next hcall
      obtain ⟨s, hs, rfl⟩ := Option.map_eq_some_iff.mp hstep
      obtain ⟨hguarantee, hrest⟩ := (hinv.meets i _ hcall).advance hs
      refine hinv.set hguarantee.1 (fun j hj => rely_of_guarantee hj hguarantee) ?_
        (fun hno => absurd rfl (hno _)) (fun hopened => (by cases hopened))
      rintro q ⟨⟩
      exact hrest
    · cases hstep
  | finish i =>
    simp only [step] at hstep
    split at hstep
    · rename_i hdone
      cases hstep
      have hreturned := (hinv.meets i _ hdone).returned
      exact hinv.set keeps_release (fun j hj => rely_release hj hinv.directory)
        (fun q hq => (by cases hq)) (fun _ => holder_release)
        (fun _ => (keeps_release hinv.directory).2 hreturned.established)
    · cases hstep
      exact hinv.set keeps_release (fun j hj => rely_release hj hinv.directory)
        (fun q hq => (by cases hq)) (fun _ => holder_release) (fun hopened => (by cases hopened))
    · cases hstep
  | operate i operation faults =>
    simp only [step] at hstep
    split at hstep
    · rename_i hopen
      obtain ⟨s, hs, rfl⟩ := Option.map_eq_some_iff.mp hstep
      have hfree := hinv.holder i (fun p hp => by rw [hopen] at hp; cases hp)
      have hestablished := hinv.opened i hopen
      rcases operate_cases hestablished hs with rfl | ⟨hwriter, hafter, hsame, hreshapes⟩
      · exact hinv.set (.refl _) (fun j _ => (actor o j).rely_refl _) (fun q hq => (by cases hq))
          (fun _ => hfree) (fun _ => hestablished)
      · have hholder : s.holder = h.storage.holder := by rw [hsame]
        have hwriter' : s.writer = h.storage.writer := by rw [hsame]
        have hnamed : s.named = h.storage.named := by rw [hsame]
        have hkeeps : Keeps o h.storage s := by
          intro hinvariant
          refine ⟨⟨.inl hafter, ?_, fun p w hw => ?_⟩, fun _ => hafter⟩
          · rw [hsame]
            exact hinvariant.sidecar
          · rw [hwriter', hwriter] at hw
            cases hw
        refine hinv.set hkeeps (fun j hj => ⟨hkeeps, fun hj' => ?_, fun hj' => ?_⟩)
          (fun q hq => (by cases hq)) (fun _ => by rwa [hholder]) (fun _ => hafter)
        · exact ⟨hholder.trans hj', hwriter', hreshapes, fun hn => hnamed.trans hn,
            fun hw => absurd hwriter hw⟩
        · rwa [hholder]
    · cases hstep
  | close i =>
    simp only [step] at hstep
    split at hstep
    · rename_i hopen
      cases hstep
      exact hinv.set (.refl _) (fun j _ => (actor o j).rely_refl _) (fun q hq => (by cases hq))
        (fun _ => hinv.holder i (fun p hp => by rw [hopen] at hp; cases hp))
        (fun hopened => (by cases hopened))
    · cases hstep
  | crash i =>
    cases hstep
    exact hinv.set keeps_release (fun j hj => rely_release hj hinv.directory)
      (fun q hq => (by cases hq)) (fun _ => holder_release) (fun hopened => (by cases hopened))
  | sidecar file present =>
    simp only [step] at hstep
    split at hstep
    · rename_i hran
      cases hstep
      have hkeeps : Keeps o h.storage
          { h.storage with sidecar := Function.update h.storage.sidecar file present } := by
        intro hinvariant
        refine ⟨⟨hinvariant.database.imp_left (fun he => ⟨he.holds, he.named⟩), ?_,
          hinvariant.writer⟩, fun he => ⟨he.holds, he.named⟩⟩
        rcases hinvariant.sidecar with ⟨hno, -⟩ | hnone
        · rw [hran] at hno
          cases hno
        · exact .inr hnone
      refine ⟨⟨(hkeeps hinv.directory).1, fun j q hj => (hinv.meets j q hj).interfere ?_,
        hinv.holder, fun j hj => (hkeeps hinv.directory).2 (hinv.opened j hj)⟩, hkeeps⟩
      exact ⟨hkeeps, fun hj => ⟨hj, rfl, .refl _, id, fun _ => rfl⟩, id⟩
    · cases hstep
  | powerLoss kept sidecar =>
    cases hstep
    exact ⟨⟨(keeps_powerLoss hinv.directory).1, fun _ _ hq => (by cases hq),
      fun _ _ hholder => (by cases hholder), fun _ hopened => (by cases hopened)⟩,
      keeps_powerLoss⟩

theorem inv_initial : Inv o (initial o) where
  directory :=
    ⟨.inr ⟨rfl, .kept rfl (.inl rfl)⟩, .inl ⟨rfl, rfl⟩, fun _ _ hw => (by cases hw)⟩
  meets _ _ hq := by cases hq
  holder _ _ hholder := by cases hholder
  opened _ hopened := by cases hopened

/-- The invariant holds in every state of every run. -/
theorem inv_runs {filename : Bytes} {events : List LifetimeEvent}
    (hrun : runs (step filename) (initial o) events = some h) : Inv o h :=
  runs_invariant (I := Inv o) (fun _ _ _ hi hs => (inv_step hi hs).1) hrun inv_initial

theorem established_runs {filename : Bytes} {events : List LifetimeEvent} {h' : StoreProcesses}
    (hinv : Inv o h) (hs : Established o h.storage)
    (hrun : runs (step filename) h events = some h') : Established o h'.storage := by
  refine (runs_invariant (I := fun g => Inv o g ∧ Established o g.storage) ?_ hrun ⟨hinv, hs⟩).2
  rintro g e g' ⟨hg, hestablished⟩ hstep
  obtain ⟨hg', hkeeps⟩ := inv_step hg hstep
  exact ⟨hg', (hkeeps hg.directory).2 hestablished⟩

end Invariant

/-- **No operation that returned is ever lost, and none that did not is ever
seen.** Whatever the state directory has at first, and through every
interleaving of constructors, operations, failures, crashes and power losses:
either the database is of the current version and its records are what the
operations that returned, in their order, make of the records the constructor
was to accept; or no operation has returned, no instance is open, and nothing
has changed but the journal mode of a database of this application, or a new
database without tables in an empty directory. -/
theorem records_survive {filename : Bytes} {o : StoreOrigin} {events : List LifetimeEvent}
    {h : StoreProcesses} (hrun : runs (step filename) (initial o) events = some h) :
    (∃ origin stores i, o.Accepts origin
        ∧ runs TrustStores.step (TrustStores.on origin) h.storage.committed = some stores
        ∧ h.storage.database = some (.image i) ∧ i.Holds stores.database)
      ∨ (h.storage.committed = [] ∧ (∀ process, h.instances process ≠ .opened)
        ∧ Untouched o h.storage.database h.storage.named) := by
  have hinv := inv_runs hrun
  by_cases hestablished : Established o h.storage
  · exact .inl hestablished.holds
  · obtain ⟨hcommitted, huntouched⟩ := hinv.directory.database.resolve_left hestablished
    exact .inr ⟨hcommitted, fun process hopen => hestablished (hinv.opened process hopen),
      huntouched⟩

/-- The replies a constructor gets in an empty directory, if nothing fails. -/
def freshReplies : List OpeningReply :=
  [List.replicate 11 .ok, [.present 0, .ok, .absent, .absent, .absent, .absent],
    List.replicate 9 .ok,
    [.integer 1, .text "ok", .integer 0, .integer 0, .text "wal", .ok, .integer 2],
    List.replicate 8 .ok,
    [.row false, .ok, .ok, .ok, .ok, .present 4096, .absent, .absent, .absent, .ok, .ok]].flatten

/-- A process opens a store in an empty directory. -/
def freshOpening : List LifetimeEvent :=
  .start 0 0 :: freshReplies.map (.reply 0) ++ [.finish 0]

/-- A device is imported, and the power goes while another process opens the
store. -/
theorem records_survive_import :
    ∃ h, runs (step (ascii "trust.sqlite3")) (initial ⟨none, fun _ => false⟩)
        (freshOpening ++ [.operate 0 (.importDeviceForAdmin TrustStores.sampleDevice) [],
          .start 1 0, .reply 1 .ok, .powerLoss false (fun _ => true)]) = some h
      ∧ ∃ origin stores i, StoreOrigin.Accepts ⟨none, fun _ => false⟩ origin
        ∧ runs TrustStores.step (TrustStores.on origin)
          [⟨0, .importDeviceForAdmin TrustStores.sampleDevice, true⟩] = some stores
        ∧ h.storage.database = some (.image i) ∧ i.Holds stores.database := by
  have hevaluated : (runs (step (ascii "trust.sqlite3")) (initial ⟨none, fun _ => false⟩)
      (freshOpening ++ [.operate 0 (.importDeviceForAdmin TrustStores.sampleDevice) [],
        .start 1 0, .reply 1 .ok, .powerLoss false (fun _ => true)])).map
          (fun h => h.storage.committed)
      = some [⟨0, .importDeviceForAdmin TrustStores.sampleDevice, true⟩] := by decide +kernel
  obtain ⟨h, hrun, hcommitted⟩ := Option.map_eq_some_iff.mp hevaluated
  refine ⟨h, hrun, ?_⟩
  rcases records_survive hrun with hholds | ⟨hnone, -⟩
  · rwa [hcommitted] at hholds
  · rw [hcommitted] at hnone
    cases hnone

/-- **The constructor fails closed.** What it is not to accept – a database of
another application or version, a damaged or truncated one, one with missing
tables or permissions without a device, or none but with files beside it –
is never opened and stays as it was, up to the journal mode of a database of
this application. -/
theorem refused_kept {filename : Bytes} {o : StoreOrigin} {events : List LifetimeEvent}
    {h : StoreProcesses} (hrefused : ∀ db, ¬ o.Accepts db)
    (hrun : runs (step filename) (initial o) events = some h) :
    (∀ process, h.instances process ≠ .opened) ∧ h.storage.committed = []
      ∧ (h.storage.database = o.database
        ∨ ∃ i, o.database = some (.image i) ∧ i.Recognized
          ∧ h.storage.database = some (.image { i with wal := true })) := by
  rcases records_survive hrun with ⟨origin, -, -, haccepts, -⟩ | ⟨hcommitted, hclosed, huntouched⟩
  · exact absurd haccepts (hrefused origin)
  refine ⟨hclosed, hcommitted, ?_⟩
  cases huntouched with
  | kept hdatabase => exact .inl hdatabase
  | created hfresh => exact absurd (.fresh hfresh) (hrefused _)
  | initialized hfresh => exact absurd (.fresh hfresh) (hrefused _)
  | converted i hfile hrecognized hdatabase => exact .inr ⟨i, hfile, hrecognized, hdatabase⟩

/-- A process finds a write-ahead log and no database. -/
def refusedOpening : List LifetimeEvent :=
  .start 0 0 :: [List.replicate 11 OpeningReply.ok,
    [.present 0, .ok, .absent, .present 0, .absent, .absent]].flatten.map (.reply 0) ++ [.finish 0]

/-- A write-ahead log without its database is left alone. -/
theorem refused_kept_log :
    ∃ h, runs (step (ascii "trust.sqlite3")) (initial ⟨none, (· == .wal)⟩) refusedOpening = some h
      ∧ (∀ process, h.instances process ≠ .opened) ∧ h.storage.database = none := by
  have hevaluated : (runs (step (ascii "trust.sqlite3")) (initial ⟨none, (· == .wal)⟩)
      refusedOpening).isSome = true := by decide +kernel
  obtain ⟨h, hrun⟩ := Option.isSome_iff_exists.mp hevaluated
  have hrefused : ∀ db, ¬ StoreOrigin.Accepts ⟨none, (· == .wal)⟩ db := by
    intro db haccepts
    cases haccepts with
    | fresh hfresh => exact absurd (hfresh.sidecar .wal) (by decide)
    | version1 hfile => cases hfile
    | version2 hfile => cases hfile
  obtain ⟨hclosed, -, hdatabase⟩ := refused_kept hrefused hrun
  refine ⟨h, hrun, hclosed, ?_⟩
  rcases hdatabase with hsame | ⟨i, hfile, -⟩
  · exact hsame
  · cases hfile

/-! ## Opening again -/

section Reopening

open TrustStorage

variable {i : ℕ} {s t : TrustStorage} {j : DatabaseImage} {db : Database}

theorem returns_perform {c : OpeningCall} {message : String}
    (hstep : TrustStorage.step i s c .ok = some t) :
    (TrustOpening.perform c message).Returns (TrustStorage.step i) s () t := by
  refine .call hstep ?_
  rw [if_pos rfl]
  exact .done

theorem returns_demand {condition : Bool} {message : String} (h : condition = true) :
    (TrustOpening.demand condition message).Returns (TrustStorage.step i) s () s := by
  rw [TrustOpening.demand, if_pos h]
  exact .done

theorem returns_syncTree (above : ℕ) {sync : OpeningCall}
    (hstep : TrustStorage.step i s sync .ok = some t) :
    (TrustOpening.syncTree sync above).Returns (TrustStorage.step i) s () t := by
  induction above generalizing sync s with
  | zero =>
    exact (returns_perform hstep).bind ((returns_perform rfl).bind (returns_perform rfl))
  | succ above ih =>
    exact (returns_perform hstep).bind ((returns_perform rfl).bind
      ((returns_perform rfl).bind (ih rfl)))

theorem returns_openStateDirectory (above : ℕ) :
    (TrustOpening.openStateDirectory above).Returns (TrustStorage.step i) s ()
      { s with named := true } :=
  (returns_perform rfl).bind ((returns_perform rfl).bind ((returns_perform rfl).bind
    ((returns_perform rfl).bind ((returns_perform rfl).bind ((returns_syncTree above rfl).bind
      (returns_perform rfl))))))

theorem returns_acquireLock (hholder : s.holder = none) :
    TrustOpening.acquireLock.Returns (TrustStorage.step i) s ()
      { s with holder := some i } := by
  refine (returns_perform rfl).bind (Prog.Returns.bind (a := some 0) (.call (r := .present 0) rfl
    .done) (returns_perform ?_))
  exact if_pos hholder

/-- The files beside the database are inspected, whatever there are. -/
theorem returns_inspectSidecars (files : List Sidecar) (sidecar : Bool) :
    ∃ found, (TrustOpening.inspectSidecars files sidecar).Returns (TrustStorage.step i) s
      found s := by
  induction files generalizing sidecar with
  | nil => exact ⟨sidecar, .done⟩
  | cons file rest ih =>
    cases hfile : s.sidecar file with
    | true =>
      obtain ⟨found, hfound⟩ := ih (true || sidecar)
      refine ⟨found, Prog.Returns.bind (a := some 0) (.call (r := .present 0) ?_ .done) hfound⟩
      show s.answer (s.sidecar file) = some s
      rw [hfile]
      rfl
    | false =>
      obtain ⟨found, hfound⟩ := ih (false || sidecar)
      refine ⟨found, Prog.Returns.bind (a := none) (.call (r := .absent) ?_ .done) hfound⟩
      show s.answer (!s.sidecar file) = some s
      rw [hfile]
      rfl

theorem returns_inspectDatabase (hs : s.database = some (.image j)) :
    (TrustOpening.inspectFile .inspectDatabase).Returns (TrustStorage.step i) s (some 4096) s := by
  refine .call (r := .present 4096) ?_ .done
  show s.answer (s.database.any (DatabaseFile.hasSize 4096)) = some s
  rw [hs]
  rfl

theorem returns_prepareDatabase (hs : s.database = some (.image j)) :
    TrustOpening.prepareDatabase.Returns (TrustStorage.step i) s true s := by
  obtain ⟨found, hfound⟩ := returns_inspectSidecars (i := i) (s := s) TrustOpening.sidecars false
  exact (returns_inspectDatabase hs).bind (hfound.bind ((returns_demand rfl).bind
    ((returns_demand (by decide)).bind .done)))

/-- A pragma that returns what it reads. -/
theorem returns_pragmaInteger {c : OpeningCall} (value : ℤ)
    (hstep : TrustStorage.step i s c (.integer value) = some t) :
    (TrustOpening.pragmaInteger c).Returns (TrustStorage.step i) s value t :=
  .call hstep .done

@[inherit_doc returns_pragmaInteger]
theorem returns_pragmaText {c : OpeningCall} (value : String)
    (hstep : TrustStorage.step i s c (.text value) = some t) :
    (TrustOpening.pragmaText c).Returns (TrustStorage.step i) s value t :=
  .call hstep .done

theorem step_wal (s : TrustStorage) : TrustStorage.step i s .journalMode (.text "wal")
    = some { s with database := some (.image { s.read with wal := true }) } := rfl

/-- **The connection of a database of the current version.** -/
theorem returns_connect (hs : s.database = some (.image j)) (hj : j.Holds db) :
    (TrustOpening.connect true).Returns (TrustStorage.step i) s 2 { s with
      ran := true
      database := some (.image { j with wal := true }) } := by
  have hread : ({ s with ran := true } : TrustStorage).read = j := by
    show (s.database.map DatabaseFile.read).getD .blank = j
    rw [hs]
    rfl
  have hopen : TrustStorage.step i s .openSqlite .ok = some { s with ran := true } := by
    show (if s.database.isSome then _ else _) = _
    rw [hs]
    rfl
  have hcheck : TrustStorage.step i { s with ran := true } .quickCheck (.text "ok")
      = some { s with ran := true } := by
    show answer _ (("ok" == "ok") == DatabaseImage.intact (read _)) = _
    rw [hread, hj.intact]
    rfl
  have hversion : TrustStorage.step i { s with ran := true } .userVersion (.integer 2)
      = some { s with ran := true } := by
    show answer _ ((2 : ℤ) == DatabaseImage.userVersion (read _)) = _
    rw [hread, hj.userVersion]
    rfl
  have happ : TrustStorage.step i { s with ran := true } .applicationId
      (.integer trustApplicationId) = some { s with ran := true } := by
    show answer _ (trustApplicationId == DatabaseImage.applicationId (read _)) = _
    rw [hread, hj.applicationId]
    rfl
  have hjournal : TrustStorage.step i { s with ran := true } .journalMode (.text "wal")
      = some { s with ran := true, database := some (.image { j with wal := true }) } := by
    rw [step_wal, hread]
  refine (returns_perform hopen).bind ((returns_perform rfl).bind ((returns_perform rfl).bind
    ((returns_perform rfl).bind ((returns_perform rfl).bind ((returns_pragmaInteger 1 rfl).bind
    ((returns_demand rfl).bind ((returns_pragmaText "ok" hcheck).bind ((returns_demand rfl).bind
    ((returns_pragmaInteger 2 hversion).bind ((returns_pragmaInteger _ happ).bind ?_))))))))))
  exact (returns_demand rfl).bind ((returns_pragmaText "wal" hjournal).bind
    ((returns_demand rfl).bind ((returns_perform rfl).bind ((returns_pragmaInteger 2 rfl).bind
    ((returns_demand rfl).bind .done)))))

theorem step_select {c : OpeningCall} {r : OpeningReply} {w : DatabaseImage}
    {p : DatabaseImage → Bool} (hw : s.writer = some (i, w))
    (hstep : TrustStorage.step i s c r = s.answer ((s.working i).any p)) (hp : p w = true) :
    TrustStorage.step i s c r = some s := by
  rw [hstep, working, hw, Option.bind_some, if_pos rfl, Option.any_some, hp]
  rfl

theorem returns_checkFiles (hs : s.database = some (.image j)) :
    TrustOpening.checkFiles.Returns (TrustStorage.step i) s () s := by
  obtain ⟨found, hfound⟩ := returns_inspectSidecars (i := i) (s := s) TrustOpening.sidecars false
  exact (returns_inspectDatabase hs).bind ((returns_demand rfl).bind (hfound.bind .done))

/-- **The migration of a database of the current version** finds nothing to
refuse, where every permission has its row. -/
theorem returns_migrate (hs : s.database = some (.image j)) (hj : j.Holds db)
    (hwriter : s.writer = none) (hcheck : j.foreignKeyCheck = some false) :
    (TrustOpening.migrate 2).Returns (TrustStorage.step i) s () s := by
  have hread : s.read = j := by rw [TrustStorage.read, hs]; rfl
  obtain ⟨hdevices, hpermissions, hattempts, hattemptPermissions⟩ :=
    DatabaseImage.database?_eq_some.mp hj.database
  have hsame : { j with applicationId := trustApplicationId, userVersion := trustVersion } = j := by
    rw [← hj.applicationId, ← hj.userVersion]
  have hbegin : TrustStorage.step i s .beginImmediate .ok
      = some { s with writer := some (i, j) } := by
    show (if s.writer = none then some _ else _) = _
    rw [if_pos hwriter, hread]
  have hexecute : ∀ {statement : SchemaStatement}, statement.apply j = some j →
      TrustStorage.step i { s with writer := some (i, j) } (.execute statement) .ok
        = some { s with writer := some (i, j) } := by
    intro statement hstatement
    show (Option.bind (working _ i) statement.apply).map _ = _
    rw [show working { s with writer := some (i, j) } i = some j from if_pos rfl,
      Option.bind_some, hstatement]
    rfl
  have hcommit : TrustStorage.step i { s with writer := some (i, j) } .commit .ok = some s := by
    show (working _ i).map _ = _
    rw [show working { s with writer := some (i, j) } i = some j from if_pos rfl, Option.map_some]
    obtain ⟨database, named, sidecar, ran, holder, writer, committed⟩ := s
    cases hs
    cases hwriter
    rfl
  have happ : (SchemaStatement.setApplicationId trustApplicationId).apply j = some j := by
    show some { j with applicationId := trustApplicationId } = some j
    rw [← hj.applicationId]
  have hver : (SchemaStatement.setUserVersion trustVersion).apply j = some j := by
    show some { j with userVersion := trustVersion } = some j
    rw [← hj.userVersion]
  refine (returns_perform hbegin).bind (Prog.Returns.bind (a := ())
    ((returns_perform (hexecute happ)).bind ((returns_perform (hexecute hver)).bind .done)) ?_)
  refine Prog.Returns.bind (a := false) (.call (r := .row false) (step_select rfl rfl ?_) .done)
    ((returns_demand rfl).bind ?_)
  · rw [hcheck]
    rfl
  refine (returns_perform (step_select rfl rfl ?_)).bind ((returns_perform
    (step_select rfl rfl ?_)).bind ((returns_perform (step_select rfl rfl ?_)).bind
    ((returns_perform (step_select rfl rfl ?_)).bind
    ((returns_checkFiles (s := { s with writer := some (i, j) }) hs).bind
      (returns_perform hcommit)))))
  · rw [hdevices]
    rfl
  · rw [hattempts]
    rfl
  · rw [hpermissions, hdevices]
    rfl
  · rw [hattemptPermissions]
    rfl

/-- **The constructor returns** on a database of the current version, where
every permission has its row and nobody holds the lock. -/
theorem returns_openStore {filename : Bytes} (above : ℕ)
    (hname : (filename.isEmpty || filename == ascii "." || filename == ascii "..") = false)
    (hs : s.database = some (.image j)) (hj : j.Holds db) (hholder : s.holder = none)
    (hwriter : s.writer = none) (hcheck : j.foreignKeyCheck = some false) :
    (TrustOpening.openStore filename above).Returns (TrustStorage.step i) s () { s with
      named := true
      holder := some i
      ran := true
      database := some (.image { j with wal := true }) } := by
  have hlock := returns_acquireLock (i := i) (s := { s with named := true }) hholder
  have hprepare := returns_prepareDatabase (i := i) (j := j)
    (s := { s with named := true, holder := some i }) hs
  have hconnect := returns_connect (i := i) (j := j)
    (s := { s with named := true, holder := some i }) hs hj
  have hmigrate := returns_migrate (i := i) (j := { j with wal := true }) (s := { s with
      named := true, holder := some i, ran := true
      database := some (.image { j with wal := true }) })
    rfl ⟨hj.intact, hj.applicationId, hj.userVersion, hj.database⟩ hwriter hcheck
  exact (returns_perform rfl).bind ((returns_demand (by rw [hname]; rfl)).bind
    ((returns_openStateDirectory above).bind (hlock.bind (hprepare.bind (hconnect.bind
    (hmigrate.bind (returns_perform rfl)))))))

/-- The replies of the system, as events. -/
theorem runs_of_returns {filename : Bytes} {h : StoreProcesses} {p : OpeningProg Unit}
    (hopening : h.instances i = .opening p)
    (hreturns : p.Returns (TrustStorage.step i) h.storage () t) :
    ∃ events, runs (step filename) h events = some (h.set t i (.opening (.done ()))) := by
  generalize hs : h.storage = s at hreturns
  generalize ha : () = a at hreturns
  induction hreturns generalizing h with
  | done =>
    subst hs
    refine ⟨[], congrArg some ?_⟩
    show h = ⟨h.storage, Function.update h.instances i _⟩
    rw [← hopening, Function.update_eq_self]
  | @call c next s' u t' r a hstep hnext ih =>
    subst hs
    have hrest := ih (h := h.set u i (.opening (next r)))
      (Function.update_self i _ h.instances) rfl ha
    obtain ⟨events, hevents⟩ := hrest
    refine ⟨.reply i r :: events, ?_⟩
    refine runs_cons.mpr ⟨h.set u i (.opening (next r)), ?_, ?_⟩
    · simp only [step, hopening, hstep, Option.map_some]
    · rw [hevents]
      show some (⟨t', Function.update (Function.update h.instances i _) i _⟩ : StoreProcesses) = _
      rw [Function.update_idem]
      rfl

/-- **The constructor fails** for a name that it refuses. -/
theorem fails_openStore {filename : Bytes} (above : ℕ)
    (hname : (filename.isEmpty || filename == ascii "." || filename == ascii "..") = true) :
    (TrustOpening.openStore filename above).Fails := by
  refine .call (fun r => ?_)
  by_cases hr : r = .ok
  · dsimp only
    rw [if_pos hr, Prog.bind, TrustOpening.demand, hname]
    exact .failed _
  · dsimp only
    rw [if_neg hr]
    exact .failed _

/-- **A name that the constructor refuses stays refused.** -/
theorem refused_step {filename : Bytes} {h h' : StoreProcesses} {e : LifetimeEvent}
    (hname : (filename.isEmpty || filename == ascii "." || filename == ascii "..") = true)
    (hh : ∀ i, (h.instances i).Refused) (hstep : step filename h e = some h') :
    ∀ i, (h'.instances i).Refused := by
  have hset : ∀ {s i x}, StoreInstance.Refused x → ∀ j, ((h.set s i x).instances j).Refused := by
    intro s i x hx j
    by_cases hji : j = i
    · subst hji
      rwa [show (h.set s j x).instances j = x from Function.update_self _ _ _]
    · rw [show (h.set s i x).instances j = h.instances j from Function.update_of_ne hji _ _]
      exact hh j
  have hclosed : StoreInstance.closed.Refused := ⟨nofun, nofun⟩
  have hopening : ∀ {p : OpeningProg Unit}, p.Fails → (StoreInstance.opening p).Refused := by
    intro p hp
    refine ⟨nofun, fun q hq => ?_⟩
    cases hq
    exact hp
  cases e with
  | start i above =>
    simp only [step] at hstep
    split at hstep
    · cases hstep
      exact hset (hopening (fails_openStore above hname))
    · cases hstep
  | reply i r =>
    simp only [step] at hstep
    split at hstep
    · rename_i c next hi
      obtain ⟨s, -, rfl⟩ := Option.map_eq_some_iff.mp hstep
      cases (hh i).2 _ hi with
      | call hnext => exact hset (hopening (hnext r))
    · cases hstep
  | finish i =>
    simp only [step] at hstep
    split at hstep
    · rename_i hi
      cases (hh i).2 _ hi
    · cases hstep
      exact hset hclosed
    · cases hstep
  | operate i operation faults =>
    simp only [step] at hstep
    split at hstep
    · rename_i hi
      exact absurd hi (hh i).1
    · cases hstep
  | close i =>
    simp only [step] at hstep
    split at hstep
    · rename_i hi
      exact absurd hi (hh i).1
    · cases hstep
  | crash i =>
    cases hstep
    exact hset hclosed
  | sidecar file present =>
    obtain ⟨-, hstep⟩ := Option.ite_none_right_eq_some.mp hstep
    cases hstep
    exact hh
  | powerLoss kept sidecar =>
    cases hstep
    exact fun _ => hclosed

/-- So no process gets past it. -/
theorem named_of_opened {filename : Bytes} {o : StoreOrigin} {events : List LifetimeEvent}
    {g : StoreProcesses} (hrun : runs (step filename) (initial o) events = some g)
    (hopen : g.instances i = .opened) :
    (filename.isEmpty || filename == ascii "." || filename == ascii "..") = false := by
  by_contra hname
  rw [Bool.not_eq_false] at hname
  have hrefused : ∀ j, (g.instances j).Refused :=
    runs_invariant (I := fun h : StoreProcesses => ∀ j, (h.instances j).Refused)
      (fun _ _ _ hh hstep => refused_step hname hh hstep) hrun (fun _ => ⟨nofun, nofun⟩)
  exact (hrefused i).1 hopen

end Reopening

/-- **A store that has been open can always be opened again**, with the
records of every operation that returned, whatever happened in between and
even if the power goes: no operation leads to a database that the constructor
refuses. -/
theorem reopens {filename : Bytes} {o : StoreOrigin} {before after : List LifetimeEvent}
    {g h : StoreProcesses} {first : ℕ}
    (hbefore : runs (step filename) (initial o) before = some g)
    (hopen : g.instances first = .opened)
    (hafter : runs (step filename) g after = some h) (i above : ℕ) (kept : Bool)
    (sidecar : Sidecar → Bool) :
    ∃ events h', runs (step filename) h (.powerLoss kept sidecar :: events) = some h'
      ∧ h'.instances i = .opened ∧ h'.storage.committed = h.storage.committed
      ∧ h'.storage.read.database? = h.storage.read.database? := by
  have hinv := inv_runs hbefore
  have hname := named_of_opened hbefore hopen
  have hestablished := established_runs hinv (hinv.opened first hopen) hafter
  have hlost : Established o (h.storage.powerLoss kept sidecar) :=
    established_powerLoss hestablished
  obtain ⟨⟨origin, stores, j, haccepts, hruns, himage, hholds⟩, -⟩ := hlost
  -- the records are those of a run of operations, so every permission has its row
  have hanchors : stores.database.Anchors := TrustStores.anchors_of_runs hruns haccepts.anchors
  have hcheck := (TrustStorage.foreignKeyCheck_eq_false hholds.database).mpr
    ⟨hanchors.devices, hanchors.attempts⟩
  have hreturns := returns_openStore (i := i) above hname himage hholds rfl rfl hcheck
  obtain ⟨events, hevents⟩ := runs_of_returns
    (h := (⟨h.storage.powerLoss kept sidecar, fun _ => .closed⟩ : StoreProcesses).set
      (h.storage.powerLoss kept sidecar) i (.opening (TrustOpening.openStore filename above)))
    (Function.update_self i _ _) hreturns
  have hfinish : ∀ (g : StoreProcesses) (t : TrustStorage),
      step filename (g.set t i (.opening (.done ()))) (.finish i)
        = some ((g.set t i (.opening (.done ()))).set (t.release i) i .opened) := by
    intro g t
    simp only [step, set, Function.update_self]
  have hrun := runs_cons.mpr ⟨_, (rfl : step filename h (.powerLoss kept sidecar) = some _),
    runs_cons.mpr ⟨_, (rfl : step filename _ (.start i above) = some _),
      runs_concat.mpr ⟨_, hevents, hfinish _ _⟩⟩⟩
  refine ⟨_, _, hrun, Function.update_self i _ _, rfl, ?_⟩
  have hsame : h.storage.read.database? = some stores.database := by
    have hkept : (h.storage.powerLoss kept sidecar).database = h.storage.database := by
      show (if h.storage.named || kept then h.storage.database else none) = _
      rw [hestablished.named, Bool.true_or, if_pos rfl]
    rw [TrustStorage.read, ← hkept, himage]
    exact hholds.database
  rw [hsame]
  exact hholds.database

/-- A new store with a device is opened again by another process. -/
theorem reopens_import :
    ∃ h events h', runs (step (ascii "trust.sqlite3")) (initial ⟨none, fun _ => false⟩)
        (freshOpening ++ [.operate 0 (.importDeviceForAdmin TrustStores.sampleDevice) []]) = some h
      ∧ runs (step (ascii "trust.sqlite3")) h (.powerLoss false (fun _ => true) :: events) = some h'
      ∧ h'.instances 1 = .opened
      ∧ h'.storage.committed = [⟨0, .importDeviceForAdmin TrustStores.sampleDevice, true⟩] := by
  have hfirst : (runs (step (ascii "trust.sqlite3")) (initial ⟨none, fun _ => false⟩)
      freshOpening).map (fun g => (g.instances 0).isOpened) = some true := by decide +kernel
  have hsecond : (runs (step (ascii "trust.sqlite3")) (initial ⟨none, fun _ => false⟩)
      (freshOpening ++ [.operate 0 (.importDeviceForAdmin TrustStores.sampleDevice) []])).map
        (fun h => h.storage.committed)
      = some [⟨0, .importDeviceForAdmin TrustStores.sampleDevice, true⟩] := by decide +kernel
  obtain ⟨g, hbefore, hopened⟩ := Option.map_eq_some_iff.mp hfirst
  obtain ⟨h, hrun, hcommitted⟩ := Option.map_eq_some_iff.mp hsecond
  obtain ⟨g', hg', hafter⟩ := runs_append_iff.mp hrun
  obtain rfl := Option.some.inj (hbefore.symm.trans hg')
  have hopen : g.instances 0 = .opened := by
    cases hg : g.instances 0 with
    | opened => rfl
    | closed => rw [hg] at hopened; cases hopened
    | opening p => rw [hg] at hopened; cases hopened
  obtain ⟨events, h', hagain, hinstance, hsame, -⟩ :=
    reopens hbefore hopen hafter 1 0 false (fun _ => true)
  exact ⟨h, events, h', hrun, hagain, hinstance, hsame.trans hcommitted⟩

end StoreProcesses

end Gasoline
