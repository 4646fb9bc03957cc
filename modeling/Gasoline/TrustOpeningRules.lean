import Gasoline.TrustOpening

/-!
# What an opening of the trust store keeps

The state directory has at first any file under the database's name or none,
and any files beside it (`StoreOrigin`). `StoreOrigin.Accepts` is what the
constructor is to accept there, said without the constructor: a directory
without database and recovery files, or an intact database of this
application, of version 1 or 2, with the tables of its version and a device
or attempt behind every permission.

The invariant has two sides (`StoreInvariant`). Either nothing of what there
was has changed but the journal mode, and there may be a new database without
tables where there was nothing; or the origin is acceptable, and the database
holds what the operations that returned have made of its records.

A process relies on the initialization lock: while it holds it, others change
records and nothing else of the database, and not even records while its
transaction is open.
-/

namespace Gasoline

/-! ## What there is at first -/

namespace DatabaseImage

/-- An intact database of this application, of a version the constructor
knows. -/
structure Recognized (i : DatabaseImage) : Prop where
  intact : i.intact = true
  applicationId : i.applicationId = trustApplicationId
  least : 1 ≤ i.userVersion
  most : i.userVersion ≤ trustVersion

/-- **A database of the current version with these records.** -/
structure Holds (i : DatabaseImage) (db : Database) : Prop where
  intact : i.intact = true
  applicationId : i.applicationId = trustApplicationId
  userVersion : i.userVersion = trustVersion
  database : i.database? = some db

/-- Four tables that can be read have these rows. -/
theorem database?_eq_some {i : DatabaseImage} {db : Database} : i.database? = some db ↔
    i.trustedDevices = .rows db.trustedDevices ∧ i.devicePermissions = .rows db.devicePermissions
      ∧ i.pairingAttempts = .rows db.pairingAttempts
      ∧ i.pairingAttemptPermissions = .rows db.pairingAttemptPermissions := by
  obtain ⟨devices, permissions, attempts, attemptPermissions⟩ := db
  unfold database?
  cases i.trustedDevices <;> cases i.devicePermissions <;> cases i.pairingAttempts
    <;> cases i.pairingAttemptPermissions <;> simp [StoredTable.rows?]

/-- Other records are the records there are. -/
theorem database?_withDatabase (i : DatabaseImage) (db : Database) :
    (i.withDatabase db).database? = some db := rfl

/-- Other records in a database of the current version. -/
theorem Holds.withDatabase {i : DatabaseImage} {db : Database} (h : i.Holds db) (db' : Database) :
    (i.withDatabase db').Holds db' :=
  ⟨h.intact, h.applicationId, h.userVersion, database?_withDatabase i db'⟩

end DatabaseImage

/-- Behind every permission there is a row it belongs to. -/
def Anchored {R : Type} (key : R → SqlValue) (parents : List R)
    (children : List PermissionRow) : Prop :=
  ∀ c ∈ children, c.owner = .null ∨ ∃ r ∈ parents, key r = c.owner

/-- **What there is at first** in the state directory. -/
structure StoreOrigin where
  database : Option DatabaseFile
  sidecar : Sidecar → Bool

namespace StoreOrigin

/-- Neither a database nor a file beside one. -/
structure Fresh (o : StoreOrigin) : Prop where
  database : o.database = none
  sidecar : ∀ file, o.sidecar file = false

/-- **What the constructor is to accept**, and the records there are then. -/
inductive Accepts (o : StoreOrigin) : Database → Prop
  | fresh (hfresh : o.Fresh) : Accepts o .empty
  | version1 {i : DatabaseImage} {devices : List DeviceRow} {permissions : List PermissionRow}
      (hfile : o.database = some (.image i)) (hrecognized : i.Recognized)
      (hversion : i.userVersion = 1) (hdevices : i.trustedDevices = .rows devices)
      (hpermissions : i.devicePermissions = .rows permissions)
      (hattempts : i.pairingAttempts = .missing) (hpeer : i.pairingAttemptPeer = false)
      (hattemptPermissions : i.pairingAttemptPermissions = .missing)
      (hanchored : Anchored DeviceRow.uuid devices permissions) :
      Accepts o ⟨devices, permissions, [], []⟩
  | version2 {i : DatabaseImage} {db : Database} (hfile : o.database = some (.image i))
      (hholds : i.Holds db)
      (hdevices : Anchored DeviceRow.uuid db.trustedDevices db.devicePermissions)
      (hattempts : Anchored AttemptRow.attemptId db.pairingAttempts
        db.pairingAttemptPermissions) : Accepts o db

end StoreOrigin

/-! ## The invariant -/

/-- The instances open on a database with these records. -/
def TrustStores.on (db : Database) : TrustStores := ⟨db, fun _ => 0, fun _ => 0⟩

/-- **Nothing has changed but the journal mode**, and there may be a new
database without tables where there was nothing. -/
inductive Untouched (o : StoreOrigin) (database : Option DatabaseFile) (named : Bool) : Prop
  | kept (hdatabase : database = o.database) (hnamed : named = true ∨ o.database = none)
  | created (hfresh : o.Fresh) (hdatabase : database = some .empty)
  | initialized (hfresh : o.Fresh)
      (hdatabase : database = some (.image { DatabaseImage.blank with wal := true }))
      (hnamed : named = true)
  | converted (i : DatabaseImage) (hfile : o.database = some (.image i))
      (hrecognized : i.Recognized) (hdatabase : database = some (.image { i with wal := true }))
      (hnamed : named = true)

/-- **The database holds what the operations have made of the records there
were.** -/
structure Established (o : StoreOrigin) (s : TrustStorage) : Prop where
  holds : ∃ origin stores i, o.Accepts origin
    ∧ runs TrustStores.step (TrustStores.on origin) s.committed = some stores
    ∧ s.database = some (.image i) ∧ i.Holds stores.database
  named : s.named = true

/-- **The invariant of the state directory.** -/
structure StoreInvariant (o : StoreOrigin) (s : TrustStorage) : Prop where
  database : Established o s ∨ (s.committed = [] ∧ Untouched o s.database s.named)
  /-- SQLite never ran where only files beside a database were found. -/
  sidecar : (s.ran = false ∧ s.sidecar = o.sidecar)
    ∨ (o.database = none → ∀ file, o.sidecar file = false)
  /-- Until the constructor returns, its process writes under the lock. -/
  writer : ∀ process w, s.writer = some (process, w) → s.holder = some process

/-! ## Processes -/

/-- Others may have changed records, where there are the tables for them. -/
def Reshapes (d d' : Option DatabaseFile) : Prop :=
  d' = d ∨ ∃ i db db', i.database? = some db ∧ d = some (.image i)
    ∧ d' = some (.image (i.withDatabase db'))

namespace Reshapes

variable {d d' d'' : Option DatabaseFile}

theorem refl (d : Option DatabaseFile) : Reshapes d d := .inl rfl

theorem trans (h₁ : Reshapes d d') (h₂ : Reshapes d' d'') : Reshapes d d'' := by
  rcases h₁ with rfl | ⟨i, db, db', hdb, rfl, rfl⟩
  · exact h₂
  · rcases h₂ with rfl | ⟨j, -, db'', -, hj, rfl⟩
    · exact .inr ⟨i, db, db', hdb, rfl, rfl⟩
    · cases hj
      exact .inr ⟨i, db, db'', hdb, rfl, rfl⟩

theorem none_left (h : Reshapes none d') : d' = none := by
  rcases h with h | ⟨_, _, _, -, h, -⟩
  · exact h
  · cases h

/-- A file too short for a header stays as it is. -/
theorem short_left {n : Fin 100} (h : Reshapes (some (.short n)) d') : d' = some (.short n) := by
  rcases h with h | ⟨_, _, _, -, h, -⟩
  · exact h
  · cases h

theorem image_left {i : DatabaseImage} (h : Reshapes (some (.image i)) d') :
    ∃ j, d' = some (.image j)
      ∧ (j = i ∨ ∃ db db', i.database? = some db ∧ j = i.withDatabase db') := by
  rcases h with h | ⟨_, db, db', hdb, h, rfl⟩
  · exact ⟨i, h, .inl rfl⟩
  · cases h
    exact ⟨_, rfl, .inr ⟨db, db', hdb, rfl⟩⟩

end Reshapes

namespace TrustStorage

/-- The invariant is kept, and an established store stays one. -/
def Keeps (o : StoreOrigin) (s t : TrustStorage) : Prop :=
  StoreInvariant o s → StoreInvariant o t ∧ (Established o s → Established o t)

theorem Keeps.refl {o : StoreOrigin} (s : TrustStorage) : Keeps o s s := fun h => ⟨h, id⟩

theorem Keeps.trans {o : StoreOrigin} {s t u : TrustStorage} (h₁ : Keeps o s t)
    (h₂ : Keeps o t u) : Keeps o s u := fun h =>
  ⟨(h₂ (h₁ h).1).1, fun hs => (h₂ (h₁ h).1).2 ((h₁ h).2 hs)⟩

/-- **A process that opens the store.** -/
def actor (o : StoreOrigin) (process : ℕ) : Actor TrustStorage OpeningCall OpeningReply where
  step := step process
  Rely s t := Keeps o s t
    ∧ (s.holder = some process → t.holder = some process ∧ t.writer = s.writer
      ∧ Reshapes s.database t.database ∧ (s.named = true → t.named = true)
      ∧ (s.writer ≠ none → t.database = s.database))
    ∧ (s.holder ≠ some process → t.holder ≠ some process)
  Guarantee s t := Keeps o s t
    ∧ ((s.holder = some process ∧ t.holder = some process)
      ∨ (t.database = s.database ∧ t.writer = s.writer ∧ (s.named = true → t.named = true)
        ∧ (t.holder = s.holder ∨ (s.holder = none ∧ t.holder = some process))))
  rely_refl s := ⟨.refl s, fun h => ⟨h, rfl, .refl _, id, fun _ => rfl⟩, id⟩
  rely_trans := fun {s t u} h₁ h₂ => by
    refine ⟨h₁.1.trans h₂.1, fun h => ?_, fun h => h₂.2.2 (h₁.2.2 h)⟩
    obtain ⟨ht, hwt, hdt, hnt, hst⟩ := h₁.2.1 h
    obtain ⟨hu, hwu, hdu, hnu, hsu⟩ := h₂.2.1 ht
    exact ⟨hu, hwu.trans hwt, hdt.trans hdu, hnu ∘ hnt,
      fun hw => (hsu (hwt ▸ hw)).trans (hst hw)⟩

/-- The process does not hold the lock. -/
structure Outside (o : StoreOrigin) (process : ℕ) (s : TrustStorage) : Prop where
  invariant : StoreInvariant o s
  holder : s.holder ≠ some process

/-- What may be known of the database and of its name while others change
records. -/
abbrev Knowledge := Option DatabaseFile → Bool → Prop

/-- It outlasts that. -/
def Knowledge.Lasting (K : Knowledge) : Prop :=
  ∀ d d' n n', Reshapes d d' → (n = true → n' = true) → K d n → K d' n'

/-- **The process holds the lock**, has no transaction, and knows `K`. -/
structure Locked (o : StoreOrigin) (process : ℕ) (K : Knowledge) (s : TrustStorage) : Prop where
  invariant : StoreInvariant o s
  holder : s.holder = some process
  writer : s.writer = none
  known : K s.database s.named

/-- **The process holds the lock and has a transaction**, which has made `w`
of the database `i`. -/
structure Within (o : StoreOrigin) (process : ℕ) (i w : DatabaseImage) (s : TrustStorage) :
    Prop where
  invariant : StoreInvariant o s
  holder : s.holder = some process
  writer : s.writer = some (process, w)
  database : s.database = some (.image i)
  named : s.named = true

section Rules

variable {o : StoreOrigin} {process : ℕ} {K : Knowledge} {i w : DatabaseImage} {α : Type}

theorem stable_outside : (actor o process).Stable (Outside o process) :=
  fun _ _ hs hrely => ⟨(hrely.1 hs.invariant).1, hrely.2.2 hs.holder⟩

theorem stable_locked (hK : K.Lasting) : (actor o process).Stable (Locked o process K) := by
  intro s t hs hrely
  obtain ⟨hholder, hwriter, hdatabase, hnamed, -⟩ := hrely.2.1 hs.holder
  exact ⟨(hrely.1 hs.invariant).1, hholder, hwriter.trans hs.writer,
    hK _ _ _ _ hdatabase hnamed hs.known⟩

theorem stable_within : (actor o process).Stable (Within o process i w) := by
  intro s t hs hrely
  obtain ⟨hholder, hwriter, -, hnamed, hsame⟩ := hrely.2.1 hs.holder
  have hopen : s.writer ≠ none := by
    rw [hs.writer]
    exact Option.some_ne_none _
  exact ⟨(hrely.1 hs.invariant).1, hholder, hwriter.trans hs.writer,
    (hsame hopen).trans hs.database, hnamed hs.named⟩

/-- A step that changes nothing keeps every guarantee. -/
theorem guarantee_refl (s : TrustStorage) : (actor o process).Guarantee s s :=
  ⟨.refl s, .inr ⟨rfl, rfl, id, .inl rfl⟩⟩

/-- The calls that change nothing, whatever they reply. -/
def isIdle : OpeningCall → Bool
  | .syncDirectory => false
  | .lock => false
  | .createDatabase => false
  | .openSqlite => false
  | .journalMode => false
  | .beginImmediate => false
  | .execute _ => false
  | .commit => false
  | _ => true

theorem eq_of_answer {s t : TrustStorage} {condition : Bool}
    (h : s.answer condition = some t) : t = s ∧ condition = true := by
  unfold answer at h
  split at h
  · rename_i hcondition
    exact ⟨(Option.some.inj h).symm, hcondition⟩
  · cases h

theorem eq_of_isIdle {c : OpeningCall} (h : isIdle c = true) {s t : TrustStorage}
    {r : OpeningReply} (hstep : step process s c r = some t) : t = s := by
  cases c <;> first
    | exact absurd h Bool.false_ne_true
    | (cases r <;> first
        | exact (Option.some.inj hstep).symm
        | exact (eq_of_answer hstep).1
        | cases hstep)

/-- **A call that changes nothing**, with what its reply says. -/
theorem call_idle {P : TrustStorage → Prop} {Q : α → TrustStorage → Prop} {c : OpeningCall}
    {next : OpeningReply → OpeningProg α} (hP : (actor o process).Stable P)
    (hidle : isIdle c = true)
    (hnext : ∀ r, (actor o process).Triple (fun s => P s ∧ step process s c r = some s) (next r) Q) :
    (actor o process).Triple P (.call c next) Q := by
  refine .call (M := fun r s => P s ∧ step process s c r = some s) hP (fun s r t hs hstep => ?_)
    hnext
  obtain rfl := eq_of_isIdle hidle hstep
  exact ⟨guarantee_refl _, hs, hstep⟩

/-- A call that changes nothing, and must succeed. -/
theorem perform_idle {P : TrustStorage → Prop} {c : OpeningCall} {message : String}
    (hP : (actor o process).Stable P) (hidle : isIdle c = true) :
    (actor o process).Triple P (TrustOpening.perform c message) (fun _ => P) := by
  refine call_idle hP hidle (fun r => ?_)
  split
  · exact (Actor.Triple.done hP (fun _ hs => hs)).weaken (fun _ hs => hs.1)
  · exact .failed

theorem demand_triple {P : TrustStorage → Prop} {condition : Bool} {message : String}
    (hP : (actor o process).Stable P) :
    (actor o process).Triple P (TrustOpening.demand condition message)
      (fun _ s => P s ∧ condition = true) := by
  unfold TrustOpening.demand
  split
  · rename_i h
    exact .done hP (fun _ hs => ⟨hs, h⟩)
  · exact .failed

end Rules

/-! ## Before the lock -/

section Outside

variable {o : StoreOrigin} {process : ℕ}

/-- What the invariant says of the database does not depend on its lock, nor
on whether SQLite ran. -/
theorem keeps_of_database {s t : TrustStorage} (hdatabase : t.database = s.database)
    (hnamed : s.named = true → t.named = true) (hcommitted : t.committed = s.committed)
    (hsidecar : t.sidecar = s.sidecar) (hran : t.ran = s.ran)
    (hwriter : ∀ p w, t.writer = some (p, w) → t.holder = some p) : Keeps o s t := by
  intro h
  have hestablished : Established o s → Established o t := by
    rintro ⟨⟨origin, stores, i, haccepts, hruns, himage, hholds⟩, hs⟩
    exact ⟨⟨origin, stores, i, haccepts, hcommitted ▸ hruns, hdatabase.trans himage, hholds⟩,
      hnamed hs⟩
  refine ⟨⟨?_, ?_, hwriter⟩, hestablished⟩
  · refine h.database.imp hestablished (fun hs => ⟨hcommitted.trans hs.1, ?_⟩)
    rw [hdatabase]
    cases hs.2 with
    | kept hd hn => exact .kept hd (hn.imp_left hnamed)
    | created hfresh hd => exact .created hfresh hd
    | initialized hfresh hd hn => exact .initialized hfresh hd (hnamed hn)
    | converted i hfile hrecognized hd hn => exact .converted i hfile hrecognized hd (hnamed hn)
  · rw [hsidecar, hran]
    exact h.sidecar

/-- `fsync` of the directory makes the name durable. -/
theorem keeps_syncDirectory (s : TrustStorage) : Keeps o s { s with named := true } :=
  fun h => keeps_of_database (s := s) rfl (fun _ => rfl) rfl rfl rfl h.writer h

theorem step_syncDirectory {s t : TrustStorage} {r : OpeningReply}
    (h : step process s .syncDirectory r = some t) :
    (r = .error ∧ t = s) ∨ (r = .ok ∧ t = { s with named := true }) := by
  cases r with
  | error => exact .inl ⟨rfl, (Option.some.inj h).symm⟩
  | ok => exact .inr ⟨rfl, (Option.some.inj h).symm⟩
  | _ => cases h

/-- The directory may be synced at any time. -/
theorem guarantee_syncDirectory (s : TrustStorage) :
    (actor o process).Guarantee s { s with named := true } :=
  ⟨keeps_syncDirectory s, .inr ⟨rfl, rfl, fun _ => rfl, .inl rfl⟩⟩

theorem perform_outside {c : OpeningCall} {message : String} (hidle : isIdle c = true) :
    (actor o process).Triple (Outside o process) (TrustOpening.perform c message)
      (fun _ => Outside o process) := perform_idle stable_outside hidle

theorem perform_syncDirectory_outside {message : String} :
    (actor o process).Triple (Outside o process) (TrustOpening.perform .syncDirectory message)
      (fun _ => Outside o process) := by
  refine .call (M := fun _ => Outside o process) stable_outside (fun s r t hs hstep => ?_)
    (fun r => ?_)
  · rcases step_syncDirectory hstep with ⟨-, rfl⟩ | ⟨-, rfl⟩
    · exact ⟨guarantee_refl _, hs⟩
    · exact ⟨guarantee_syncDirectory s, (keeps_syncDirectory s hs.invariant).1, hs.holder⟩
  · split
    · exact .done stable_outside (fun _ hs => hs)
    · exact .failed

theorem syncTree_triple (above : ℕ) (sync : OpeningCall)
    (hsync : ∀ message, (actor o process).Triple (Outside o process)
      (TrustOpening.perform sync message) (fun _ => Outside o process)) :
    (actor o process).Triple (Outside o process) (TrustOpening.syncTree sync above)
      (fun _ => Outside o process) := by
  induction above generalizing sync with
  | zero =>
    exact .bind (hsync _) (fun _ => .bind (perform_outside rfl) (fun _ => perform_outside rfl))
  | succ above ih =>
    refine .bind (hsync _) (fun _ => .bind (perform_outside rfl)
      (fun _ => .bind (perform_outside rfl) (fun _ => ih _ (fun _ => perform_outside rfl))))

theorem openStateDirectory_triple (above : ℕ) :
    (actor o process).Triple (Outside o process) (TrustOpening.openStateDirectory above)
      (fun _ => Outside o process) := by
  refine .bind (perform_outside rfl) (fun _ => .bind (perform_outside rfl)
    (fun _ => .bind (perform_outside rfl) (fun _ => .bind (perform_outside rfl)
    (fun _ => .bind (perform_outside rfl) (fun _ => .bind ?_ (fun _ => perform_outside rfl))))))
  exact syncTree_triple above _ (fun _ => perform_syncDirectory_outside)

/-- Nothing is known of the database yet. -/
def Knowledge.nothing : Knowledge := fun _ _ => True

theorem Knowledge.lasting_nothing : Knowledge.nothing.Lasting := fun _ _ _ _ _ _ _ => trivial

/-- The lock is taken where nobody holds it. -/
theorem step_lock {s t : TrustStorage} {r : OpeningReply}
    (h : step process s .lock r = some t) : (r = .error ∧ t = s)
      ∨ (r = .ok ∧ s.holder = none ∧ t = { s with holder := some process }) := by
  cases r with
  | error => exact .inl ⟨rfl, (Option.some.inj h).symm⟩
  | ok =>
    change (if s.holder = none then some _ else none) = some t at h
    split at h
    · rename_i hnone
      exact .inr ⟨rfl, hnone, (Option.some.inj h).symm⟩
    · cases h
  | _ => cases h

/-- `inspect_file`, of a file whose presence says nothing. -/
theorem inspectFile_idle {P : TrustStorage → Prop} {c : OpeningCall}
    (hP : (actor o process).Stable P) (hidle : isIdle c = true) :
    (actor o process).Triple P (TrustOpening.inspectFile c) (fun _ => P) := by
  refine call_idle hP hidle (fun r => ?_)
  split <;> first
    | exact (Actor.Triple.done hP (fun _ hs => hs)).weaken (fun _ hs => hs.1)
    | exact .failed

/-- **A process that gets the lock** finds no transaction under way. -/
theorem acquireLock_triple :
    (actor o process).Triple (Outside o process) TrustOpening.acquireLock
      (fun _ => Locked o process .nothing) := by
  refine .bind (perform_outside rfl)
    (fun _ => .bind (inspectFile_idle stable_outside rfl) (fun _ => ?_))
  refine .call (M := fun r s => r = .ok → Locked o process .nothing s) stable_outside
    (fun s r t hs hstep => ?_) (fun r => ?_)
  · rcases step_lock hstep with ⟨rfl, rfl⟩ | ⟨-, hnone, rfl⟩
    · exact ⟨guarantee_refl _, fun hr => by cases hr⟩
    · have hwriter : s.writer = none := by
        cases hw : s.writer with
        | none => rfl
        | some pw =>
          have hheld := hs.invariant.writer pw.1 pw.2 hw
          rw [hnone] at hheld
          cases hheld
      have hkeeps : Keeps o s { s with holder := some process } := by
        refine keeps_of_database rfl id rfl rfl rfl (fun p w hw => ?_)
        rw [show s.writer = some (p, w) from hw] at hwriter
        cases hwriter
      exact ⟨⟨hkeeps, .inr ⟨rfl, rfl, id, .inr ⟨hnone, rfl⟩⟩⟩,
        fun _ => ⟨(hkeeps hs.invariant).1, rfl, hwriter, trivial⟩⟩
  · split
    · rename_i hr
      exact (Actor.Triple.done (stable_locked Knowledge.lasting_nothing) (fun _ hs => hs)).weaken
        (fun _ hs => hs hr)
    · exact .failed

end Outside

/-! ## Calls that tell something -/

section Telling

variable {o : StoreOrigin} {process : ℕ} {P Q : TrustStorage → Prop} {c : OpeningCall}

/-- A call that must succeed, with what its success says. -/
theorem perform_tells {message : String} (hP : (actor o process).Stable P)
    (hQ : (actor o process).Stable Q) (hidle : isIdle c = true)
    (htells : ∀ s, P s → step process s c .ok = some s → Q s) :
    (actor o process).Triple P (TrustOpening.perform c message) (fun _ => Q) := by
  refine call_idle hP hidle (fun r => ?_)
  split
  · rename_i hr
    subst hr
    exact (Actor.Triple.done hQ (fun _ hs => hs)).weaken (fun s hs => htells s hs.1 hs.2)
  · exact .failed

/-- `inspect_file`, with what its result says. -/
theorem inspectFile_tells {Q : Option ℕ → TrustStorage → Prop} (hP : (actor o process).Stable P)
    (hQ : ∀ size, (actor o process).Stable (Q size)) (hidle : isIdle c = true)
    (habsent : ∀ s, P s → step process s c .absent = some s → Q none s)
    (hpresent : ∀ s n, P s → step process s c (.present n) = some s → Q (some n) s) :
    (actor o process).Triple P (TrustOpening.inspectFile c) Q := by
  refine call_idle hP hidle (fun r => ?_)
  cases r with
  | absent =>
    exact (Actor.Triple.done (hQ none) (fun _ hs => hs)).weaken (fun s hs => habsent s hs.1 hs.2)
  | present n =>
    exact (Actor.Triple.done (hQ (some n)) (fun _ hs => hs)).weaken
      (fun s hs => hpresent s n hs.1 hs.2)
  | _ => exact .failed

/-- `pragma_integer`, with what its result says. -/
theorem pragmaInteger_tells {Q : ℤ → TrustStorage → Prop} (hP : (actor o process).Stable P)
    (hQ : ∀ value, (actor o process).Stable (Q value)) (hidle : isIdle c = true)
    (htells : ∀ s value, P s → step process s c (.integer value) = some s → Q value s) :
    (actor o process).Triple P (TrustOpening.pragmaInteger c) Q := by
  refine call_idle hP hidle (fun r => ?_)
  cases r with
  | integer value =>
    exact (Actor.Triple.done (hQ value) (fun _ hs => hs)).weaken
      (fun s hs => htells s value hs.1 hs.2)
  | row found => cases found <;> exact .failed
  | _ => exact .failed

/-- `pragma_text`, with what its result says. -/
theorem pragmaText_tells {Q : String → TrustStorage → Prop} (hP : (actor o process).Stable P)
    (hQ : ∀ value, (actor o process).Stable (Q value)) (hidle : isIdle c = true)
    (htells : ∀ s value, P s → step process s c (.text value) = some s → Q value s) :
    (actor o process).Triple P (TrustOpening.pragmaText c) Q := by
  refine call_idle hP hidle (fun r => ?_)
  cases r with
  | text value =>
    exact (Actor.Triple.done (hQ value) (fun _ hs => hs)).weaken
      (fun s hs => htells s value hs.1 hs.2)
  | row found => cases found <;> exact .failed
  | _ => exact .failed

end Telling

/-! ## The database file -/

section Prepare

variable {o : StoreOrigin} {process : ℕ} {K : Knowledge}

/-- Where there was no database, there was nothing beside it once there is
one. -/
theorem sidecar_of_database {s : TrustStorage} (h : StoreInvariant o s) (hs : s.database ≠ none)
    (ho : o.database = none) : ∀ file, o.sidecar file = false := by
  rcases h.database with hestablished | ⟨-, huntouched⟩
  · obtain ⟨⟨origin, stores, i, haccepts, -⟩, -⟩ := hestablished
    cases haccepts with
    | fresh hfresh => exact hfresh.sidecar
    | version1 hfile => rw [ho] at hfile; cases hfile
    | version2 hfile => rw [ho] at hfile; cases hfile
  · cases huntouched with
    | kept hdatabase => exact absurd (hdatabase.trans ho) hs
    | created hfresh => exact hfresh.sidecar
    | initialized hfresh => exact hfresh.sidecar
    | converted i hfile => rw [ho] at hfile; cases hfile

/-- A missing database was missing at first. -/
theorem origin_of_missing {s : TrustStorage} (h : StoreInvariant o s) (hs : s.database = none) :
    o.database = none := by
  rcases h.database with hestablished | ⟨-, huntouched⟩
  · obtain ⟨⟨origin, stores, i, -, -, himage, -⟩, -⟩ := hestablished
    rw [hs] at himage
    cases himage
  · cases huntouched with
    | kept hdatabase => exact hdatabase.symm.trans hs
    | created _ hdatabase => rw [hs] at hdatabase; cases hdatabase
    | initialized _ hdatabase => rw [hs] at hdatabase; cases hdatabase
    | converted _ _ _ hdatabase => rw [hs] at hdatabase; cases hdatabase

/-- **What the process found under the database's name**: a file that was
there, or the empty one it has created. Of what SQLite reads in it `p` is
known. -/
def Knowledge.found (o : StoreOrigin) (existing : Bool) (p : DatabaseImage → Prop) : Knowledge :=
  fun d n => (existing = true ∧ ∃ i, d = some (.image i) ∧ p i)
    ∨ (existing = false ∧ o.Fresh ∧ d = some .empty ∧ n = true ∧ p .blank)

/-- What does not depend on the records may be known. -/
theorem Knowledge.lasting_found {existing : Bool} {p : DatabaseImage → Prop}
    (hp : ∀ i db, p i → p (i.withDatabase db)) : (Knowledge.found o existing p).Lasting := by
  rintro d d' n n' hd hn (⟨he, i, rfl, hi⟩ | ⟨he, hfresh, rfl, hnamed, hblank⟩)
  · obtain ⟨j, rfl, rfl | ⟨-, db', -, rfl⟩⟩ := hd.image_left
    · exact .inl ⟨he, j, rfl, hi⟩
    · exact .inl ⟨he, _, rfl, hp i db' hi⟩
  · exact .inr ⟨he, hfresh, hd.short_left, hn hnamed, hblank⟩

/-- What a file under the database's name may be known to be. -/
def Knowledge.sized (size : Option ℕ) : Knowledge := fun d _ =>
  (size = none ∧ d = none) ∨ ∃ n f, size = some n ∧ d = some f ∧ f.hasSize n = true

theorem Knowledge.lasting_sized (size : Option ℕ) : (Knowledge.sized size).Lasting := by
  rintro d d' n n' hd - (⟨hsize, rfl⟩ | ⟨m, f, hsize, rfl, hf⟩)
  · exact .inl ⟨hsize, hd.none_left⟩
  · cases f with
    | short k => exact .inr ⟨m, _, hsize, hd.short_left, hf⟩
    | image i =>
      obtain ⟨j, rfl, -⟩ := hd.image_left
      exact .inr ⟨m, _, hsize, rfl, hf⟩

theorem inspectDatabase_triple :
    (actor o process).Triple (Locked o process .nothing)
      (TrustOpening.inspectFile .inspectDatabase)
      (fun size => Locked o process (.sized size)) := by
  refine inspectFile_tells (stable_locked Knowledge.lasting_nothing)
    (fun size => stable_locked (Knowledge.lasting_sized size)) rfl ?_ ?_
  · intro s hs hstep
    refine ⟨hs.invariant, hs.holder, hs.writer, .inl ⟨rfl, ?_⟩⟩
    exact Option.isNone_iff_eq_none.mp (eq_of_answer hstep).2
  · intro s n hs hstep
    obtain ⟨f, hf, hsize⟩ := (Option.any_eq_true _ _).mp (eq_of_answer hstep).2
    exact ⟨hs.invariant, hs.holder, hs.writer, .inr ⟨n, f, rfl, hf, hsize⟩⟩

/-- The files beside the database: where none is found, none was there at
first beside no database. -/
theorem inspectSidecars_triple (hK : K.Lasting) (files : List Sidecar) (sidecar : Bool) :
    (actor o process).Triple (Locked o process K) (TrustOpening.inspectSidecars files sidecar)
      (fun found s => Locked o process K s ∧ (found = false → sidecar = false
        ∧ ∀ file ∈ files, o.database = none → o.sidecar file = false)) := by
  induction files generalizing sidecar with
  | nil =>
    exact .done (stable_locked hK) (fun s hs => ⟨hs, fun h => ⟨h, by simp⟩⟩)
  | cons file rest ih =>
    refine .bind (M := fun size s => Locked o process K s
      ∧ (size = none → o.database = none → o.sidecar file = false)) ?_ (fun size => ?_)
    · refine inspectFile_tells (stable_locked hK)
        (fun size s t hs hrely => ⟨stable_locked hK s t hs.1 hrely, hs.2⟩) rfl ?_ ?_
      · intro s hs hstep
        refine ⟨hs, fun _ ho => ?_⟩
        have habsent : s.sidecar file = false := by simpa using (eq_of_answer hstep).2
        rcases hs.invariant.sidecar with ⟨-, hsidecar⟩ | hnone
        · rw [← hsidecar, habsent]
        · exact hnone ho file
      · exact fun s n hs _ => ⟨hs, fun h => by cases h⟩
    · intro s hs
      refine ((ih (size.isSome || sidecar)).consequence (fun _ h => h) ?_) s hs.1
      rintro found t ⟨ht, hfound⟩
      refine ⟨ht, fun h => ?_⟩
      obtain ⟨hor, hrest⟩ := hfound h
      rw [Bool.or_eq_false_iff, Option.isSome_eq_false_iff, Option.isNone_iff_eq_none] at hor
      refine ⟨hor.2, fun g hg => ?_⟩
      rcases List.mem_cons.mp hg with rfl | hg
      · exact hs.2 hor.1
      · exact hrest g hg

/-- The database is created where there is none. -/
theorem step_createDatabase {s t : TrustStorage} {r : OpeningReply}
    (h : step process s .createDatabase r = some t) : (r = .error ∧ t = s)
      ∨ (r = .ok ∧ s.database = none
        ∧ t = { s with database := some .empty, named := false }) := by
  cases r with
  | error => exact .inl ⟨rfl, (Option.some.inj h).symm⟩
  | ok =>
    change (if s.database = none then some _ else none) = some t at h
    split at h
    · rename_i hnone
      exact .inr ⟨rfl, hnone, (Option.some.inj h).symm⟩
    · cases h
  | _ => cases h

/-- **A step of the process that holds the lock** which must succeed: what it
does to the directory keeps the invariant. -/
theorem perform_locked {P Q : TrustStorage → Prop} {c : OpeningCall} {message : String}
    (hP : (actor o process).Stable P) (hQ : (actor o process).Stable Q)
    (hstep : ∀ s r t, P s → step process s c r = some t →
      (r = .error ∧ t = s) ∨ (Keeps o s t ∧ s.holder = some process ∧ t.holder = some process
        ∧ Q t)) :
    (actor o process).Triple P (TrustOpening.perform c message) (fun _ => Q) := by
  refine .call (M := fun r s => r = .ok → Q s) hP (fun s r t hs ht => ?_) (fun r => ?_)
  · rcases hstep s r t hs ht with ⟨rfl, rfl⟩ | ⟨hkeeps, hholder, hholder', hQt⟩
    · exact ⟨guarantee_refl _, fun hr => by cases hr⟩
    · exact ⟨⟨hkeeps, .inl ⟨hholder, hholder'⟩⟩, fun _ => hQt⟩
  · split
    · rename_i hr
      exact (Actor.Triple.done hQ (fun _ hs => hs)).weaken (fun _ hs => hs hr)
    · exact .failed

/-- The empty file the process has created. -/
def Knowledge.created (o : StoreOrigin) : Knowledge := fun d _ => o.Fresh ∧ d = some .empty

theorem Knowledge.lasting_created : (Knowledge.created o).Lasting := by
  rintro d d' n n' hd - ⟨hfresh, rfl⟩
  exact ⟨hfresh, hd.short_left⟩

/-- A new file in an empty directory keeps the invariant. -/
theorem keeps_createDatabase {s : TrustStorage} (hfresh : o.Fresh) (hs : s.database = none) :
    Keeps o s { s with database := some .empty, named := false } := by
  intro h
  have hno : ¬ Established o s := by
    rintro ⟨⟨_, _, i, -, -, himage, -⟩, -⟩
    rw [hs] at himage
    cases himage
  have huntouched := h.database.resolve_left hno
  exact ⟨⟨.inr ⟨huntouched.1, .created hfresh rfl⟩, h.sidecar, h.writer⟩,
    fun hestablished => absurd hestablished hno⟩

theorem createDatabase_triple {message : String} (hfresh : o.Fresh) :
    (actor o process).Triple (Locked o process (.sized none))
      (TrustOpening.perform .createDatabase message)
      (fun _ => Locked o process (.created o)) := by
  refine perform_locked (stable_locked (Knowledge.lasting_sized none))
    (stable_locked Knowledge.lasting_created) (fun s r t hs hstep => ?_)
  rcases step_createDatabase hstep with herror | ⟨-, hnone, rfl⟩
  · exact .inl herror
  · have hkeeps := keeps_createDatabase hfresh hnone
    exact .inr ⟨hkeeps, hs.holder, hs.holder,
      (hkeeps hs.invariant).1, hs.holder, hs.writer, hfresh, rfl⟩

/-- The directory is synced behind the new file. -/
theorem syncCreated_triple {message : String} :
    (actor o process).Triple (Locked o process (.created o))
      (TrustOpening.perform .syncDirectory message)
      (fun _ => Locked o process (.found o false (fun _ => True))) := by
  refine perform_locked (stable_locked Knowledge.lasting_created)
    (stable_locked (Knowledge.lasting_found (fun _ _ _ => trivial))) (fun s r t hs hstep => ?_)
  rcases step_syncDirectory hstep with herror | ⟨-, rfl⟩
  · exact .inl herror
  · exact .inr ⟨keeps_syncDirectory s, hs.holder, hs.holder,
      (keeps_syncDirectory s hs.invariant).1, hs.holder, hs.writer,
      .inr ⟨rfl, hs.known.1, hs.known.2, rfl, trivial⟩⟩

/-- **The database file**: one that was there and is long enough, or a new
one in a directory that had neither a database nor files beside one. -/
theorem prepareDatabase_triple :
    (actor o process).Triple (Locked o process .nothing) TrustOpening.prepareDatabase
      (fun existing => Locked o process (.found o existing (fun _ => True))) := by
  refine .bind inspectDatabase_triple (fun size => ?_)
  have hsized : (actor o process).Stable (Locked o process (.sized size)) :=
    stable_locked (Knowledge.lasting_sized size)
  refine .bind (inspectSidecars_triple (Knowledge.lasting_sized size) _ false) (fun sidecar => ?_)
  refine .bind (demand_triple (fun s t hs hrely => ⟨hsized s t hs.1 hrely, hs.2⟩)) (fun _ => ?_)
  cases size with
  | none =>
    rintro s ⟨⟨hs, hsidecar⟩, hdemand⟩
    have hnone : s.database = none := by
      rcases hs.known with ⟨-, hnone⟩ | ⟨_, _, hsome, -⟩
      · exact hnone
      · cases hsome
    have ho := origin_of_missing hs.invariant hnone
    have hfresh : o.Fresh := by
      refine ⟨ho, fun file => ?_⟩
      have hfile := (hsidecar (by simpa using hdemand)).2 file
      cases file <;> exact hfile (by decide) ho
    have hcreated : (actor o process).Stable (Locked o process (.created o)) :=
      stable_locked Knowledge.lasting_created
    have htriple : (actor o process).Triple (Locked o process (.sized none))
        (TrustOpening.perform .createDatabase "cannot open storage handle" >>= fun _ =>
          TrustOpening.perform .chmodDatabase "cannot secure database file" >>= fun _ =>
          TrustOpening.perform .syncDatabase "cannot synchronize storage directory" >>= fun _ =>
          TrustOpening.perform .syncDirectory "cannot synchronize storage directory" >>= fun _ =>
          pure false)
        (fun existing => Locked o process (.found o existing (fun _ => True))) := by
      refine .bind (createDatabase_triple hfresh) (fun _ => .bind (perform_idle hcreated rfl)
        (fun _ => .bind (perform_idle hcreated rfl) (fun _ => .bind syncCreated_triple (fun _ => ?_))))
      exact .done (stable_locked (Knowledge.lasting_found (fun _ _ _ => trivial))) (fun _ hs => hs)
    exact htriple s hs
  | some n =>
    refine .bind (M := fun _ => Locked o process (.found o true (fun _ => True))) ?_ (fun _ => ?_)
    · refine ((demand_triple hsized).weaken (fun s hs => hs.1.1)).consequence (fun _ hs => hs) ?_
      rintro _ s ⟨hs, hlong⟩
      refine ⟨hs.invariant, hs.holder, hs.writer, .inl ⟨rfl, ?_⟩⟩
      rcases hs.known with ⟨hnone, -⟩ | ⟨m, f, hsome, hf, hsize⟩
      · cases hnone
      · cases hsome
        cases f with
        | short k =>
          have hk : n = k.val := by simpa [DatabaseFile.hasSize] using hsize
          have hbound := k.isLt
          have hle : 100 ≤ n := of_decide_eq_true hlong
          omega
        | image i => exact ⟨i, hf, trivial⟩
    · exact .done (stable_locked (Knowledge.lasting_found (fun _ _ _ => trivial))) (fun _ hs => hs)

end Prepare

end TrustStorage

end Gasoline
