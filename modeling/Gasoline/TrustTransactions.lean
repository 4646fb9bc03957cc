import Gasoline.FailingPrograms
import Gasoline.TrustRecords

/-!
# Transactions

An operation of the trust store is a sequence of statements, and any of them
may fail: a check of the store's own rejects an argument, a constraint of the
schema rejects a row, or SQLite cannot run the statement (a busy database, a
full disk). What the statements before it have written is then in the
transaction already. It is the destructor of `Transaction` that takes it
back.

Here the operations are run one statement after the other on a handle, which
has what is committed and what the transaction under way has made of it
(`StoreOperation.call`). A call that returns has done what the operation does
in one piece, and a call that throws, at whatever statement, leaves what is
committed as it was (`StoreOperation.call_spec`).
-/

namespace Gasoline

/-- What a call throws: an error of the store or of a constraint, or a
failure of SQLite or of the file system. -/
inductive CallError
  | store (e : StoreError)
  | fault
  deriving DecidableEq, Repr

/-- **An instance's handle of the database.** -/
structure SqlHandle where
  committed : Database
  /-- What the transaction under way sees. -/
  working : Option Database
  /-- Whether each of the steps to come that SQLite or the file system may
  refuse is refused. -/
  faults : List Bool

/-- A part of an operation. What it has done is there after it has thrown. -/
abbrev Sql := EStateM CallError SqlHandle

namespace Sql

variable {α β : Type}

/-- A step that may be refused. -/
def attempt : Sql Unit := do
  let h ← get
  match h.faults with
  | [] => pure ()
  | fault :: faults =>
    set { h with faults := faults }
    if fault then throw .fault

/-- A check that reads nothing of the database. -/
def check (e : Except StoreError α) : Sql α :=
  match e with
  | .ok a => pure a
  | .error e => throw (.store e)

/-- **A statement**: it takes effect as a whole, or throws and changes
nothing. Outside a transaction it is committed at once. -/
def statement (f : Database → Except StoreError (Database × α)) : Sql α := do
  attempt
  let h ← get
  match f (h.working.getD h.committed) with
  | .error e => throw (.store e)
  | .ok (db, a) =>
    set (match h.working with
      | none => { h with committed := db }
      | some _ => { h with working := some db })
    pure a

/-- What a call has thrown. -/
def thrown (r : EStateM.Result CallError SqlHandle Unit) : Option CallError :=
  match r with
  | .ok _ _ => none
  | .error e _ => some e

theorem thrown_eq_none {r : EStateM.Result CallError SqlHandle Unit} :
    thrown r = none ↔ ∃ h, r = .ok () h := by
  cases r <;> simp [thrown]

theorem thrown_eq_some {r : EStateM.Result CallError SqlHandle Unit} {e : CallError} :
    thrown r = some e ↔ ∃ h, r = .error e h := by
  cases r <;> simp [thrown]

/-- A statement that returns nothing. -/
def execute (f : Database → Except StoreError Database) : Sql Unit :=
  statement (fun db => (f db).map (fun db' => (db', ())))

/-- A statement that reads. -/
def query (f : Database → Except StoreError α) : Sql α :=
  statement (fun db => (f db).map (fun a => (db, a)))

/-- **`Transaction`** around a body: `BEGIN IMMEDIATE`, the body, `COMMIT`;
and where the body or the commit throws, the destructor's `ROLLBACK`. -/
def transaction (body : Sql Unit) : Sql Unit := do
  attempt
  modify (fun h => { h with working := some h.committed })
  tryCatch
    (do
      body
      attempt
      modify (fun h => { h with committed := h.working.getD h.committed, working := none }))
    (fun e => do
      modify (fun h => { h with working := none })
      throw e)

/-- The loop of `write_permissions`. -/
def writePermissionRows (insert : Database → Params → Except StoreError Database)
    (id : TrustUuid) : List Bytes → Sql Unit
  | [] => pure ()
  | permission :: permissions => do
    let p ← check ((Params.empty.bind 1 (blobOf id)).bindText 2 permission)
    execute (fun db => insert db p)
    writePermissionRows insert id permissions

/-- `write_permissions`. -/
def writePermissions (id : TrustUuid) (permissions : List Bytes) (attempt : Bool) :
    Sql Unit := do
  check (require (decide (permissions.length ≤ 128)) "too many permissions")
  writePermissionRows
    (if attempt then Database.insertAttemptPermission else Database.insertDevicePermission)
    id permissions

end Sql

namespace TrustStore

open Sql

/-- `import_device_for_admin`. -/
def callImportDeviceForAdmin (device : TrustedDevice) : Sql Unit := do
  check (require (device.revision == 1) "initial trust revision must be one")
  attempt
  transaction do
    let p ← check (bindDevice device)
    execute (fun db => db.insertDevice p)
    Sql.writePermissions device.uuid device.permissions false

/-- `update_device`. -/
def callUpdateDevice (device : TrustedDevice) (expectedRevision : Int64) : Sql Unit := do
  check (nextRevision device.revision expectedRevision)
  attempt
  transaction do
    let p ← check (bindDevice device)
    let p := p.bind 12 (.integer expectedRevision)
    let changes ← statement (fun db => db.updateDevices
      (fun r => r.uuid.equals (p 1) && r.publicKey.equals (p 2) && r.status.equals (p 3)
        && r.revision.equals (p 12))
      (setDevice p))
    check (changedOne changes)
    execute (fun db => .ok (db.deleteDevicePermissions (blobOf device.uuid)))
    Sql.writePermissions device.uuid device.permissions false

/-- `revoke_device`. -/
def callRevokeDevice (uuid : TrustUuid) (expectedRevision revokedAt : Int64) : Sql Unit := do
  check (require (decide (0 < expectedRevision) && decide (expectedRevision < Int64.maxValue))
    "invalid trust revision")
  attempt
  transaction do
    let changes ← statement (fun db => db.updateDevices
      (fun r => r.uuid.equals (blobOf uuid) && r.revision.equals (.integer expectedRevision))
      (fun r => { r with
        status := .text (ascii "REVOKED")
        revision := r.revision.succ
        revokedAt := .integer revokedAt }))
    check (changedOne changes)
    execute (fun db => .ok (db.deleteDevicePermissions (blobOf uuid)))

/-- `create_attempt`. -/
def callCreateAttempt (attempt : PairingAttempt) : Sql Unit := do
  check (require (attempt.revision == 1) "initial attempt revision must be one")
  Sql.attempt
  transaction do
    let p ← check (bindAttempt attempt)
    execute (fun db => db.insertAttempt p)
    Sql.writePermissions attempt.attemptId attempt.proposedPermissions true

/-- `update_attempt`. -/
def callUpdateAttempt (attempt : PairingAttempt) (expectedRevision : Int64) : Sql Unit := do
  check (nextRevision attempt.revision expectedRevision)
  Sql.attempt
  transaction do
    let p ← check (bindAttempt attempt)
    let p := p.bind 11 (.integer expectedRevision)
    let changes ← statement (fun db => db.updateAttempts
      (fun r => r.attemptId.equals (p 1) && r.peerUuid.equals (p 2)
        && r.peerPublicKey.equals (p 3) && r.createdAt.equals (p 8) && r.revision.equals (p 11))
      (fun r => { r with
        status := p 4
        revision := p 5
        localConfirmed := p 6
        peerConfirmed := p 7
        updatedAt := p 9
        expiresAt := p 10 }))
    check (changedOne changes)
    execute (fun db => .ok (db.deleteAttemptPermissions (blobOf attempt.attemptId)))
    Sql.writePermissions attempt.attemptId attempt.proposedPermissions true

/-- `delete_attempt`. -/
def callDeleteAttempt (id : TrustUuid) (expectedRevision : Int64) : Sql Unit := do
  attempt
  transaction do
    let changes ← statement (fun db => .ok (db.deleteAttempts (fun r =>
      r.attemptId.equals (blobOf id) && r.revision.equals (.integer expectedRevision))))
    check (changedOne changes)

/-- The record of a finalization is written. -/
def callWriteFinalized (device : TrustedDevice) (reactivating : Bool) : Sql Unit := do
  let p ← check (bindDevice device)
  if reactivating then
    let p := p.bind 12 (.integer (device.revision - 1))
    let changes ← statement (fun db => db.updateDevices
      (fun r => r.uuid.equals (p 1) && r.publicKey.equals (p 2)
        && r.status.equals (.text (ascii "REVOKED")) && r.revision.equals (p 12))
      (setDevice p))
    check (changedOne changes)
  else
    execute (fun db => db.insertDevice p)

/-- `finalize_pairing`. -/
def callFinalizePairing (attemptId : TrustUuid) (expectedRevision : Int64)
    (finalization : PairingFinalization) (now completionTime : Int64) : Sql Unit := do
  check (require (decide (0 < expectedRevision)) "invalid attempt revision")
  attempt
  transaction do
    check (require (decide (0 ≤ now)) "system clock precedes Unix epoch")
    let row ← query (fun db =>
      match db.pairingAttempts.find? (finalizable attemptId expectedRevision now) with
      | none =>
        .error (.rejected "pairing attempt missing, stale, unconfirmed, consumed, or expired")
      | some row => .ok row)
    let peerUuid ← check (row.peerUuid.toBlob 16)
    let peerPublicKey ← check (row.peerPublicKey.toBlob 32)
    check (require (peerUuid == finalization.peerUuid
      && peerPublicKey == finalization.peerPublicKey)
      "pairing finalization identity does not match attempt")
    let permissions ← query (fun db => readPermissions db attemptId true)
    let (trustRevision, reactivating) ← query (fun db => existingTrust db finalization)
    let device := finalizedDevice finalization trustRevision now
    callWriteFinalized device reactivating
    execute (fun db => .ok (db.deleteDevicePermissions (blobOf device.uuid)))
    Sql.writePermissions device.uuid permissions false
    check (require (decide (0 ≤ completionTime)) "system clock precedes Unix epoch")
    let changes ← statement (fun db => .ok (db.deleteAttempts
      (finalizable attemptId expectedRevision completionTime)))
    check (changedOne changes)

end TrustStore

/-- **A call of an operation**, one statement after the other. -/
def StoreOperation.call : StoreOperation → Sql Unit
  | .importDeviceForAdmin device => TrustStore.callImportDeviceForAdmin device
  | .updateDevice device expected => TrustStore.callUpdateDevice device expected
  | .revokeDevice uuid expected revokedAt => TrustStore.callRevokeDevice uuid expected revokedAt
  | .createAttempt attempt => TrustStore.callCreateAttempt attempt
  | .updateAttempt attempt expected => TrustStore.callUpdateAttempt attempt expected
  | .deleteAttempt id expected => TrustStore.callDeleteAttempt id expected
  | .finalizePairing id expected finalization now completionTime =>
    TrustStore.callFinalizePairing id expected finalization now completionTime

/-! ## What a body does -/

namespace Sql

variable {α β : Type} {db : Database}

/-- **What a body that is run in a transaction amounts to.** It leaves what
is committed alone, and if no step of it is refused, it returns what `e` says
and leaves the database that `e` says in the transaction, or throws the error
that `e` says. -/
def Yields (x : Sql α) (db : Database) (e : Except StoreError (Database × α)) : Prop :=
  ∀ h : SqlHandle, h.working = some db → Before x (fun r h' =>
    h'.committed = h.committed
      ∧ (h.faults = [] → h'.faults = [])
      ∧ match r with
        | .ok a => ∃ db', h'.working = some db' ∧ e = .ok (db', a)
        | .error (.store err) => e = .error err
        | .error .fault => h.faults ≠ []) h

/-- A step that may be refused changes nothing. -/
theorem before_attempt {Q : Except CallError Unit → SqlHandle → Prop} {h : SqlHandle}
    (hok : ∀ faults, (h.faults = [] → faults = []) → Q (.ok ()) { h with faults := faults })
    (hfault : ∀ faults, h.faults ≠ [] → Q (.error .fault) { h with faults := faults }) :
    Before attempt Q h := by
  obtain ⟨committed, working, faults⟩ := h
  cases faults with
  | nil => exact hok [] id
  | cons fault faults =>
    cases fault with
    | false => exact hok faults (fun h => by cases h)
    | true => exact hfault faults (fun h => by cases h)

theorem yields_pure (a : α) : Yields (pure a) db (.ok (db, a)) :=
  fun _ hworking => ⟨rfl, id, db, hworking, rfl⟩

theorem yields_check_bind {e : Except StoreError α} {k : α → Sql β}
    {g : α → Except StoreError (Database × β)} (hk : ∀ a, Yields (k a) db (g a)) :
    Yields (check e >>= k) db (e >>= g) := by
  intro h hworking
  cases e with
  | ok a => exact hk a h hworking
  | error err => exact ⟨rfl, id, rfl⟩

/-- What a statement does in a transaction. -/
theorem before_statement {f : Database → Except StoreError (Database × α)} {committed : Database}
    {faults : List Bool} {Q : Except CallError α → SqlHandle → Prop}
    (hok : ∀ left db' a, (faults = [] → left = []) → f db = .ok (db', a) →
      Q (.ok a) ⟨committed, some db', left⟩)
    (herror : ∀ left err, (faults = [] → left = []) → f db = .error err →
      Q (.error (.store err)) ⟨committed, some db, left⟩)
    (hfault : ∀ left, faults ≠ [] → Q (.error .fault) ⟨committed, some db, left⟩) :
    Before (statement f) Q ⟨committed, some db, faults⟩ := by
  rw [statement, before_bind]
  refine before_attempt (fun left hleft => ?_) hfault
  rw [before_bind, before_get]
  change Before (match f db with
    | .error e => throw (CallError.store e)
    | .ok (db', a) => (do
      set ({ committed := committed, working := some db', faults := left } : SqlHandle)
      pure a : Sql α)) Q _
  cases hf : f db with
  | error err => exact herror left err hleft hf
  | ok x => exact hok left x.1 x.2 hleft hf

/-- **A statement, and what comes behind it.** -/
theorem yields_statement_bind {f : Database → Except StoreError (Database × α)} {k : α → Sql β}
    {g : Database × α → Except StoreError (Database × β)}
    (hk : ∀ db' a, f db = .ok (db', a) → Yields (k a) db' (g (db', a))) :
    Yields (statement f >>= k) db (f db >>= g) := by
  rintro ⟨committed, working, faults⟩ rfl
  rw [before_bind]
  refine before_statement (fun left db' a hleft hf => ?_) (fun left err hleft hf => ?_)
    (fun left hfaults => ?_)
  · rw [hf]
    refine (hk db' a hf ⟨committed, some db', left⟩ rfl).mono ?_
    rintro r h' ⟨hcommitted, hrest, hr⟩
    refine ⟨hcommitted, fun hnone => hrest (hleft hnone), ?_⟩
    rcases r with (err | -) | b
    · exact hr
    · exact fun hnone => hr (hleft hnone)
    · exact hr
  · rw [hf]
    exact ⟨rfl, hleft, rfl⟩
  · exact ⟨rfl, fun hnone => absurd hnone hfaults, hfaults⟩

theorem yields_statement_ok {f : Database → Except StoreError (Database × α)} {k : α → Sql β}
    {db' : Database} {a : α} {e : Except StoreError (Database × β)} (hf : f db = .ok (db', a))
    (hk : Yields (k a) db' e) : Yields (statement f >>= k) db e := by
  have h := yields_statement_bind (g := fun _ => e) (fun db₁ b hb => by
    cases hf.symm.trans hb
    exact hk)
  rwa [hf] at h

theorem yields_check {e : Except StoreError Unit} :
    Yields (check e) db (e >>= fun _ => .ok (db, ())) := by
  rw [← bind_pure (check e)]
  exact yields_check_bind (fun _ => yields_pure ())

theorem yields_execute_bind {f : Database → Except StoreError Database} {k : Unit → Sql β}
    {g : Database → Except StoreError (Database × β)} (hk : ∀ db', Yields (k ()) db' (g db')) :
    Yields (execute f >>= k) db (f db >>= g) := by
  have h : Yields (execute f >>= k) db
      ((f db).map (fun db' => (db', ())) >>= fun x => g x.1) :=
    yields_statement_bind (fun db' _ _ => hk db')
  cases hf : f db with
  | error err =>
    rw [hf] at h
    exact h
  | ok db' =>
    rw [hf] at h
    exact h

theorem yields_execute {f : Database → Except StoreError Database} :
    Yields (execute f) db (f db >>= fun db' => .ok (db', ())) := by
  rw [← bind_pure (execute f)]
  exact yields_execute_bind (fun _ => yields_pure ())

theorem yields_query_bind {f : Database → Except StoreError α} {k : α → Sql β}
    {g : α → Except StoreError (Database × β)} (hk : ∀ a, f db = .ok a → Yields (k a) db (g a)) :
    Yields (query f >>= k) db (f db >>= g) := by
  have h : Yields (query f >>= k) db ((f db).map (fun a => (db, a)) >>= fun x => g x.2) := by
    refine yields_statement_bind (fun db' a hf => ?_)
    cases hdb : f db with
    | error err =>
      rw [hdb] at hf
      cases hf
    | ok b =>
      rw [hdb] at hf
      cases hf
      exact hk a hdb
  cases hf : f db with
  | error err =>
    rw [hf] at h
    exact h
  | ok a =>
    rw [hf] at h
    exact h

/-- A statement that finds what comes behind it needs. -/
theorem yields_query_ok {f : Database → Except StoreError α} {k : α → Sql β} {a : α}
    {e : Except StoreError (Database × β)} (hf : f db = .ok a) (hk : Yields (k a) db e) :
    Yields (query f >>= k) db e := by
  have h := yields_query_bind (g := fun _ => e) (fun b hb => by
    cases hf.symm.trans hb
    exact hk)
  rwa [hf] at h

theorem yields_query_error {f : Database → Except StoreError α} {k : α → Sql β} {err : StoreError}
    (hf : f db = .error err) : Yields (query f >>= k) db (.error err) := by
  have h := yields_query_bind (k := k) (g := fun _ => .error err) (fun b hb => by
    cases hf.symm.trans hb)
  rwa [hf] at h

theorem Yields.bind {x : Sql Unit} {e : Except StoreError Database} {k : Unit → Sql β}
    {g : Database → Except StoreError (Database × β)}
    (hx : Yields x db (e >>= fun db' => .ok (db', ()))) (hk : ∀ db', Yields (k ()) db' (g db')) :
    Yields (x >>= k) db (e >>= g) := by
  intro h hworking
  rw [before_bind]
  refine (hx h hworking).mono ?_
  rintro r h₁ ⟨hcommitted, hleft, hr⟩
  rcases r with (err | -) | ⟨⟩
  · refine ⟨hcommitted, hleft, ?_⟩
    cases e with
    | error err' =>
      cases hr
      rfl
    | ok db' => cases hr
  · exact ⟨hcommitted, hleft, hr⟩
  · obtain ⟨db', hdb', he⟩ := hr
    cases e with
    | error err' => cases he
    | ok db₁ =>
      cases he
      refine (hk db' h₁ hdb').mono ?_
      rintro r h₂ ⟨hcommitted₂, hleft₂, hr₂⟩
      refine ⟨hcommitted₂.trans hcommitted, fun hnone => hleft₂ (hleft hnone), ?_⟩
      rcases r with (err | -) | b
      · exact hr₂
      · exact fun hnone => hr₂ (hleft hnone)
      · exact hr₂

/-- **`write_permissions`** inserts one row after the other. -/
theorem yields_writePermissionRows (insert : Database → Params → Except StoreError Database)
    (id : TrustUuid) (permissions : List Bytes) :
    Yields (writePermissionRows insert id permissions) db
      (TrustStore.writePermissionRows insert id permissions db >>= fun db' => .ok (db', ())) := by
  induction permissions generalizing db with
  | nil => exact yields_pure ()
  | cons permission permissions ih =>
    simp only [writePermissionRows, TrustStore.writePermissionRows, bind_assoc]
    exact yields_check_bind (fun p => yields_execute_bind (fun db' => ih))

theorem yields_writePermissions (id : TrustUuid) (permissions : List Bytes) (attempt : Bool) :
    Yields (writePermissions id permissions attempt) db
      (TrustStore.writePermissions db id permissions attempt >>= fun db' => .ok (db', ())) := by
  simp only [writePermissions, TrustStore.writePermissions, bind_assoc]
  exact yields_check_bind (fun _ => yields_writePermissionRows _ _ _)

/-- **How a call ends.** No transaction is left under way. If it returns,
what `e` says is committed; if it throws, what was committed is, and it
throws what `e` says unless a step was refused. -/
def Settled (h : SqlHandle) (e : Except StoreError Database) (r : Except CallError Unit)
    (h' : SqlHandle) : Prop :=
  h'.working = none
    ∧ match r with
      | .ok () => e = .ok h'.committed
      | .error (.store err) => e = .error err ∧ h'.committed = h.committed
      | .error .fault => h.faults ≠ [] ∧ h'.committed = h.committed

/-- **The destructor takes back what a body has written** that threw, at
whatever statement. -/
theorem transaction_spec {body : Sql Unit} {e : Except StoreError Database} {h : SqlHandle}
    (hidle : h.working = none)
    (hbody : Yields body h.committed (e >>= fun db' => .ok (db', ()))) :
    Before (transaction body) (Settled h e) h := by
  have hthrown : ∀ {err : StoreError}, (e >>= fun db' => .ok (db', ())) = .error err →
      e = .error err := by
    intro err herr
    cases e with
    | error err' =>
      cases herr
      rfl
    | ok db' => cases herr
  unfold transaction
  simp only [before_bind, before_modify, before_tryCatch, before_throw]
  refine before_attempt (fun left hleft => ?_) (fun left hfaults => ⟨hidle, hfaults, rfl⟩)
  refine (hbody ⟨h.committed, some h.committed, left⟩ rfl).mono ?_
  rintro r h₁ ⟨hcommitted, hleft₁, hr⟩
  rcases r with (err | -) | ⟨⟩
  · exact ⟨rfl, hthrown hr, hcommitted⟩
  · exact ⟨rfl, fun hnone => hr (hleft hnone), hcommitted⟩
  · obtain ⟨db', hdb', he⟩ := hr
    have hok : e = .ok db' := by
      cases e with
      | error err => cases he
      | ok db₁ =>
        cases he
        rfl
    refine before_attempt (fun left₂ _ => ?_) (fun left₂ hfaults => ?_)
    · refine ⟨rfl, ?_⟩
      show e = .ok (h₁.working.getD h₁.committed)
      rw [hdb', hok, Option.getD_some]
    · exact ⟨rfl, fun hnone => hfaults (hleft₁ (hleft hnone)), hcommitted⟩

/-- A call looks at the files and runs its transaction. -/
theorem attempt_transaction_spec {body : Sql Unit} {e : Except StoreError Database} {h : SqlHandle}
    (hidle : h.working = none)
    (hbody : Yields body h.committed (e >>= fun db' => .ok (db', ()))) :
    Before (do
      attempt
      transaction body) (Settled h e) h := by
  refine (before_bind _ _).mpr ?_
  refine before_attempt (fun left hleft => ?_) (fun left hfaults => ⟨hidle, hfaults, rfl⟩)
  refine (transaction_spec (h := { h with faults := left }) hidle hbody).mono ?_
  rintro r h' ⟨hdone, hr⟩
  rcases r with (err | -) | ⟨⟩
  · exact ⟨hdone, hr⟩
  · exact ⟨hdone, fun hnone => hr.1 (hleft hnone), hr.2⟩
  · exact ⟨hdone, hr⟩

theorem call_spec {checked : Except StoreError Unit} {body : Sql Unit}
    {e : Except StoreError Database} {h : SqlHandle} (hidle : h.working = none)
    (hbody : Yields body h.committed (e >>= fun db' => .ok (db', ()))) :
    Before (do
      check checked
      attempt
      transaction body) (Settled h (checked >>= fun _ => e)) h := by
  cases checked with
  | error err => exact ⟨hidle, rfl, rfl⟩
  | ok u => exact attempt_transaction_spec hidle hbody

end Sql

namespace TrustStore

open Sql

variable {h : SqlHandle}

theorem yields_callWriteFinalized (db : Database) (device : TrustedDevice) (reactivating : Bool) :
    Yields (callWriteFinalized device reactivating) db
      (writeFinalized db device reactivating >>= fun db' => .ok (db', ())) := by
  unfold callWriteFinalized writeFinalized
  rw [bind_assoc]
  refine yields_check_bind (fun p => ?_)
  cases reactivating with
  | false => exact yields_execute
  | true =>
    simp only [if_pos, bind_assoc]
    refine yields_statement_bind (fun db' changes _ => ?_)
    exact yields_check

/-- Permissions are replaced: the old rows are deleted, and the new ones
written. -/
theorem yields_replacePermissions (db : Database) (clear : Database → Database) (id : TrustUuid)
    (permissions : List Bytes) (attempt : Bool) :
    Yields (do
      execute (fun db => .ok (clear db))
      Sql.writePermissions id permissions attempt) db
      (writePermissions (clear db) id permissions attempt >>= fun db' => .ok (db', ())) :=
  yields_statement_ok rfl (yields_writePermissions _ _ _)

theorem callImportDeviceForAdmin_spec (device : TrustedDevice) (hidle : h.working = none) :
    Before (callImportDeviceForAdmin device) (Settled h (importDeviceForAdmin device h.committed))
      h := by
  refine call_spec hidle ?_
  simp only [bind_assoc]
  refine yields_check_bind (fun p => yields_execute_bind (fun db' => ?_))
  exact yields_writePermissions _ _ _

theorem callUpdateDevice_spec (device : TrustedDevice) (expected : Int64)
    (hidle : h.working = none) :
    Before (callUpdateDevice device expected) (Settled h (updateDevice device expected h.committed))
      h := by
  refine call_spec hidle ?_
  simp only [bind_assoc]
  refine yields_check_bind (fun p => yields_statement_bind (fun db' changes _ => ?_))
  exact yields_check_bind (fun _ => yields_replacePermissions _ _ _ _ _)

theorem callRevokeDevice_spec (uuid : TrustUuid) (expected revokedAt : Int64)
    (hidle : h.working = none) :
    Before (callRevokeDevice uuid expected revokedAt)
      (Settled h (revokeDevice uuid expected revokedAt h.committed)) h := by
  refine call_spec hidle ?_
  simp only [bind_assoc]
  refine yields_statement_bind (fun db' changes _ => yields_check_bind (fun _ => ?_))
  exact yields_execute

theorem callCreateAttempt_spec (attempt : PairingAttempt) (hidle : h.working = none) :
    Before (callCreateAttempt attempt) (Settled h (createAttempt attempt h.committed)) h := by
  refine call_spec hidle ?_
  simp only [bind_assoc]
  refine yields_check_bind (fun p => yields_execute_bind (fun db' => ?_))
  exact yields_writePermissions _ _ _

theorem callUpdateAttempt_spec (attempt : PairingAttempt) (expected : Int64)
    (hidle : h.working = none) :
    Before (callUpdateAttempt attempt expected)
      (Settled h (updateAttempt attempt expected h.committed)) h := by
  refine call_spec hidle ?_
  simp only [bind_assoc]
  refine yields_check_bind (fun p => yields_statement_bind (fun db' changes _ => ?_))
  exact yields_check_bind (fun _ => yields_replacePermissions _ _ _ _ _)

theorem callDeleteAttempt_spec (id : TrustUuid) (expected : Int64) (hidle : h.working = none) :
    Before (callDeleteAttempt id expected) (Settled h (deleteAttempt id expected h.committed))
      h := by
  refine attempt_transaction_spec hidle ?_
  rw [deleteAttempt, bind_assoc]
  exact yields_statement_ok rfl yields_check

theorem callFinalizePairing_spec (id : TrustUuid) (expected : Int64) (f : PairingFinalization)
    (now completionTime : Int64) (hidle : h.working = none) :
    Before (callFinalizePairing id expected f now completionTime)
      (Settled h (finalizePairing id expected f now completionTime h.committed)) h := by
  refine call_spec hidle ?_
  rw [bind_assoc]
  refine yields_check_bind (fun _ => ?_)
  cases hfind : h.committed.pairingAttempts.find? (finalizable id expected now) with
  | none =>
    refine yields_query_error ?_
    simp only [hfind]
  | some row =>
    refine yields_query_ok (a := row) (by simp only [hfind]) ?_
    simp only [bind_assoc]
    refine yields_check_bind (fun peerUuid => yields_check_bind (fun peerPublicKey => ?_))
    refine yields_check_bind (fun _ => yields_query_bind (fun permissions _ => ?_))
    refine yields_query_bind (fun x _ => ?_)
    refine Yields.bind (yields_callWriteFinalized _ _ _) (fun db₁ => ?_)
    refine yields_statement_ok rfl ?_
    refine Yields.bind (yields_writePermissions _ _ _) (fun db₃ => yields_check_bind (fun _ => ?_))
    exact yields_statement_ok rfl yields_check

end TrustStore

/-- **A call does what its operation does in one piece, or nothing.** -/
theorem StoreOperation.call_spec (operation : StoreOperation) {h : SqlHandle}
    (hidle : h.working = none) :
    Before operation.call (Sql.Settled h (operation.run h.committed)) h := by
  cases operation with
  | importDeviceForAdmin device => exact TrustStore.callImportDeviceForAdmin_spec device hidle
  | updateDevice device expected => exact TrustStore.callUpdateDevice_spec device expected hidle
  | revokeDevice uuid expected revokedAt =>
    exact TrustStore.callRevokeDevice_spec uuid expected revokedAt hidle
  | createAttempt attempt => exact TrustStore.callCreateAttempt_spec attempt hidle
  | updateAttempt attempt expected => exact TrustStore.callUpdateAttempt_spec attempt expected hidle
  | deleteAttempt id expected => exact TrustStore.callDeleteAttempt_spec id expected hidle
  | finalizePairing id expected f now completionTime =>
    exact TrustStore.callFinalizePairing_spec id expected f now completionTime hidle

/-- A call that returns has done what its operation does. -/
theorem StoreOperation.run_of_call {operation : StoreOperation} {h h' : SqlHandle}
    (hidle : h.working = none) (hcall : operation.call.run h = .ok () h') :
    operation.run h.committed = .ok h'.committed := by
  have hspec := operation.call_spec hidle
  unfold Before at hspec
  rw [hcall] at hspec
  exact hspec.2

/-- A call that throws has done nothing. -/
theorem StoreOperation.committed_of_throw {operation : StoreOperation} {h h' : SqlHandle}
    {e : CallError} (hidle : h.working = none) (hcall : operation.call.run h = .error e h') :
    h'.committed = h.committed := by
  have hspec := operation.call_spec hidle
  unfold Before at hspec
  rw [hcall] at hspec
  cases e with
  | store err => exact hspec.2.2
  | fault => exact hspec.2.2

end Gasoline
