import Gasoline.TrustOpeningRules

/-!
# Connecting and migrating

The second half of the constructor. The connection is checked before anything
is written: what is not an intact database of this application and of a known
version is refused with the journal mode it had. The version is read outside
the transaction that uses it, and is still the version there, because only
the process that holds the initialization lock changes it.

The migration brings a database to the current version in one transaction.
What it commits is what `StoreOrigin.Accepts` says the records are
(`established_of_migration`).
-/

namespace Gasoline

namespace TrustStorage

section Connect

variable {o : StoreOrigin} {process : ℕ} {existing : Bool} {p q : DatabaseImage → Prop}

theorem locked_found_and {s : TrustStorage} (hs : Locked o process (.found o existing p) s)
    (hq : q s.read) : Locked o process (.found o existing (fun i => p i ∧ q i)) s := by
  refine ⟨hs.invariant, hs.holder, hs.writer, ?_⟩
  rcases hs.known with ⟨he, i, hi, hp⟩ | ⟨he, hfresh, hshort, hnamed, hp⟩
  · rw [read, hi] at hq
    exact .inl ⟨he, i, hi, hp, hq⟩
  · rw [read, hshort] at hq
    exact .inr ⟨he, hfresh, hshort, hnamed, hp, hq⟩

theorem step_openSqlite {s t : TrustStorage} {r : OpeningReply}
    (h : step process s .openSqlite r = some t) : (r = .error ∧ t = s)
      ∨ (r = .ok ∧ s.database.isSome ∧ t = { s with ran := true }) := by
  cases r with
  | error => exact .inl ⟨rfl, (Option.some.inj h).symm⟩
  | ok =>
    change (if s.database.isSome then some _ else none) = some t at h
    split at h
    · rename_i hsome
      exact .inr ⟨rfl, hsome, (Option.some.inj h).symm⟩
    · cases h
  | _ => cases h

/-- From then on SQLite may keep files beside it. -/
theorem keeps_openSqlite {s : TrustStorage} (hs : s.database.isSome) :
    Keeps o s { s with ran := true } := by
  intro h
  have hnone : s.database ≠ none := Option.isSome_iff_ne_none.mp hs
  exact ⟨⟨h.database.imp_left (fun he => ⟨he.holds, he.named⟩),
    .inr (sidecar_of_database h hnone), h.writer⟩, fun he => ⟨he.holds, he.named⟩⟩

theorem openSqlite_triple {message : String} (hp : ∀ i db, p i → p (i.withDatabase db)) :
    (actor o process).Triple (Locked o process (.found o existing p))
      (TrustOpening.perform .openSqlite message)
      (fun _ => Locked o process (.found o existing p)) := by
  have hstable : (actor o process).Stable (Locked o process (.found o existing p)) :=
    stable_locked (Knowledge.lasting_found hp)
  refine perform_locked hstable hstable (fun s r t hs hstep => ?_)
  rcases step_openSqlite hstep with herror | ⟨-, hsome, rfl⟩
  · exact .inl herror
  · exact .inr ⟨keeps_openSqlite hsome, hs.holder, hs.holder,
      (keeps_openSqlite hsome hs.invariant).1, hs.holder, hs.writer, hs.known⟩

/-- What the two header fields and `quick_check` say before anything is
written. -/
structure Inspected (version app : ℤ) (i : DatabaseImage) : Prop where
  intact : i.intact = true
  userVersion : i.userVersion = version
  applicationId : i.applicationId = app

theorem Inspected.withDatabase {version app : ℤ} (i : DatabaseImage) (db : Database)
    (h : Inspected version app i) : Inspected version app (i.withDatabase db) :=
  ⟨h.intact, h.userVersion, h.applicationId⟩

/-- A new database, or one the constructor knows, of this version. -/
def Startable (o : StoreOrigin) (version : ℤ) (i : DatabaseImage) : Prop :=
  (o.Fresh ∧ version = 0 ∧ i = { DatabaseImage.blank with wal := true })
    ∨ (i.Recognized ∧ i.userVersion = version)

/-- **The database is ready for the migration.** -/
def Knowledge.connected (o : StoreOrigin) (version : ℤ) : Knowledge :=
  fun d n => n = true ∧ ∃ i, d = some (.image i) ∧ Startable o version i

/-- A database without tables gets no records. -/
theorem Knowledge.lasting_connected {version : ℤ} :
    (Knowledge.connected o version).Lasting := by
  rintro d d' n n' hd hn ⟨hnamed, i, rfl, hi⟩
  refine ⟨hn hnamed, ?_⟩
  obtain ⟨j, rfl, rfl | ⟨db, db', hdb, rfl⟩⟩ := hd.image_left
  · exact ⟨j, rfl, hi⟩
  · refine ⟨_, rfl, ?_⟩
    rcases hi with ⟨-, -, rfl⟩ | ⟨hrecognized, hversion⟩
    · cases hdb
    · exact .inr ⟨⟨hrecognized.intact, hrecognized.applicationId, hrecognized.least,
        hrecognized.most⟩, hversion⟩

theorem step_journalMode {s t : TrustStorage} {r : OpeningReply}
    (h : step process s .journalMode r = some t) : (t = s ∧ r ≠ .text "wal")
      ∨ (r = .text "wal" ∧ t = { s with database := some (.image { s.read with wal := true }) }) := by
  cases r with
  | error => exact .inl ⟨(Option.some.inj h).symm, fun hr => by cases hr⟩
  | text value =>
    change (if value = "wal" then some _ else some s) = some t at h
    split at h
    · rename_i hwal
      exact .inr ⟨congrArg _ hwal, (Option.some.inj h).symm⟩
    · rename_i hwal
      exact .inl ⟨(Option.some.inj h).symm, fun hr => hwal (OpeningReply.text.inj hr)⟩
  | _ => cases h

/-- The name of a database that SQLite reads is durable. -/
theorem named_of_image {s : TrustStorage} {i : DatabaseImage} (h : StoreInvariant o s)
    (hs : s.database = some (.image i)) : s.named = true := by
  rcases h.database with hestablished | ⟨-, huntouched⟩
  · exact hestablished.named
  · cases huntouched with
    | kept hdatabase hnamed =>
      refine hnamed.resolve_right (fun ho => ?_)
      rw [hs, ho] at hdatabase
      cases hdatabase
    | created _ hdatabase => rw [hs] at hdatabase; cases hdatabase
    | initialized _ _ hnamed => exact hnamed
    | converted _ _ _ _ hnamed => exact hnamed

/-- **The journal mode of a database the constructor knows** may be
changed. -/
theorem keeps_journalMode_image {s : TrustStorage} {i : DatabaseImage}
    (hs : s.database = some (.image i)) (hrecognized : i.Recognized) :
    Keeps o s { s with database := some (.image { i with wal := true }) } := by
  intro h
  have hnamed := named_of_image h hs
  have hestablished : Established o s →
      Established o { s with database := some (.image { i with wal := true }) } := by
    rintro ⟨⟨origin, stores, j, haccepts, hruns, himage, hholds⟩, hn⟩
    rw [hs] at himage
    cases himage
    exact ⟨⟨origin, stores, _, haccepts, hruns, rfl,
      ⟨hholds.intact, hholds.applicationId, hholds.userVersion, hholds.database⟩⟩, hn⟩
  refine ⟨⟨h.database.imp hestablished (fun hs' => ⟨hs'.1, ?_⟩), h.sidecar, h.writer⟩,
    hestablished⟩
  cases hs'.2 with
  | kept hdatabase => exact .converted i (hdatabase.symm.trans hs) hrecognized rfl hnamed
  | created _ hdatabase => rw [hs] at hdatabase; cases hdatabase
  | initialized _ hdatabase =>
    rw [hs] at hdatabase
    cases hdatabase
    exact absurd hrecognized.applicationId (by decide)
  | converted j hfile hj hdatabase =>
    rw [hs] at hdatabase
    cases hdatabase
    exact .converted j hfile hj rfl hnamed

theorem keeps_journalMode_short {s : TrustStorage} (hs : s.database = some .empty)
    (hfresh : o.Fresh) (hnamed : s.named = true) :
    Keeps o s { s with
      database := some (.image { DatabaseImage.blank with wal := true }) } := by
  intro h
  have hno : ¬ Established o s := by
    rintro ⟨⟨_, _, i, -, -, himage, -⟩, -⟩
    rw [hs] at himage
    cases himage
  exact ⟨⟨.inr ⟨(h.database.resolve_left hno).1, .initialized hfresh rfl hnamed⟩, h.sidecar,
    h.writer⟩, fun hestablished => absurd hestablished hno⟩

theorem recognized_of_inspected {version app : ℤ} {i : DatabaseImage}
    (h : TrustOpening.recognized true app version = true) (hi : Inspected version app i) :
    i.Recognized := by
  simp only [TrustOpening.recognized, if_true, Bool.and_eq_true, beq_iff_eq,
    decide_eq_true_eq] at h
  obtain ⟨⟨happ, hleast⟩, hmost⟩ := h
  exact ⟨hi.intact, hi.applicationId.trans happ, hi.userVersion ▸ hleast, hi.userVersion ▸ hmost⟩

/-- **The first write of the constructor** comes behind the check of the
header. -/
theorem journalMode_triple {version app : ℤ}
    (hrecognized : TrustOpening.recognized existing app version = true) :
    (actor o process).Triple (Locked o process (.found o existing (Inspected version app)))
      (TrustOpening.pragmaText .journalMode)
      (fun value s => value = "wal" → Locked o process (.connected o version) s) := by
  have hfound : (actor o process).Stable
      (Locked o process (.found o existing (Inspected version app))) :=
    stable_locked (Knowledge.lasting_found Inspected.withDatabase)
  have hconnected : (actor o process).Stable (Locked o process (.connected o version)) :=
    stable_locked Knowledge.lasting_connected
  refine .call (M := fun r s => r = .text "wal" → Locked o process (.connected o version) s)
    hfound (fun s r t hs hstep => ?_) (fun r => ?_)
  · rcases step_journalMode hstep with ⟨rfl, hr⟩ | ⟨-, rfl⟩
    · exact ⟨guarantee_refl _, fun h => absurd h hr⟩
    rcases hs.known with ⟨rfl, i, hi, hinspected⟩ | ⟨rfl, hfresh, hshort, hnamed, -⟩
    · have hrec := recognized_of_inspected hrecognized hinspected
      have hread : s.read = i := by rw [read, hi]; rfl
      have hkeeps := keeps_journalMode_image (o := o) hi hrec
      have hnamed := named_of_image hs.invariant hi
      rw [hread]
      exact ⟨⟨hkeeps, .inl ⟨hs.holder, hs.holder⟩⟩, fun _ => ⟨(hkeeps hs.invariant).1, hs.holder,
        hs.writer, hnamed, _, rfl,
        .inr ⟨⟨hrec.intact, hrec.applicationId, hrec.least, hrec.most⟩, hinspected.userVersion⟩⟩⟩
    · have hread : s.read = .blank := by rw [read, hshort]; rfl
      have hkeeps := keeps_journalMode_short hshort hfresh hnamed
      have hversion : version = 0 := by
        simp only [TrustOpening.recognized, Bool.false_eq_true, if_false, Bool.and_eq_true,
          beq_iff_eq] at hrecognized
        exact hrecognized.2
      rw [hread]
      exact ⟨⟨hkeeps, .inl ⟨hs.holder, hs.holder⟩⟩, fun _ => ⟨(hkeeps hs.invariant).1, hs.holder,
        hs.writer, hnamed, _, rfl, .inl ⟨hfresh, hversion, rfl⟩⟩⟩
  · cases r with
    | text value =>
      refine (Actor.Triple.done (P := fun s =>
        value = "wal" → Locked o process (.connected o version) s) ?_ (fun _ hs => hs)).weaken
        (fun s hs hwal => hs (congrArg _ hwal))
      exact fun s t hs hrely hwal => hconnected s t (hs hwal) hrely
    | row found => cases found <;> exact .failed
    | _ => exact .failed

/-- **Connecting**: what is not recognized is refused before anything is
written. -/
theorem connect_triple (existing : Bool) :
    (actor o process).Triple (Locked o process (.found o existing (fun _ => True)))
      (TrustOpening.connect existing)
      (fun version => Locked o process (.connected o version)) := by
  have hfound : (actor o process).Stable (Locked o process (.found o existing (fun _ => True))) :=
    stable_locked (Knowledge.lasting_found (fun _ _ _ => trivial))
  refine .bind (openSqlite_triple (fun _ _ _ => trivial)) (fun _ => .bind (perform_idle hfound rfl)
    (fun _ => .bind (perform_idle hfound rfl) (fun _ => .bind (perform_idle hfound rfl)
    (fun _ => .bind (perform_idle hfound rfl) (fun _ => ?_)))))
  refine .bind (pragmaInteger_tells hfound (fun _ => hfound) rfl (fun s _ hs _ => hs))
    (fun foreignKeys => .bind ((demand_triple hfound).consequence (fun _ hs => hs)
      (fun _ _ hs => hs.1)) (fun _ => ?_))
  -- each of the three readings adds what it says of the database
  have hintact : ∀ value : String, (actor o process).Stable (Locked o process (.found o existing
      (fun i => True ∧ (value = "ok" → i.intact = true)))) :=
    fun _ => stable_locked (Knowledge.lasting_found (fun _ _ h => h))
  refine .bind (pragmaText_tells hfound hintact rfl (fun s value hs hstep => ?_)) (fun check => ?_)
  · refine locked_found_and hs (fun hok => ?_)
    subst hok
    simpa using (eq_of_answer hstep).2
  refine .bind (demand_triple (hintact check)) (fun _ => ?_)
  have hversion : ∀ version : ℤ, (actor o process).Stable (Locked o process (.found o existing
      (fun i => i.intact = true ∧ i.userVersion = version))) :=
    fun _ => stable_locked (Knowledge.lasting_found (fun _ _ h => h))
  have hchecked : (actor o process).Stable
      (Locked o process (.found o existing (fun i => i.intact = true))) :=
    stable_locked (Knowledge.lasting_found (fun _ _ h => h))
  refine .bind ((pragmaInteger_tells hchecked hversion rfl (fun s value hs hstep => ?_)).weaken ?_)
    (fun version => ?_)
  · exact locked_found_and hs (beq_iff_eq.mp (eq_of_answer hstep).2).symm
  · rintro s ⟨hs, hok⟩
    have hok : check = "ok" := by simpa using hok
    refine ⟨hs.invariant, hs.holder, hs.writer, ?_⟩
    rcases hs.known with ⟨he, i, hi, hp⟩ | ⟨he, hfresh, hshort, hnamed, hp⟩
    · exact .inl ⟨he, i, hi, hp.2 hok⟩
    · exact .inr ⟨he, hfresh, hshort, hnamed, hp.2 hok⟩
  have hinspected : ∀ app : ℤ, (actor o process).Stable
      (Locked o process (.found o existing (Inspected version app))) :=
    fun _ => stable_locked (Knowledge.lasting_found Inspected.withDatabase)
  refine .bind (pragmaInteger_tells (hversion version) hinspected rfl (fun s app hs hstep => ?_))
    (fun app => ?_)
  · have happ : s.read.applicationId = app := (beq_iff_eq.mp (eq_of_answer hstep).2).symm
    have hknown := locked_found_and (q := fun i => i.applicationId = app) hs happ
    refine ⟨hknown.invariant, hknown.holder, hknown.writer, ?_⟩
    rcases hknown.known with ⟨he, i, hi, ⟨h₁, h₂⟩, h₃⟩ | ⟨he, hfresh, hshort, hnamed, ⟨h₁, h₂⟩, h₃⟩
    · exact .inl ⟨he, i, hi, h₁, h₂, h₃⟩
    · exact .inr ⟨he, hfresh, hshort, hnamed, h₁, h₂, h₃⟩
  refine .bind (demand_triple (hinspected app)) (fun _ => ?_)
  have hconnected : (actor o process).Stable (Locked o process (.connected o version)) :=
    stable_locked Knowledge.lasting_connected
  refine .given (fun hrecognized => .bind (journalMode_triple hrecognized) (fun journal => ?_))
  refine .bind (M := fun _ => Locked o process (.connected o version)) ?_ (fun _ => ?_)
  · refine (demand_triple (P := fun s => journal = "wal" →
      Locked o process (.connected o version) s) ?_).consequence (fun _ hs => hs) ?_
    · exact fun s t hs hrely hwal => hconnected s t (hs hwal) hrely
    · rintro _ s ⟨hs, hwal⟩
      exact hs (by simpa using hwal)
  refine .bind (perform_idle hconnected rfl) (fun _ => .bind
    (pragmaInteger_tells hconnected (fun _ => hconnected) rfl (fun s _ hs _ => hs))
    (fun synchronous => .bind ((demand_triple hconnected).consequence (fun _ hs => hs)
      (fun _ _ hs => hs.1)) (fun _ => .done hconnected (fun _ hs => hs))))

end Connect

/-! ## What the statements make of a database -/

section Migration

variable {o : StoreOrigin} {i w : DatabaseImage}

/-- Statements in one transaction: the first one that SQLite refuses ends
them. -/
def applyAll (i : DatabaseImage) (statements : List SchemaStatement) : Option DatabaseImage :=
  statements.foldlM SchemaStatement.apply i

theorem migration_zero (h : applyAll { DatabaseImage.blank with wal := true }
    (TrustOpening.migration 0) = some w) : w.Holds .empty := by
  cases h
  exact ⟨rfl, rfl, rfl, rfl⟩

/-- **The migration of version 1** adds what version 2 has more, and changes
nothing of what there was. -/
theorem migration_one (h : applyAll i (TrustOpening.migration 1) = some w) :
    i.pairingAttempts = .missing ∧ i.pairingAttemptPeer = false
      ∧ i.pairingAttemptPermissions = .missing
      ∧ w = { i with
          pairingAttempts := .rows []
          pairingAttemptPeer := true
          pairingAttemptPermissions := .rows []
          applicationId := trustApplicationId
          userVersion := trustVersion } := by
  obtain ⟨intact, wal, app, version, devices, permissions, attempts, peer, attemptPermissions⟩ := i
  cases attempts with
  | foreign => cases h
  | rows list => cases h
  | missing =>
    cases peer with
    | true => cases h
    | false =>
      cases attemptPermissions with
      | foreign => cases h
      | rows list => cases h
      | missing =>
        cases h
        exact ⟨rfl, rfl, rfl, rfl⟩

theorem migration_two (h : applyAll i (TrustOpening.migration 2) = some w) :
    w = { i with applicationId := trustApplicationId, userVersion := trustVersion } := by
  cases h
  rfl

/-- What `foreign_key_check` finds in a table of permissions. -/
theorem orphaned_eq_false {R : Type} {key : R → SqlValue} {parents : List R}
    {children : List PermissionRow} :
    DatabaseImage.orphaned key (.rows parents) (.rows children) = some false
      ↔ Anchored key parents children := by
  show some (children.any _) = some false ↔ _
  rw [Option.some.injEq, List.any_eq_false]
  refine forall₂_congr (fun c _ => ?_)
  rw [Bool.and_eq_true, not_and, Bool.not_eq_true, Bool.not_eq_false', List.any_eq_true,
    bne_iff_ne, or_iff_not_imp_left]
  simp only [beq_iff_eq]

/-- **It finds nothing where every permission has its row.** -/
theorem foreignKeyCheck_eq_false {db : Database} (hdb : w.database? = some db) :
    w.foreignKeyCheck = some false
      ↔ Anchored DeviceRow.uuid db.trustedDevices db.devicePermissions
        ∧ Anchored AttemptRow.attemptId db.pairingAttempts db.pairingAttemptPermissions := by
  obtain ⟨hdevices, hpermissions, hattempts, hattemptPermissions⟩ :=
    DatabaseImage.database?_eq_some.mp hdb
  rw [← orphaned_eq_false, ← orphaned_eq_false, DatabaseImage.foreignKeyCheck, hdevices,
    hpermissions, hattempts, hattemptPermissions]
  show some (_ || _) = some false ↔ some _ = some false ∧ some _ = some false
  rw [Option.some.injEq, Option.some.injEq, Option.some.injEq, Bool.or_eq_false_iff]

/-- Of tables that can be read it is known what it finds. -/
theorem foreignKeyCheck_of_all {db : Database} {found : Bool} (hdb : w.database? = some db)
    (h : w.foreignKeyCheck.all (· == found) = true) : w.foreignKeyCheck = some found := by
  obtain ⟨hdevices, hpermissions, hattempts, hattemptPermissions⟩ :=
    DatabaseImage.database?_eq_some.mp hdb
  rw [DatabaseImage.foreignKeyCheck, hdevices, hpermissions, hattempts, hattemptPermissions] at h ⊢
  exact congrArg some (beq_iff_eq.mp h)

theorem exists_database (hdevices : w.trustedDevices.readable = true)
    (hattempts : w.pairingAttempts.readable = true)
    (hpermissions : w.devicePermissions.readable = true)
    (hattemptPermissions : w.pairingAttemptPermissions.readable = true) :
    ∃ db, w.database? = some db := by
  have hrows : ∀ {R : Type} {table : StoredTable R}, table.readable = true →
      ∃ rows, table = .rows rows := by
    intro R table h
    cases table with
    | missing => cases h
    | foreign => cases h
    | rows list => exact ⟨list, rfl⟩
  obtain ⟨ds, hds⟩ := hrows hdevices
  obtain ⟨as, has⟩ := hrows hattempts
  obtain ⟨ps, hps⟩ := hrows hpermissions
  obtain ⟨qs, hqs⟩ := hrows hattemptPermissions
  exact ⟨⟨ds, ps, as, qs⟩, DatabaseImage.database?_eq_some.mpr ⟨hds, hps, has, hqs⟩⟩

/-- A database under the name that was not touched is the one there was, up
to its journal mode. -/
theorem origin_of_untouched {named : Bool} (h : Untouched o (some (.image i)) named)
    (hrecognized : i.Recognized) :
    ∃ j, o.database = some (.image j) ∧ (j = i ∨ i = { j with wal := true }) := by
  cases h with
  | kept hdatabase => exact ⟨i, hdatabase.symm, .inl rfl⟩
  | created _ hdatabase => cases hdatabase
  | initialized _ hdatabase =>
    cases hdatabase
    exact absurd hrecognized.applicationId (by decide)
  | converted j hfile _ hdatabase =>
    cases hdatabase
    exact ⟨j, hfile, .inr rfl⟩

/-- **What the migration commits** is an established store. -/
theorem established_of_migration {s : TrustStorage} {version : ℤ} (h : StoreInvariant o s)
    (hs : s.database = some (.image i)) (hnamed : s.named = true) (hi : Startable o version i)
    (hw : applyAll i (TrustOpening.migration version) = some w) {db : Database}
    (hdb : w.database? = some db) (hcheck : w.foreignKeyCheck.all (· == false) = true) :
    Established o { s with database := some (.image w), writer := none } := by
  obtain ⟨hdevices, hattempts⟩ :=
    (foreignKeyCheck_eq_false hdb).mp (foreignKeyCheck_of_all hdb hcheck)
  -- nothing was committed yet: the records are those of the origin
  have hfirst : s.committed = [] → o.Accepts db → w.Holds db →
      Established o { s with database := some (.image w), writer := none } := by
    intro hcommitted haccepts hholds
    refine ⟨⟨db, TrustStores.on db, w, haccepts, ?_, rfl, hholds⟩, hnamed⟩
    show runs TrustStores.step (TrustStores.on db) s.committed = _
    rw [hcommitted]
    rfl
  rcases hi with ⟨hfresh, rfl, rfl⟩ | ⟨hrecognized, rfl⟩
  · have hholds := migration_zero hw
    have hempty : db = .empty := Option.some.inj (hdb.symm.trans hholds.database)
    subst hempty
    refine hfirst ?_ (.fresh hfresh) hholds
    rcases h.database with ⟨⟨_, _, j, -, -, himage, hj⟩, -⟩ | ⟨hcommitted, -⟩
    · rw [hs] at himage
      cases himage
      exact absurd hj.applicationId (by decide)
    · exact hcommitted
  have hversion : i.userVersion = 1 ∨ i.userVersion = 2 := by
    have hleast := hrecognized.least
    have hmost : i.userVersion ≤ 2 := hrecognized.most
    omega
  rcases hversion with hone | htwo
  · rw [hone] at hw
    obtain ⟨hnone, hpeer, hnone', rfl⟩ := migration_one hw
    rcases h.database with ⟨⟨_, _, j, -, -, himage, hj⟩, -⟩ | ⟨hcommitted, huntouched⟩
    · rw [hs] at himage
      cases himage
      rw [hj.userVersion] at hone
      exact absurd hone (by decide)
    rw [hs] at huntouched
    obtain ⟨hrows, hrows', hempty, hempty'⟩ := DatabaseImage.database?_eq_some.mp hdb
    obtain ⟨ds, ps, as, qs⟩ := db
    cases hempty
    cases hempty'
    obtain ⟨j, hfile, hj⟩ := origin_of_untouched huntouched hrecognized
    refine hfirst hcommitted (.version1 hfile ?_ ?_ ?_ ?_ ?_ ?_ ?_ hdevices)
      ⟨hrecognized.intact, rfl, rfl, hdb⟩ <;> rcases hj with rfl | rfl <;> first
        | assumption
        | exact ⟨hrecognized.intact, hrecognized.applicationId, hrecognized.least, hrecognized.most⟩
  · rw [htwo] at hw
    obtain rfl := migration_two hw
    have hholds : DatabaseImage.Holds { i with
        applicationId := trustApplicationId, userVersion := trustVersion } db :=
      ⟨hrecognized.intact, rfl, rfl, hdb⟩
    rcases h.database with ⟨⟨origin, stores, j, haccepts, hruns, himage, hj⟩, -⟩
        | ⟨hcommitted, huntouched⟩
    · rw [hs] at himage
      cases himage
      have hsame : db = stores.database := Option.some.inj (hdb.symm.trans hj.database)
      subst hsame
      exact ⟨⟨origin, stores, _, haccepts, hruns, rfl, hholds⟩, hnamed⟩
    · rw [hs] at huntouched
      obtain ⟨j, hfile, hj⟩ := origin_of_untouched huntouched hrecognized
      refine hfirst hcommitted (.version2 hfile ?_ hdevices hattempts) hholds
      rcases hj with rfl | rfl
      · exact ⟨hrecognized.intact, hrecognized.applicationId, htwo, hdb⟩
      · exact ⟨hrecognized.intact, hrecognized.applicationId, htwo, hdb⟩

end Migration

/-! ## The transaction -/

section Transaction

variable {o : StoreOrigin} {process : ℕ} {i w : DatabaseImage} {version : ℤ}

theorem step_beginImmediate {s t : TrustStorage} {r : OpeningReply}
    (h : step process s .beginImmediate r = some t) : (r = .error ∧ t = s)
      ∨ (r = .ok ∧ s.writer = none ∧ t = { s with writer := some (process, s.read) }) := by
  cases r with
  | error => exact .inl ⟨rfl, (Option.some.inj h).symm⟩
  | ok =>
    change (if s.writer = none then some _ else none) = some t at h
    split at h
    · rename_i hnone
      exact .inr ⟨rfl, hnone, (Option.some.inj h).symm⟩
    · cases h
  | _ => cases h

theorem step_execute {s t : TrustStorage} {r : OpeningReply} {statement : SchemaStatement}
    (h : step process s (.execute statement) r = some t) : (r = .error ∧ t = s)
      ∨ ∃ w w', r = .ok ∧ s.working process = some w ∧ statement.apply w = some w'
        ∧ t = { s with writer := some (process, w') } := by
  cases r with
  | error => exact .inl ⟨rfl, (Option.some.inj h).symm⟩
  | ok =>
    obtain ⟨w', hw', ht⟩ := Option.map_eq_some_iff.mp h
    obtain ⟨w, hw, hstatement⟩ := Option.bind_eq_some_iff.mp hw'
    exact .inr ⟨w, w', rfl, hw, hstatement, ht.symm⟩
  | _ => cases h

theorem step_commit {s t : TrustStorage} {r : OpeningReply}
    (h : step process s .commit r = some t) : (r = .error ∧ t = s)
      ∨ ∃ w, r = .ok ∧ s.working process = some w
        ∧ t = { s with database := some (.image w), writer := none } := by
  cases r with
  | error => exact .inl ⟨rfl, (Option.some.inj h).symm⟩
  | ok =>
    obtain ⟨w, hw, ht⟩ := Option.map_eq_some_iff.mp h
    exact .inr ⟨w, rfl, hw, ht.symm⟩
  | _ => cases h

/-- The transaction of the process sees what it has made. -/
theorem Within.working {s : TrustStorage} (hs : Within o process i w s) :
    s.working process = some w := by
  rw [TrustStorage.working, hs.writer, Option.bind_some, if_pos rfl]

theorem keeps_writer {s : TrustStorage} (hs : s.holder = some process) (w : DatabaseImage) :
    Keeps o s { s with writer := some (process, w) } := by
  refine keeps_of_database rfl id rfl rfl rfl (fun p w' hw => ?_)
  obtain ⟨rfl, -⟩ := Prod.mk.inj (Option.some.inj hw)
  exact hs

/-- **The transaction starts from the database there is**, which is the one
that was checked. -/
theorem beginImmediate_triple {message : String} :
    (actor o process).Triple (Locked o process (.connected o version))
      (TrustOpening.perform .beginImmediate message)
      (fun _ s => ∃ i, Startable o version i ∧ Within o process i i s) := by
  refine perform_locked (stable_locked Knowledge.lasting_connected) ?_ (fun s r t hs hstep => ?_)
  · rintro s t ⟨i, hi, hs⟩ hrely
    exact ⟨i, hi, stable_within s t hs hrely⟩
  · rcases step_beginImmediate hstep with herror | ⟨-, -, rfl⟩
    · exact .inl herror
    · obtain ⟨hnamed, i, himage, hi⟩ := hs.known
      have hread : s.read = i := by rw [read, himage]; rfl
      rw [hread]
      exact .inr ⟨keeps_writer hs.holder i, hs.holder, hs.holder, i, hi,
        (keeps_writer hs.holder i hs.invariant).1, hs.holder, rfl, himage, hnamed⟩

theorem execute_triple {message : String} (statement : SchemaStatement) :
    (actor o process).Triple (Within o process i w)
      (TrustOpening.perform (.execute statement) message)
      (fun _ s => ∃ w', statement.apply w = some w' ∧ Within o process i w' s) := by
  refine perform_locked stable_within ?_ (fun s r t hs hstep => ?_)
  · rintro s t ⟨w', hw', hs⟩ hrely
    exact ⟨w', hw', stable_within s t hs hrely⟩
  · rcases step_execute hstep with herror | ⟨u, w', -, hu, hw', rfl⟩
    · exact .inl herror
    · rw [hs.working] at hu
      cases hu
      exact .inr ⟨keeps_writer hs.holder w', hs.holder, hs.holder, w', hw',
        (keeps_writer hs.holder w' hs.invariant).1, hs.holder, rfl, hs.database, hs.named⟩

/-- The statements of the migration, one after the other. -/
theorem executeAll_triple (statements : List SchemaStatement) :
    (actor o process).Triple (Within o process i w) (TrustOpening.executeAll statements)
      (fun _ s => ∃ w', applyAll w statements = some w' ∧ Within o process i w' s) := by
  induction statements generalizing w with
  | nil => exact .done stable_within (fun s hs => ⟨w, rfl, hs⟩)
  | cons statement rest ih =>
    refine .bind (execute_triple statement) (fun _ => ?_)
    rintro s ⟨w', hw', hs⟩
    refine (ih.consequence (fun _ h => h) ?_) s hs
    rintro _ t ⟨w'', hw'', ht⟩
    refine ⟨w'', ?_, ht⟩
    show (statement.apply w).bind (fun u => applyAll u rest) = some w''
    rw [hw']
    exact hw''

/-- A query of the transaction, with what its success says of the working
copy. -/
theorem select_triple {c : OpeningCall} {message : String} {p : DatabaseImage → Bool}
    (hidle : isIdle c = true)
    (hstep : ∀ s, step process s c .ok = s.answer ((s.working process).any p)) :
    (actor o process).Triple (Within o process i w) (TrustOpening.perform c message)
      (fun _ s => Within o process i w s ∧ p w = true) := by
  refine perform_tells stable_within (fun s t hs hrely => ⟨stable_within s t hs.1 hrely, hs.2⟩)
    hidle (fun s hs h => ⟨hs, ?_⟩)
  rw [hstep s, hs.working] at h
  exact (eq_of_answer h).2

/-- What is read outside of the database leaves the transaction alone. -/
theorem inspectSidecars_idle {P : TrustStorage → Prop} (hP : (actor o process).Stable P)
    (files : List Sidecar) (sidecar : Bool) :
    (actor o process).Triple P (TrustOpening.inspectSidecars files sidecar) (fun _ => P) := by
  induction files generalizing sidecar with
  | nil => exact .done hP (fun _ hs => hs)
  | cons file rest ih => exact .bind (inspectFile_idle hP rfl) (fun _ => ih _)

theorem checkFiles_triple :
    (actor o process).Triple (Within o process i w) TrustOpening.checkFiles
      (fun _ => Within o process i w) := by
  refine .bind (inspectFile_idle stable_within rfl) (fun size => .bind
    ((demand_triple stable_within).consequence (fun _ hs => hs) (fun _ _ hs => hs.1))
    (fun _ => .bind (inspectSidecars_idle stable_within _ _) (fun _ => ?_)))
  exact .done stable_within (fun _ hs => hs)

/-- The process holds the lock of an established store. -/
structure Opened (o : StoreOrigin) (process : ℕ) (s : TrustStorage) : Prop where
  invariant : StoreInvariant o s
  established : Established o s
  holder : s.holder = some process

theorem stable_opened : (actor o process).Stable (Opened o process) := by
  intro s t hs hrely
  obtain ⟨hinvariant, hestablished⟩ := hrely.1 hs.invariant
  exact ⟨hinvariant, hestablished hs.established, (hrely.2.1 hs.holder).1⟩

/-- **What the transaction commits.** -/
theorem commit_triple {message : String} (hi : Startable o version i)
    (hw : applyAll i (TrustOpening.migration version) = some w) {db : Database}
    (hdb : w.database? = some db) (hcheck : w.foreignKeyCheck.all (· == false) = true) :
    (actor o process).Triple (Within o process i w) (TrustOpening.perform .commit message)
      (fun _ => Opened o process) := by
  refine perform_locked stable_within stable_opened (fun s r t hs hstep => ?_)
  rcases step_commit hstep with herror | ⟨u, -, hu, rfl⟩
  · exact .inl herror
  · rw [hs.working] at hu
    cases hu
    have hestablished :=
      established_of_migration hs.invariant hs.database hs.named hi hw hdb hcheck
    have hinvariant : StoreInvariant o { s with database := some (.image w), writer := none } :=
      ⟨.inl hestablished, hs.invariant.sidecar, fun _ _ h => by cases h⟩
    exact .inr ⟨fun _ => ⟨hinvariant, fun _ => hestablished⟩, hs.holder, hs.holder, hinvariant,
      hestablished, hs.holder⟩

theorem migrate_triple :
    (actor o process).Triple (Locked o process (.connected o version))
      (TrustOpening.migrate version) (fun _ => Opened o process) := by
  refine .bind beginImmediate_triple (fun _ => ?_)
  rintro s ⟨i, hi, hs⟩
  revert s
  suffices htriple : (actor o process).Triple (Within o process i i)
      (TrustOpening.executeAll (TrustOpening.migration version) >>= fun _ => _)
      (fun _ => Opened o process) from htriple
  refine .bind (executeAll_triple _) (fun _ => ?_)
  rintro s ⟨w, hw, hs⟩
  revert s
  suffices htriple : (actor o process).Triple (Within o process i w) _
      (fun _ => Opened o process) from htriple
  have hstable : ∀ φ : Prop, (actor o process).Stable (fun s => Within o process i w s ∧ φ) :=
    fun φ s t hs hrely => ⟨stable_within s t hs.1 hrely, hs.2⟩
  refine .bind (M := fun violated s => Within o process i w s
    ∧ w.foreignKeyCheck.all (· == violated) = true) ?_ (fun violated => ?_)
  · refine call_idle stable_within rfl (fun r => ?_)
    cases r with
    | row found =>
      refine (Actor.Triple.done (hstable _) (fun _ hs => hs)).weaken ?_
      rintro s ⟨hs, hstep⟩
      have hanswer := (eq_of_answer hstep).2
      rw [hs.working] at hanswer
      exact ⟨hs, hanswer⟩
    | _ => exact .failed
  refine .given (fun hcheck => .bind (demand_triple stable_within) (fun _ => ?_))
  refine .given (fun hviolated => ?_)
  have hfalse : violated = false := by simpa using hviolated
  subst hfalse
  refine .bind (select_triple (p := fun u => u.trustedDevices.readable) rfl (fun _ => rfl))
    (fun _ => .given (fun hdevices => ?_))
  refine .bind (select_triple (p := fun u => u.pairingAttempts.readable) rfl (fun _ => rfl))
    (fun _ => .given (fun hattempts => ?_))
  refine .bind (select_triple (p := fun u => u.devicePermissions.readable
    && u.trustedDevices.readable) rfl (fun _ => rfl)) (fun _ => .given (fun hpermissions => ?_))
  refine .bind (select_triple (p := fun u => u.pairingAttemptPermissions.readable) rfl
    (fun _ => rfl)) (fun _ => .given (fun hattemptPermissions => ?_))
  obtain ⟨db, hdb⟩ := exists_database hdevices hattempts (Bool.and_eq_true_iff.mp hpermissions).1
    hattemptPermissions
  exact .bind checkFiles_triple (fun _ => commit_triple hi hw hdb hcheck)

/-- **The constructor**: a process that does not hold the lock keeps the
invariant at every step, and returns with the lock of an established
store. -/
theorem openStore_triple (filename : Bytes) (above : ℕ) :
    (actor o process).Triple (Outside o process) (TrustOpening.openStore filename above)
      (fun _ => Opened o process) := by
  refine .bind (perform_outside rfl) (fun _ => .bind ((demand_triple stable_outside).consequence
    (fun _ hs => hs) (fun _ _ hs => hs.1)) (fun _ => .bind (openStateDirectory_triple above)
    (fun _ => .bind acquireLock_triple (fun _ => .bind prepareDatabase_triple
    (fun existing => .bind (connect_triple existing) (fun version => .bind migrate_triple
    (fun _ => ?_)))))))
  refine perform_locked stable_opened stable_opened (fun s r t hs hstep => ?_)
  rcases step_syncDirectory hstep with herror | ⟨-, rfl⟩
  · exact .inl herror
  · obtain ⟨hinvariant, hestablished⟩ := keeps_syncDirectory s hs.invariant
    exact .inr ⟨keeps_syncDirectory s, hs.holder, hs.holder, hinvariant,
      hestablished hs.established, hs.holder⟩

end Transaction

end TrustStorage

end Gasoline
