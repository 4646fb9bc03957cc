import Gasoline.TrustOpeningRules
import Gasoline.TrustRecords

/-!
# Permissions keep their owners

The constructor of the trust store refuses a database in which a permission
has no row it belongs to (`PRAGMA foreign_key_check`). Of the rows themselves
it looks at no more than this, so a database that it accepts need not be one
that the store has written. An operation is therefore followed here on
whatever rows there are: it leaves no permission behind without its row
(`StoreOperation.anchors`).

The foreign keys see to it. A row of permissions is inserted where its owner
is, no `UPDATE` sets a key, and a row that is deleted takes its permissions
with it.
-/

namespace Gasoline

/-! ## Rows and what belongs to them -/

namespace Anchored

variable {R : Type} {key : R → SqlValue} {parents parents' : List R}
  {children children' : List PermissionRow}

theorem of_keys (h : Anchored key parents children)
    (hkeys : ∀ r ∈ parents, ∃ r' ∈ parents', key r' = key r) : Anchored key parents' children := by
  intro c hc
  rcases h c hc with hnull | ⟨r, hr, hkey⟩
  · exact .inl hnull
  · obtain ⟨r', hr', hsame⟩ := hkeys r hr
    exact .inr ⟨r', hr', hsame.trans hkey⟩

theorem subset (h : Anchored key parents children) (hsub : children' ⊆ children) :
    Anchored key parents children' := fun c hc => h c (hsub hc)

theorem append (h : Anchored key parents children)
    (hnew : ∀ c ∈ children', ∃ r ∈ parents, key r = c.owner) :
    Anchored key parents (children ++ children') := by
  intro c hc
  rcases List.mem_append.mp hc with hc | hc
  · exact h c hc
  · exact .inr (hnew c hc)

theorem append_parents (h : Anchored key parents children) (new : List R) :
    Anchored key (parents ++ new) children :=
  h.of_keys (fun r hr => ⟨r, List.mem_append_left new hr, rfl⟩)

/-- An `UPDATE` that sets no column of the key. -/
theorem map (h : Anchored key parents children) {set : R → R} (hset : ∀ r, key (set r) = key r) :
    Anchored key (parents.map set) children :=
  h.of_keys (fun r hr => ⟨set r, List.mem_map_of_mem hr, hset r⟩)

/-- **`ON DELETE CASCADE`.** What is left belongs to a row that is left. -/
theorem cascade (h : Anchored key parents children) (cond : R → Bool) :
    Anchored key (parents.filter (fun r => !cond r))
      (children.filter (fun c => !(parents.any (fun r => cond r && key r == c.owner)))) := by
  intro c hc
  obtain ⟨hc, hkept⟩ := List.mem_filter.mp hc
  rcases h c hc with hnull | ⟨r, hr, hkey⟩
  · exact .inl hnull
  · refine .inr ⟨r, List.mem_filter.mpr ⟨hr, ?_⟩, hkey⟩
    cases hcond : cond r with
    | false => rfl
    | true =>
      have hgone : parents.any (fun r => cond r && key r == c.owner) = true :=
        List.any_eq_true.mpr ⟨r, hr, by simp [hcond, hkey]⟩
      rw [hgone] at hkept
      cases hkept

end Anchored

/-! ## Statements -/

/-- **Every permission has its row.** -/
structure Database.Anchors (db : Database) : Prop where
  devices : Anchored DeviceRow.uuid db.trustedDevices db.devicePermissions
  attempts : Anchored AttemptRow.attemptId db.pairingAttempts db.pairingAttemptPermissions

namespace Database.Anchors

variable {db db' : Database}

theorem insertDevice (h : db.Anchors) {p : Params} (hdb' : db.insertDevice p = .ok db') :
    db'.Anchors := by
  obtain ⟨-, -, -, rfl⟩ := insertDevice_eq_ok hdb'
  exact ⟨h.devices.append_parents _, h.attempts⟩

theorem updateDevices (h : db.Anchors) {cond : DeviceRow → Bool} {set : DeviceRow → DeviceRow}
    {n : ℕ} (hdb' : db.updateDevices cond set = .ok (db', n)) (hset : ∀ r, (set r).uuid = r.uuid) :
    db'.Anchors := by
  obtain ⟨rfl, -⟩ := Prod.mk.inj (updateDevices_eq_ok hdb').2
  refine ⟨h.devices.map (fun r => ?_), h.attempts⟩
  split
  · exact hset r
  · rfl

theorem deleteDevicePermissions (h : db.Anchors) (owner : SqlValue) :
    (db.deleteDevicePermissions owner).Anchors :=
  ⟨h.devices.subset (fun _ hc => List.mem_of_mem_filter hc), h.attempts⟩

theorem insertAttempt (h : db.Anchors) {p : Params} (hdb' : db.insertAttempt p = .ok db') :
    db'.Anchors := by
  obtain ⟨-, -, rfl⟩ := insertAttempt_eq_ok hdb'
  exact ⟨h.devices, h.attempts.append_parents _⟩

theorem updateAttempts (h : db.Anchors) {cond : AttemptRow → Bool} {set : AttemptRow → AttemptRow}
    {n : ℕ} (hdb' : db.updateAttempts cond set = .ok (db', n))
    (hset : ∀ r, (set r).attemptId = r.attemptId) : db'.Anchors := by
  obtain ⟨rfl, -⟩ := Prod.mk.inj (updateAttempts_eq_ok hdb').2
  refine ⟨h.devices, h.attempts.map (fun r => ?_)⟩
  split
  · exact hset r
  · rfl

theorem deleteAttemptPermissions (h : db.Anchors) (owner : SqlValue) :
    (db.deleteAttemptPermissions owner).Anchors :=
  ⟨h.devices, h.attempts.subset (fun _ hc => List.mem_of_mem_filter hc)⟩

theorem deleteAttempts (h : db.Anchors) (cond : AttemptRow → Bool) :
    (db.deleteAttempts cond).1.Anchors := ⟨h.devices, h.attempts.cascade cond⟩

theorem writePermissions (h : db.Anchors) {id : TrustUuid} {ps : List Bytes} {attempt : Bool}
    (hdb' : TrustStore.writePermissions db id ps attempt = .ok db') : db'.Anchors := by
  cases attempt with
  | false =>
    obtain ⟨rfl, hnew⟩ := TrustStore.writePermissions_device hdb'
    exact ⟨h.devices.append (fun r hr => (hnew r hr).2), h.attempts⟩
  | true =>
    obtain ⟨rfl, hnew⟩ := TrustStore.writePermissions_attempt hdb'
    exact ⟨h.devices, h.attempts.append (fun r hr => (hnew r hr).2)⟩

/-- The record of a finalization is written. -/
theorem writeFinalized (h : db.Anchors) {d : TrustedDevice} {reactivating : Bool}
    (hdb' : TrustStore.writeFinalized db d reactivating = .ok db') : db'.Anchors := by
  unfold TrustStore.writeFinalized at hdb'
  obtain ⟨p, -, hdb'⟩ := bind_eq_ok.mp hdb'
  cases reactivating with
  | false => exact h.insertDevice hdb'
  | true =>
    rw [if_pos rfl] at hdb'
    obtain ⟨⟨mid, n⟩, hmid, hdb'⟩ := bind_eq_ok.mp hdb'
    obtain ⟨-, -, hdb'⟩ := bind_eq_ok.mp hdb'
    obtain rfl := Except.ok.inj hdb'
    exact h.updateDevices hmid (fun _ => rfl)

theorem finalizePairing (h : db.Anchors) {id : TrustUuid} {expected : Int64}
    {f : PairingFinalization} {now completionTime : Int64}
    (hdb' : TrustStore.finalizePairing id expected f now completionTime db = .ok db') :
    db'.Anchors := by
  unfold TrustStore.finalizePairing at hdb'
  obtain ⟨-, hdb'⟩ := require_bind_eq_ok.mp hdb'
  obtain ⟨-, hdb'⟩ := require_bind_eq_ok.mp hdb'
  split at hdb'
  · cases hdb'
  · obtain ⟨peerUuid, -, hdb'⟩ := bind_eq_ok.mp hdb'
    obtain ⟨peerPublicKey, -, hdb'⟩ := bind_eq_ok.mp hdb'
    obtain ⟨-, hdb'⟩ := require_bind_eq_ok.mp hdb'
    obtain ⟨permissions, -, hdb'⟩ := bind_eq_ok.mp hdb'
    obtain ⟨⟨revision, reactivating⟩, -, hdb'⟩ := bind_eq_ok.mp hdb'
    obtain ⟨written, hwritten, hdb'⟩ := bind_eq_ok.mp hdb'
    obtain ⟨granted, hgranted, hdb'⟩ := bind_eq_ok.mp hdb'
    obtain ⟨-, hdb'⟩ := require_bind_eq_ok.mp hdb'
    obtain ⟨-, -, hdb'⟩ := bind_eq_ok.mp hdb'
    obtain rfl := Except.ok.inj hdb'
    exact (((h.writeFinalized hwritten).deleteDevicePermissions _).writePermissions
      hgranted).deleteAttempts _

end Database.Anchors

/-! ## Operations -/

/-- **An operation leaves no permission without its row**, whatever rows there
were. -/
theorem StoreOperation.anchors {operation : StoreOperation} {db db' : Database}
    (h : db.Anchors) (hrun : operation.run db = .ok db') : db'.Anchors := by
  cases operation with
  | importDeviceForAdmin device =>
    obtain ⟨-, hrun⟩ := require_bind_eq_ok.mp hrun
    obtain ⟨p, -, hrun⟩ := bind_eq_ok.mp hrun
    obtain ⟨mid, hmid, hrun⟩ := bind_eq_ok.mp hrun
    exact (h.insertDevice hmid).writePermissions hrun
  | updateDevice device expected =>
    obtain ⟨-, -, hrun⟩ := bind_eq_ok.mp hrun
    obtain ⟨p, -, hrun⟩ := bind_eq_ok.mp hrun
    obtain ⟨⟨mid, n⟩, hmid, hrun⟩ := bind_eq_ok.mp hrun
    obtain ⟨-, -, hrun⟩ := bind_eq_ok.mp hrun
    exact ((h.updateDevices hmid (fun _ => rfl)).deleteDevicePermissions _).writePermissions hrun
  | revokeDevice uuid expected revokedAt =>
    obtain ⟨-, hrun⟩ := require_bind_eq_ok.mp hrun
    obtain ⟨⟨mid, n⟩, hmid, hrun⟩ := bind_eq_ok.mp hrun
    obtain ⟨-, -, hrun⟩ := bind_eq_ok.mp hrun
    obtain rfl := Except.ok.inj hrun
    exact (h.updateDevices hmid (fun _ => rfl)).deleteDevicePermissions _
  | createAttempt attempt =>
    obtain ⟨-, hrun⟩ := require_bind_eq_ok.mp hrun
    obtain ⟨p, -, hrun⟩ := bind_eq_ok.mp hrun
    obtain ⟨mid, hmid, hrun⟩ := bind_eq_ok.mp hrun
    exact (h.insertAttempt hmid).writePermissions hrun
  | updateAttempt attempt expected =>
    obtain ⟨-, -, hrun⟩ := bind_eq_ok.mp hrun
    obtain ⟨p, -, hrun⟩ := bind_eq_ok.mp hrun
    obtain ⟨⟨mid, n⟩, hmid, hrun⟩ := bind_eq_ok.mp hrun
    obtain ⟨-, -, hrun⟩ := bind_eq_ok.mp hrun
    exact ((h.updateAttempts hmid (fun _ => rfl)).deleteAttemptPermissions _).writePermissions hrun
  | deleteAttempt id expected =>
    obtain ⟨-, -, hrun⟩ := bind_eq_ok.mp hrun
    obtain rfl := Except.ok.inj hrun
    exact h.deleteAttempts _
  | finalizePairing id expected f now completionTime => exact h.finalizePairing hrun

namespace TrustStores

/-- **Every run keeps the owners of permissions.** -/
theorem anchors_of_runs {s s' : TrustStores} {es : List StoreEvent} (h : runs step s es = some s')
    (hs : s.database.Anchors) : s'.database.Anchors := by
  refine runs_invariant (I := fun t => t.database.Anchors) ?_ h hs
  intro t e t' ht hstep
  unfold step at hstep
  split at hstep
  · split at hstep
    · rename_i db hrun
      obtain rfl := Option.some.inj hstep
      exact StoreOperation.anchors ht hrun
    · cases hstep
  · obtain rfl := Option.some.inj hstep
    exact ht

end TrustStores

/-- A database that the constructor accepts is anchored. -/
theorem StoreOrigin.Accepts.anchors {o : StoreOrigin} {db : Database} (h : o.Accepts db) :
    db.Anchors := by
  cases h with
  | fresh => exact ⟨fun c hc => (by cases hc), fun c hc => (by cases hc)⟩
  | version1 _ _ _ _ _ _ _ _ hanchored => exact ⟨hanchored, fun c hc => (by cases hc)⟩
  | version2 _ _ hdevices hattempts => exact ⟨hdevices, hattempts⟩

end Gasoline
