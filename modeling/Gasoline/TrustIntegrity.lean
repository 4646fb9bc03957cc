import Gasoline.TrustHistory

/-!
# The integrity of the trust store

The schema does not say everything the store keeps true. That a revoked
device has no permissions, that no device or attempt has more than 128 of
them and that no stored text contains a NUL byte is left to the code of the
operations, which write permissions in tables of their own: deleted and
written again by an update, cascaded by a deletion, copied from an attempt
to a device by a finalization.

`Database.Sound` is the invariant, `Database.Integrity` what it says about
the rows. Every operation writes rows in one of three ways
(`StoreOperation.Writes`), so three lemmas carry the invariant over every
run.
-/

namespace Gasoline

/-! ## Texts -/

/-- A text column of a row, and the bounds on its length. -/
structure TextColumn where
  value : SqlValue
  least : ℕ
  most : ℕ

/-- The column holds a text without a NUL byte and within its bounds. The
length in bytes is bounded too, by what `bind` admits. -/
def TextColumn.Bounded (c : TextColumn) : Prop :=
  ∃ t, c.value = .text t ∧ 0 ∉ t ∧ t.length ≤ 4096
    ∧ c.least ≤ SqlValue.characters t ∧ SqlValue.characters t ≤ c.most

/-- If the value is a text, the store could bind it. -/
def SqlValue.Clean (v : SqlValue) : Prop := ∀ t, v = .text t → Params.validText t = true

/-- The text columns of a device. The schema lists the values of a status,
so its bounds are the lengths of the two. -/
def DeviceRow.texts (r : DeviceRow) : List TextColumn :=
  [⟨r.status, 6, 7⟩, ⟨r.localAlias, 0, 256⟩, ⟨r.peerName, 0, 256⟩, ⟨r.peerPlatform, 0, 64⟩,
    ⟨r.pairingMethod, 1, 64⟩]

/-- The text column of an attempt. -/
def AttemptRow.texts (r : AttemptRow) : List TextColumn := [⟨r.status, 7, 9⟩]

/-- The text column of a permission. -/
def PermissionRow.texts (r : PermissionRow) : List TextColumn := [⟨r.permission, 1, 64⟩]

/-- Every text of the database. -/
def Database.texts (db : Database) : List TextColumn :=
  db.trustedDevices.flatMap DeviceRow.texts ++ db.devicePermissions.flatMap PermissionRow.texts
    ++ db.pairingAttempts.flatMap AttemptRow.texts
    ++ db.pairingAttemptPermissions.flatMap PermissionRow.texts

/-- A text that can be bound has no NUL byte. -/
theorem Params.validText_iff {t : Bytes} : validText t = true ↔ t.length ≤ 4096 ∧ 0 ∉ t := by
  simp [validText]

/-- A clean text column that passes its constraint is bounded. -/
theorem TextColumn.Bounded.of_isText {v : SqlValue} {least most : ℕ} {p : ℕ → Bool}
    (hclean : v.Clean) (hcheck : v.isText p = true) (hp : ∀ n, p n = true → least ≤ n ∧ n ≤ most) :
    (⟨v, least, most⟩ : TextColumn).Bounded := by
  obtain ⟨t, rfl⟩ := SqlValue.exists_of_isText hcheck
  obtain ⟨hlength, hnul⟩ := Params.validText_iff.mp (hclean t rfl)
  exact ⟨t, rfl, hnul, hlength, hp _ hcheck⟩

/-- A column that holds a text of the schema is bounded by its length. -/
theorem TextColumn.Bounded.of_text {v : SqlValue} {t : Bytes} {least most : ℕ}
    (hv : v = .text t) (ht : 0 ∉ t ∧ t.length ≤ 4096
      ∧ least ≤ SqlValue.characters t ∧ SqlValue.characters t ≤ most) :
    (⟨v, least, most⟩ : TextColumn).Bounded :=
  ⟨t, hv, ht⟩

/-! ## The invariant -/

/-- What the code keeps true of a table of permissions. -/
structure PermissionRow.Kept (rows : List PermissionRow) : Prop where
  nodup : rows.Nodup
  count : ∀ k, rows.countP (fun p => decide (p.owner = k)) ≤ 128
  clean : ∀ p ∈ rows, p.permission.Clean

/-- **The invariant of the store**: what the schema keeps true, and what the
code of the operations adds. -/
structure Database.Sound (db : Database) : Prop extends Database.WellFormed db where
  revoked : ∀ r ∈ db.trustedDevices, r.status = .text TrustStatus.revoked.text →
    ∀ p ∈ db.devicePermissions, p.owner ≠ r.uuid
  granted : PermissionRow.Kept db.devicePermissions
  proposed : PermissionRow.Kept db.pairingAttemptPermissions
  clean : ∀ r ∈ db.trustedDevices,
    ∀ v ∈ [r.localAlias, r.peerName, r.peerPlatform, r.pairingMethod], v.Clean

/-- **What the invariant says about the rows.** -/
structure Database.Integrity (db : Database) : Prop where
  /-- A revoked device has no permissions. -/
  revokedBare : ∀ r ∈ db.trustedDevices, r.status = .text (ascii "REVOKED") →
    ∀ p ∈ db.devicePermissions, p.owner ≠ r.uuid
  /-- Permissions belong to a device or an attempt that is there. -/
  deviceOwned : ∀ p ∈ db.devicePermissions, ∃ r ∈ db.trustedDevices, r.uuid = p.owner
  attemptOwned : ∀ p ∈ db.pairingAttemptPermissions, ∃ r ∈ db.pairingAttempts,
    r.attemptId = p.owner
  /-- Nobody has more than 128 permissions. -/
  deviceCount : ∀ k, (db.devicePermissions.filter (fun p => decide (p.owner = k))).length ≤ 128
  attemptCount : ∀ k,
    (db.pairingAttemptPermissions.filter (fun p => decide (p.owner = k))).length ≤ 128
  /-- Nobody has a permission twice. -/
  deviceDistinct : db.devicePermissions.Nodup
  attemptDistinct : db.pairingAttemptPermissions.Nodup
  /-- Every text is free of NUL bytes and within its bounds. -/
  texts : ∀ c ∈ db.texts, c.Bounded

theorem PermissionRow.kept_nil : PermissionRow.Kept [] where
  nodup := List.nodup_nil
  count := fun k => by simp
  clean := fun p hp => by cases hp

theorem Database.sound_empty : Database.empty.Sound where
  toWellFormed := Database.wellFormed_empty
  revoked := fun r hr => by cases hr
  granted := PermissionRow.kept_nil
  proposed := PermissionRow.kept_nil
  clean := fun r hr => by cases hr

/-! ## Tables of permissions -/

namespace PermissionRow.Kept

variable {rows : List PermissionRow}

theorem filter (h : Kept rows) (keep : PermissionRow → Bool) : Kept (rows.filter keep) where
  nodup := h.nodup.filter _
  count := fun k => (List.Sublist.countP_le List.filter_sublist).trans (h.count k)
  clean := fun p hp => h.clean p (List.mem_of_mem_filter hp)

/-- Replacing the permissions of one owner. -/
theorem replace (h : Kept rows) {R : Type} {key : R → SqlValue} {parents parents' : List R}
    {row : R} {rows' : List PermissionRow} {owner : TrustUuid} {ps : List Bytes}
    (hrows : Replaces key PermissionRow.owner parents rows row
      (ps.map (PermissionRow.ofText owner)) parents' rows')
    (hps : TrustStore.Writable ps) : Kept rows' where
  nodup := by
    refine hrows.nodup_children h.nodup (hps.nodup.map ?_)
    intro s t hst
    exact SqlValue.text.inj (congrArg PermissionRow.permission hst)
  count := fun k => by
    rw [hrows.countP_children k]
    split
    · rw [List.length_map]
      exact hps.count
    · exact h.count k
  clean := by
    refine hrows.forall_children (fun p hp => ?_) h.clean
    obtain ⟨t, ht, rfl⟩ := List.mem_map.mp hp
    intro t' heq
    obtain rfl := SqlValue.text.inj heq
    exact hps.valid t ht

end PermissionRow.Kept

/-! ## Operations keep the invariant -/

namespace Database

variable {db db' : Database}

/-- A device stays without permissions, or got none. -/
theorem Enters.revokedBare {d : TrustedDevice} {ps : List Bytes} (h : db.Enters d ps db')
    (hs : db.Sound) (hwf' : db'.WellFormed) :
    ∀ r ∈ db'.trustedDevices, r.status = .text TrustStatus.revoked.text →
      ∀ p ∈ db'.devicePermissions, p.owner ≠ r.uuid := by
  rw [h.table.children_eq]
  refine h.table.forall_rows hwf'.devices.nodup ?_ ?_
  · intro hrevoked
    have hd := TrustStatus.text_injective (SqlValue.text.inj hrevoked)
    rw [h.revoked hd, List.map_nil, List.append_nil]
    exact fun p hp => of_decide_eq_true (List.mem_filter.mp hp).2
  · intro r hr hne hrevoked
    refine List.forall_mem_append.mpr ⟨fun p hp => ?_, fun p hp => ?_⟩
    · exact hs.revoked r hr hrevoked p (List.mem_of_mem_filter hp)
    · rw [h.table.owned p hp]
      exact fun e => hne e.symm

theorem Enters.sound {d : TrustedDevice} {ps : List Bytes} (h : db.Enters d ps db')
    (hs : db.Sound) (hwf' : db'.WellFormed) : db'.Sound where
  toWellFormed := hwf'
  revoked := h.revokedBare hs hwf'
  granted := hs.granted.replace h.table h.writable
  proposed := h.pairingAttemptPermissions ▸ hs.proposed
  clean := by
    refine h.table.forall_rows hwf'.devices.nodup ?_ (fun r hr _ => hs.clean r hr)
    intro v hv t hvt
    have ht : t ∈ d.texts := by
      subst hvt
      simpa [DeviceRow.ofDevice, TrustedDevice.texts] using hv
    rcases h.texts t ht with hvalid | ⟨old, hold, hmem⟩
    · exact hvalid
    · refine hs.clean _ hold (.text t) ?_ t rfl
      simpa [DeviceRow.ofDevice, TrustedDevice.texts] using hmem

/-- Entering an attempt keeps the invariant. -/
theorem Proposes.sound {a : PairingAttempt} (h : db.Proposes a db') (hs : db.Sound)
    (hwf' : db'.WellFormed) : db'.Sound where
  toWellFormed := hwf'
  revoked := by
    rw [h.trustedDevices, h.devicePermissions]
    exact hs.revoked
  granted := h.devicePermissions ▸ hs.granted
  proposed := hs.proposed.replace h.table h.writable
  clean := h.trustedDevices ▸ hs.clean

/-- Removing an attempt keeps the invariant. -/
theorem Removes.sound {id : TrustUuid} (h : db.Removes id db') (hs : db.Sound)
    (hwf' : db'.WellFormed) : db'.Sound where
  toWellFormed := hwf'
  revoked := by
    rw [h.trustedDevices, h.devicePermissions]
    exact hs.revoked
  granted := h.devicePermissions ▸ hs.granted
  proposed := h.pairingAttemptPermissions ▸ hs.proposed.filter _
  clean := h.trustedDevices ▸ hs.clean

end Database

/-- **An operation that succeeds keeps the invariant.** -/
theorem StoreOperation.Writes.sound {db db' : Database} {operation : StoreOperation}
    (h : operation.Writes db db') (hs : db.Sound) (hwf' : db'.WellFormed) : db'.Sound := by
  cases h with
  | importDeviceForAdmin henters => exact henters.sound hs hwf'
  | updateDevice henters => exact henters.sound hs hwf'
  | revokeDevice henters => exact henters.sound hs hwf'
  | createAttempt hproposes => exact hproposes.sound hs hwf'
  | updateAttempt hproposes => exact hproposes.sound hs hwf'
  | deleteAttempt hremoves => exact hremoves.sound hs hwf'
  | finalizePairing henters hwf hremoves => exact hremoves.sound (henters.sound hs hwf) hwf'

namespace Database.Sound

variable {db : Database}

theorem deviceTexts (hs : db.Sound) {r : DeviceRow} (hr : r ∈ db.trustedDevices) :
    ∀ c ∈ r.texts, c.Bounded := by
  have hcheck := hs.deviceChecks r hr
  have hclean := hs.clean r hr
  simp only [DeviceRow.check, Bool.and_eq_true, Bool.or_eq_true, beq_iff_eq] at hcheck
  obtain ⟨⟨⟨⟨⟨⟨⟨⟨⟨⟨⟨⟨-, -⟩, hs⟩, -⟩, ha⟩, hn⟩, hp⟩, hm⟩, -⟩, -⟩, -⟩, -⟩, -⟩ := hcheck
  simp only [List.forall_mem_cons, List.not_mem_nil, false_imp_iff, implies_true,
    and_true] at hclean
  obtain ⟨hca, hcn, hcp, hcm⟩ := hclean
  simp only [DeviceRow.texts, List.forall_mem_cons, List.not_mem_nil, false_imp_iff,
    implies_true, and_true]
  refine ⟨?_, .of_isText hca ha (by simp), .of_isText hcn hn (by simp),
    .of_isText hcp hp (by simp), .of_isText hcm hm (by simp)⟩
  rcases hs with hs | hs
  · exact .of_text hs (by decide)
  · exact .of_text hs (by decide)

/-- The texts of a permission row are bounded. -/
theorem permissionTexts {rows : List PermissionRow} (hrows : PermissionRow.Kept rows)
    (hchecks : ∀ p ∈ rows, p.check = true) {p : PermissionRow} (hp : p ∈ rows) :
    ∀ c ∈ p.texts, c.Bounded := by
  have hcheck := hchecks p hp
  rw [PermissionRow.check, Bool.and_eq_true] at hcheck
  intro c hc
  obtain rfl := List.mem_singleton.mp hc
  exact .of_isText (hrows.clean p hp) hcheck.2 (by simp)

/-- The texts of an attempt row are bounded. -/
theorem attemptTexts (hs : db.Sound) {r : AttemptRow} (hr : r ∈ db.pairingAttempts) :
    ∀ c ∈ r.texts, c.Bounded := by
  obtain ⟨a, rfl⟩ := AttemptRow.exists_ofAttempt (hs.attemptChecks r hr)
  intro c hc
  obtain rfl := List.mem_singleton.mp hc
  refine .of_text rfl ?_
  cases a.status <;> decide

/-- **What the invariant says about the rows.** -/
theorem integrity (hs : db.Sound) : db.Integrity where
  revokedBare := hs.revoked
  deviceOwned := hs.devices.owned
  attemptOwned := hs.attempts.owned
  deviceCount := fun k => List.countP_eq_length_filter ▸ hs.granted.count k
  attemptCount := fun k => List.countP_eq_length_filter ▸ hs.proposed.count k
  deviceDistinct := hs.granted.nodup
  attemptDistinct := hs.proposed.nodup
  texts := by
    intro c hc
    simp only [Database.texts, List.mem_append, List.mem_flatMap] at hc
    rcases hc with ((⟨r, hr, hc⟩ | ⟨p, hp, hc⟩) | ⟨r, hr, hc⟩) | ⟨p, hp, hc⟩
    · exact hs.deviceTexts hr c hc
    · exact permissionTexts hs.granted hs.devicePermissionChecks hp c hc
    · exact hs.attemptTexts hr c hc
    · exact permissionTexts hs.proposed hs.attemptPermissionChecks hp c hc

/-- The permissions of an owner can be written. -/
theorem writable {rows : List PermissionRow} (hrows : PermissionRow.Kept rows)
    (hchecks : ∀ p ∈ rows, p.check = true) (owner : TrustUuid) :
    TrustStore.Writable (permissionsOf rows owner) := by
  have hperm := List.mergeSort_perm ((rows.filter (fun r => decide (r.owner = blobOf owner))).map
    PermissionRow.text) Bytes.le
  have hmem : ∀ t ∈ permissionsOf rows owner, ∃ p ∈ rows, p.permission = .text t := by
    intro t ht
    obtain ⟨p, hp, rfl⟩ := List.mem_map.mp (hperm.mem_iff.mp ht)
    have hp := List.mem_of_mem_filter hp
    exact ⟨p, hp, PermissionRow.permission_eq_text (hchecks p hp)⟩
  refine ⟨?_, ?_, fun t ht => ?_, fun t ht => ?_⟩
  · refine hperm.length_eq.trans_le ?_
    rw [List.length_map, ← List.countP_eq_length_filter]
    exact hrows.count _
  · refine hperm.nodup_iff.mpr ((hrows.nodup.filter _).map_on ?_)
    intro p hp q hq heq
    obtain ⟨hp, hpo⟩ := List.mem_filter.mp hp
    obtain ⟨hq, hqo⟩ := List.mem_filter.mp hq
    have howner : p.owner = q.owner := (of_decide_eq_true hpo).trans (of_decide_eq_true hqo).symm
    have hpermission : p.permission = q.permission := by
      rw [PermissionRow.permission_eq_text (hchecks p hp), heq,
        ← PermissionRow.permission_eq_text (hchecks q hq)]
    show PermissionRow.mk p.owner p.permission = ⟨q.owner, q.permission⟩
    rw [howner, hpermission]
  · obtain ⟨p, hp, htext⟩ := hmem t ht
    exact hrows.clean p hp t htext
  · obtain ⟨p, hp, htext⟩ := hmem t ht
    have hcheck := hchecks p hp
    rw [PermissionRow.check, Bool.and_eq_true, htext] at hcheck
    simpa [SqlValue.isText] using hcheck.2

end Database.Sound

/-! ## What decides a finalization -/

namespace TrustStore

variable {db : Database} {id : TrustUuid} {expected now completionTime : Int64}
  {f : PairingFinalization}

/-- The checks of `finalize_pairing` in their order, without the permissions
it reads and writes. -/
def finalizationVerdict (id : TrustUuid) (expected : Int64) (f : PairingFinalization)
    (now completionTime : Int64) (db : Database) : Except StoreError Unit := do
  require (decide (0 < expected)) "invalid attempt revision"
  require (decide (0 ≤ now)) "system clock precedes Unix epoch"
  match db.pairingAttempts.find? (finalizable id expected now) with
  | none =>
    .error (.rejected "pairing attempt missing, stale, unconfirmed, consumed, or expired")
  | some row =>
    let peerUuid ← row.peerUuid.toBlob 16
    let peerPublicKey ← row.peerPublicKey.toBlob 32
    require (peerUuid == f.peerUuid && peerPublicKey == f.peerPublicKey)
      "pairing finalization identity does not match attempt"
    let (revision, reactivating) ← existingTrust db f
    let _ ← writeFinalized db (finalizedDevice f revision now) reactivating
    require (decide (0 ≤ completionTime)) "system clock precedes Unix epoch"
    changedOne (db.pairingAttempts.countP (finalizable id expected completionTime))

/-- Mapping the result of a sequence maps the result of its second part. -/
theorem map_bind_except {ε α β γ : Type} (x : Except ε α) (k : α → Except ε β) (g : β → γ) :
    (x >>= k).map g = x >>= fun a => (k a).map g := by
  cases x <;> rfl

/-- **The permissions never decide a finalization**: with them or without,
`finalize_pairing` succeeds or fails, and fails with the same error. -/
theorem finalizePairing_verdict (hs : db.Sound) :
    (finalizePairing id expected f now completionTime db).map (fun _ => ())
      = finalizationVerdict id expected f now completionTime db := by
  unfold finalizePairing finalizationVerdict
  rw [map_bind_except]
  refine bind_congr (fun _ => ?_)
  rw [map_bind_except]
  refine bind_congr (fun _ => ?_)
  cases db.pairingAttempts.find? (finalizable id expected now) with
  | none => rfl
  | some row =>
    simp only [map_bind_except]
    refine bind_congr (fun peerUuid => bind_congr (fun peerPublicKey => bind_congr (fun _ => ?_)))
    rw [readPermissions_attempt hs.attemptPermissionChecks, ok_bind]
    refine bind_congr (fun trust => ?_)
    obtain ⟨revision, reactivating⟩ := trust
    cases hmid : writeFinalized db (finalizedDevice f revision now) reactivating with
    | error e => rfl
    | ok mid =>
      rw [ok_bind, ok_bind]
      obtain ⟨-, hself, -, hframe, -⟩ := writeFinalized_eq_ok hs.toWellFormed hmid
      obtain ⟨mid₂, hmid₂⟩ : ∃ mid₂, writePermissions
          (mid.deleteDevicePermissions (blobOf f.peerUuid)) f.peerUuid
          (permissionsOf db.pairingAttemptPermissions id) false = .ok mid₂ := by
        refine ⟨_, writePermissions_device_iff.mpr
          ⟨Database.Sound.writable hs.proposed hs.attemptPermissionChecks id, ?_, rfl⟩⟩
        refine fun t _ => ⟨fun hmem => ?_, _, hself, rfl⟩
        rw [Database.devicePermissions_delete] at hmem
        exact of_decide_eq_true (List.mem_filter.mp hmem).2 rfl
      have hattempts : mid₂.pairingAttempts = db.pairingAttempts := by
        rw [(writePermissions_device hmid₂).1, hframe]
        rfl
      have hdevice : (finalizedDevice f revision now).uuid = f.peerUuid := rfl
      rw [hdevice, hmid₂, ok_bind]
      refine bind_congr (fun _ => ?_)
      show (changedOne (mid₂.pairingAttempts.countP (finalizable id expected completionTime))
        >>= fun _ => _) = _
      rw [hattempts]
      cases changedOne (db.pairingAttempts.countP (finalizable id expected completionTime)) <;> rfl

/-- Whether the finalized record can be written depends on the devices
only. -/
theorem writeFinalized_congr {db₁ : Database} (hdevices : db₁.trustedDevices = db.trustedDevices)
    (d : TrustedDevice) (reactivating : Bool) :
    (writeFinalized db₁ d reactivating).map (fun _ => ())
      = (writeFinalized db d reactivating).map (fun _ => ()) := by
  unfold writeFinalized
  rw [map_bind_except, map_bind_except]
  refine bind_congr (fun p => ?_)
  cases reactivating with
  | true =>
    simp only [if_pos, Database.updateDevices, hdevices]
    split
    · rw [ok_bind, ok_bind, map_bind_except, map_bind_except]
      exact bind_congr (fun _ => rfl)
    · rfl
  | false =>
    simp only [Bool.false_eq_true, if_false, Database.insertDevice, hdevices]
    split_ifs <;> rfl

/-- The verdict depends on the devices and the attempts only. -/
theorem finalizationVerdict_congr {db₁ : Database}
    (hdevices : db₁.trustedDevices = db.trustedDevices)
    (hattempts : db₁.pairingAttempts = db.pairingAttempts) :
    finalizationVerdict id expected f now completionTime db₁
      = finalizationVerdict id expected f now completionTime db := by
  have hdiscard : ∀ {α : Type} (x : Except StoreError α) (k : Except StoreError Unit),
      (x >>= fun _ => k) = x.map (fun _ => ()) >>= fun _ => k := by
    intro α x k
    cases x <;> rfl
  have hexisting : existingTrust db₁ f = existingTrust db f := by
    unfold existingTrust
    rw [hdevices]
  unfold finalizationVerdict
  rw [hattempts]
  refine bind_congr (fun _ => bind_congr (fun _ => ?_))
  cases db.pairingAttempts.find? (finalizable id expected now) with
  | none => rfl
  | some row =>
    refine bind_congr (fun peerUuid => bind_congr (fun peerPublicKey => bind_congr (fun _ => ?_)))
    rw [hexisting]
    refine bind_congr (fun trust => ?_)
    obtain ⟨revision, reactivating⟩ := trust
    show (writeFinalized db₁ _ reactivating >>= fun _ => _)
      = (writeFinalized db _ reactivating >>= fun _ => _)
    rw [hdiscard, writeFinalized_congr hdevices, ← hdiscard]

end TrustStore

/-! ## Runs -/

/-- The attempt an operation takes out of the store when it succeeds. -/
def StoreOperation.removes : StoreOperation → Option TrustUuid
  | .deleteAttempt id _ => some id
  | .finalizePairing id _ _ _ _ => some id
  | _ => none

/-- **An attempt that is removed leaves nothing behind.** -/
theorem StoreOperation.Writes.removed {db db' : Database} {operation : StoreOperation}
    {id : TrustUuid} (h : operation.Writes db db') (hid : operation.removes = some id) :
    (∀ r ∈ db'.pairingAttempts, r.attemptId ≠ blobOf id)
      ∧ ∀ p ∈ db'.pairingAttemptPermissions, p.owner ≠ blobOf id := by
  have hremoves : ∃ mid : Database, mid.Removes id db' := by
    cases h with
    | importDeviceForAdmin => cases hid
    | updateDevice => cases hid
    | revokeDevice => cases hid
    | createAttempt => cases hid
    | updateAttempt => cases hid
    | deleteAttempt hremoves =>
      obtain rfl := Option.some.inj hid
      exact ⟨db, hremoves⟩
    | finalizePairing _ _ hremoves =>
      obtain rfl := Option.some.inj hid
      exact ⟨_, hremoves⟩
  obtain ⟨mid, hmid⟩ := hremoves
  rw [hmid.pairingAttempts, hmid.pairingAttemptPermissions]
  exact ⟨fun r hr => of_decide_eq_true (List.mem_filter.mp hr).2,
    fun p hp => of_decide_eq_true (List.mem_filter.mp hp).2⟩

namespace TrustStores

variable {s s' : TrustStores} {e : StoreEvent} {es : List StoreEvent}

theorem step_writes (hwf : s.database.WellFormed) (h : s.step e = some s') :
    (e.succeeds = true ∧ e.operation.Writes s.database s'.database)
      ∨ (e.succeeds = false ∧ s' = s) := by
  unfold step at h
  split at h
  · rename_i hsucceeds
    split at h
    · rename_i db hrun
      obtain rfl := Option.some.inj h
      exact .inl ⟨hsucceeds, (StoreOperation.run_refines hwf hrun).2.1⟩
    · cases h
  · rename_i hfails
    exact .inr ⟨by simpa using hfails, (Option.some.inj h).symm⟩

theorem step_sound (hs : s.database.Sound) (h : s.step e = some s') : s'.database.Sound := by
  rcases step_writes hs.toWellFormed h with ⟨-, hwrites⟩ | ⟨-, rfl⟩
  · exact hwrites.sound hs (step_cases hs.toWellFormed h).1
  · exact hs

/-- **Every run on a new database keeps the invariant.** -/
theorem sound_of_initial (h : runs step initial es = some s) : s.database.Sound :=
  runs_invariant (I := fun t => t.database.Sound) (fun _ _ _ hs hstep => step_sound hs hstep) h
    Database.sound_empty

/-- A device that is not active has no permissions. -/
theorem permissions_of_not_active (hwf : s.database.WellFormed) {u : TrustUuid}
    (h : ¬ Active u s) : TrustStore.permissions s.database u = .ok [] := by
  rw [Database.permissions_eq hwf]
  cases hd : s.database.ledger.device u with
  | none => rfl
  | some d =>
    have hstatus : d.status ≠ .active := fun hstatus => h ((active_iff hwf).mpr ⟨d, hd, hstatus⟩)
    rw [Option.map_some, Option.getD_some, ((Database.device_eq_some_iff hwf).mp hd).2,
      if_neg hstatus]

/-- **The integrity of the store.** In every state a run on a new database
reaches: no revoked device has permissions, permissions have an owner, at
most 128 each and no two alike, and every text is bounded and free of NUL
bytes. A call that consumes or deletes an attempt leaves no row of it or of
its permissions. So `permissions` returns nothing for a device that is not
active, and a finalization fails, with whatever error, exactly where it
would fail if its attempt proposed no permissions. -/
theorem store_integrity (h : runs step initial es = some s) :
    s.database.Integrity
      ∧ (∀ e s' id, s.step e = some s' → e.succeeds = true → e.operation.removes = some id →
        (∀ r ∈ s'.database.pairingAttempts, r.attemptId ≠ blobOf id)
          ∧ ∀ p ∈ s'.database.pairingAttemptPermissions, p.owner ≠ blobOf id)
      ∧ (∀ u, ¬ Active u s → TrustStore.permissions s.database u = .ok [])
      ∧ ∀ id expected f now completionTime error,
        TrustStore.finalizePairing id expected f now completionTime s.database = .error error
          ↔ TrustStore.finalizePairing id expected f now completionTime
            (s.database.deleteAttemptPermissions (blobOf id)) = .error error := by
  have hs := sound_of_initial h
  refine ⟨hs.integrity, ?_, fun u => permissions_of_not_active hs.toWellFormed, ?_⟩
  · intro e s' id hstep hsucceeds hid
    rcases step_writes hs.toWellFormed hstep with ⟨-, hwrites⟩ | ⟨hfails, -⟩
    · exact hwrites.removed hid
    · rw [hfails] at hsucceeds
      cases hsucceeds
  · intro id expected f now completionTime error
    have hs' : (s.database.deleteAttemptPermissions (blobOf id)).Sound :=
      { toWellFormed := hs.deleteAttemptPermissions _
        revoked := hs.revoked
        granted := hs.granted
        proposed := hs.proposed.filter _
        clean := hs.clean }
    have herror : ∀ x : Except StoreError Database,
        x = .error error ↔ x.map (fun _ => ()) = .error error := by
      intro x
      cases x with
      | error e => simp [Except.map]
      | ok db => simp [Except.map]
    have hverdict : TrustStore.finalizationVerdict id expected f now completionTime
        (s.database.deleteAttemptPermissions (blobOf id))
        = TrustStore.finalizationVerdict id expected f now completionTime s.database :=
      TrustStore.finalizationVerdict_congr rfl rfl
    rw [herror, herror, TrustStore.finalizePairing_verdict hs,
      TrustStore.finalizePairing_verdict hs', hverdict]

/-- A device is paired and revoked again. -/
theorem store_integrity_pairing :
    ∃ s, runs step initial (samplePairing ++ [⟨0, .revokeDevice sampleUuid 1 9, true⟩]) = some s
      ∧ s.database.Integrity ∧ TrustStore.permissions s.database sampleUuid = .ok [] := by
  obtain ⟨s, h, hd⟩ : ∃ s,
      runs step initial (samplePairing ++ [⟨0, .revokeDevice sampleUuid 1 9, true⟩]) = some s
        ∧ (TrustStore.findDevice s.database sampleUuid).map
          (fun d => d.map TrustedDevice.status) = .ok (some .revoked) :=
    Option.map_eq_some_iff.mp (by decide +kernel)
  have hintegrity := store_integrity h
  refine ⟨s, h, hintegrity.1, hintegrity.2.2.1 _ ?_⟩
  rintro ⟨d, hfound, hactive⟩
  rw [hfound] at hd
  simp only [Except.map, Option.map_some, Except.ok.injEq, Option.some.injEq, hactive] at hd
  cases hd

end TrustStores

end Gasoline
