import Gasoline.TrustIntegrity

/-!
# Reading the trust store

Five queries tell what the store knows of a device: two lookups of the
record, the authorization lookup, the state and the permissions. Each is
written separately. On every store the operations can build they tell the
same story (`TrustStores.readers_agree`), and none of them throws.

What changed since is told by the change token. Through one instance, equal
tokens mean that nothing that grants or withdraws trust was committed in
between, by any instance (`TrustStores.changeToken_complete`).
-/

namespace Gasoline

namespace Database

variable {db : Database}

/-! ## The readers and the ledger -/

/-- An attempt with a device is open: pending, or confirmed. -/
def OpenAttempt (db : Database) (u : TrustUuid) : Prop :=
  ∃ id a, TrustStore.findAttempt db id = .ok (some a) ∧ a.peerUuid = u
    ∧ (a.status = .pending ∨ a.status = .confirmed)

/-- The subquery of `state` finds the open attempts. -/
theorem openAttempt_iff (hwf : db.WellFormed) {u : TrustUuid} :
    db.pairingAttempts.any (fun r => r.peerUuid.equals (blobOf u)
        && (r.status.equals (.text (ascii "PENDING"))
          || r.status.equals (.text (ascii "CONFIRMED")))) = true
      ↔ db.OpenAttempt u := by
  have hpending : ∀ a : PairingAttempt, a.status.text = ascii "PENDING" ↔ a.status = .pending :=
    fun a => PairingAttemptStatus.text_injective.eq_iff' rfl
  have hconfirmed : ∀ a : PairingAttempt,
      a.status.text = ascii "CONFIRMED" ↔ a.status = .confirmed :=
    fun a => PairingAttemptStatus.text_injective.eq_iff' rfl
  simp only [List.any_eq_true, SqlValue.equals_blobOf, SqlValue.equals_text, Bool.and_eq_true,
    Bool.or_eq_true, decide_eq_true_eq, OpenAttempt, findAttempt_eq_ledger hwf, Except.ok.injEq]
  constructor
  · rintro ⟨r, hr, hpeer, hstatus⟩
    obtain ⟨b, rfl⟩ := AttemptRow.exists_ofAttempt (hwf.attemptChecks r hr)
    have hrow := lookup_self hwf.attempts.nodup hr
    rw [AttemptRow.ofAttempt_attemptId] at hrow
    obtain ⟨a, ha, -, hledger⟩ := exists_attempt_of_lookup hwf hrow
    rw [ha] at hpeer hstatus
    refine ⟨b.attemptId, a, hledger, blobOf_inj.mp hpeer, ?_⟩
    simpa [AttemptRow.ofAttempt, hpending, hconfirmed] using hstatus
  · rintro ⟨id, a, ha, rfl, hstatus⟩
    have hmem := (lookup_spec ((attempt_eq_some_iff hwf).mp ha).1).1
    refine ⟨_, hmem, rfl, ?_⟩
    simpa [AttemptRow.ofAttempt, hpending, hconfirmed] using hstatus

/-- **What `state` returns** for a device with a record: its status. -/
theorem state_of_device (hwf : db.WellFormed) {u : TrustUuid} {d : TrustedDevice}
    (hd : db.ledger.device u = some d) :
    TrustStore.state db u = .ok (match d.status with
      | .active => .active
      | .revoked => .revoked) := by
  have hrow := ((device_eq_some_iff hwf).mp hd).1
  have hfind : db.trustedDevices.find? (fun r => r.uuid.equals (blobOf u))
      = some (.ofDevice d) := by
    simp only [SqlValue.equals_blobOf]
    exact hrow
  unfold TrustStore.state
  simp only [hfind, DeviceRow.ofDevice_status, SqlValue.toText, ok_bind]
  cases d.status <;> rfl

/-- **What `state` returns** for a device without a record: whether an
attempt with it is open. -/
theorem state_of_no_device (hwf : db.WellFormed) {u : TrustUuid}
    (hd : db.ledger.device u = none) :
    (db.OpenAttempt u ∧ TrustStore.state db u = .ok .pairingPending)
      ∨ (¬ db.OpenAttempt u ∧ TrustStore.state db u = .ok .unknown) := by
  have hrow := (device_eq_none_iff hwf).mp hd
  have hfind : db.trustedDevices.find? (fun r => r.uuid.equals (blobOf u)) = none := by
    simp only [SqlValue.equals_blobOf]
    exact hrow
  unfold TrustStore.state
  rw [← openAttempt_iff hwf]
  simp only [hfind]
  split
  · rename_i hopen
    exact .inl ⟨hopen, rfl⟩
  · rename_i hclosed
    exact .inr ⟨hclosed, rfl⟩

/-- `find_by_public_key` on a well-formed database: it finds no row, or the
record of one. -/
theorem findByPublicKey_cases (hwf : db.WellFormed) (k : TrustPublicKey) :
    (lookup DeviceRow.publicKey db.trustedDevices (blobOf k) = none
        ∧ TrustStore.findByPublicKey db k = .ok none)
      ∨ ∃ d : TrustedDevice, d.publicKey = k ∧ db.ledger.device d.uuid = some d
        ∧ TrustStore.findByPublicKey db k = .ok (some d) := by
  have hfind : db.trustedDevices.find? (fun r => r.publicKey.equals (blobOf k))
      = lookup DeviceRow.publicKey db.trustedDevices (blobOf k) := by
    simp only [lookup, SqlValue.equals_blobOf]
  cases hrow : lookup DeviceRow.publicKey db.trustedDevices (blobOf k) with
  | none =>
    refine .inl ⟨rfl, ?_⟩
    unfold TrustStore.findByPublicKey
    rw [hfind, hrow]
  | some r =>
    -- the row is read as `find_device` reads it
    obtain ⟨hmem, hkey⟩ := lookup_spec hrow
    obtain ⟨c, rfl, -⟩ := DeviceRow.exists_ofDevice (hwf.deviceChecks r hmem)
    have huuid := lookup_self hwf.devices.nodup hmem
    rw [DeviceRow.ofDevice_uuid] at huuid
    obtain ⟨d, hd, hdu, hledger⟩ := exists_device_of_lookup hwf huuid
    have hdevice := findDevice_eq_ledger hwf c.uuid
    rw [hledger, TrustStore.findDevice_eq, huuid] at hdevice
    refine .inr ⟨d, blobOf_inj.mp ?_, hdu ▸ hledger, ?_⟩
    · rw [← DeviceRow.ofDevice_publicKey, ← hd]
      exact hkey
    · unfold TrustStore.findByPublicKey
      rw [hfind, hrow]
      exact hdevice

/-- **What `find_by_public_key` returns**: the record with the key. -/
theorem findByPublicKey_eq_ok (hwf : db.WellFormed) {k : TrustPublicKey} {d : TrustedDevice} :
    TrustStore.findByPublicKey db k = .ok (some d)
      ↔ db.ledger.device d.uuid = some d ∧ d.publicKey = k := by
  obtain ⟨hnone, hfound⟩ | ⟨e, hkey, hledger, hfound⟩ := findByPublicKey_cases hwf k
  · rw [hfound]
    refine ⟨fun h => (by cases h), ?_⟩
    rintro ⟨hd, rfl⟩
    have hmem := (lookup_spec ((device_eq_some_iff hwf).mp hd).1).1
    exact absurd rfl (lookup_eq_none_iff.mp hnone _ hmem)
  · rw [hfound, Except.ok.injEq, Option.some.injEq]
    constructor
    · rintro rfl
      exact ⟨hledger, hkey⟩
    · rintro ⟨hd, hdkey⟩
      have huuid := device_publicKey_inj hwf hledger hd (hkey.trans hdkey.symm)
      rw [huuid, hd] at hledger
      exact (Option.some.inj hledger).symm

/-- **What `find_active_authorization` returns** is the record's. -/
theorem findActiveAuthorization_eq_ok (hwf : db.WellFormed) {u : TrustUuid} {k : TrustPublicKey}
    {authorization : ActivePeerAuthorization} :
    TrustStore.findActiveAuthorization db u k = .ok (some authorization)
      ↔ ∃ d, db.ledger.device u = some d ∧ d.status = .active ∧ d.publicKey = k
        ∧ d.revision = authorization.revision ∧ d.permissions = authorization.permissions := by
  rw [findActiveAuthorization_eq hwf, Except.ok.injEq, Option.map_eq_some_iff]
  constructor
  · rintro ⟨d, hd, rfl⟩
    obtain ⟨hd, hmatch⟩ := Option.filter_eq_some_iff.mp hd
    rw [Bool.and_eq_true, decide_eq_true_eq, decide_eq_true_eq] at hmatch
    exact ⟨d, hd, hmatch.2, hmatch.1, rfl, rfl⟩
  · rintro ⟨d, hd, hstatus, hkey, hrevision, hpermissions⟩
    refine ⟨d, Option.filter_eq_some_iff.mpr ⟨hd, ?_⟩, ?_⟩
    · rw [decide_eq_true hstatus, decide_eq_true hkey]
      rfl
    · rw [hrevision, hpermissions]

/-- The permissions of a record are in order, and no two alike. -/
theorem Sound.device_permissions (hs : db.Sound) {u : TrustUuid} {d : TrustedDevice}
    (hd : db.ledger.device u = some d) :
    d.permissions.Nodup ∧ d.permissions.Pairwise (fun a b => Bytes.le a b = true) := by
  rw [((device_eq_some_iff hs.toWellFormed).mp hd).2]
  split
  · exact ⟨(Sound.writable hs.granted hs.devicePermissionChecks u).nodup,
      permissionsOf_pairwise ..⟩
  · exact ⟨List.nodup_nil, List.Pairwise.nil⟩

end Database

namespace TrustStores

variable {s s' s₁ s₂ : TrustStores} {e : StoreEvent} {es es₁ es₂ : List StoreEvent}

/-- **All readers tell the same story.** In every state a run on a new
database reaches: an authorization is found exactly where `find_device`
finds an active record with that key, revision and permissions, and then the
other readers agree; `find_by_public_key` finds the record that
`find_device` finds under its UUID; `state` is the status of the record, and
without a record it tells whether an attempt with the device is open; the
permissions of every record are in order and no two alike, and `permissions`
returns them. -/
theorem readers_agree (h : runs step initial es = some s) :
    (∀ u k authorization,
      TrustStore.findActiveAuthorization s.database u k = .ok (some authorization)
        ↔ ∃ d, TrustStore.findDevice s.database u = .ok (some d) ∧ d.status = .active
          ∧ d.publicKey = k ∧ d.revision = authorization.revision
          ∧ d.permissions = authorization.permissions)
      ∧ (∀ u k authorization,
        TrustStore.findActiveAuthorization s.database u k = .ok (some authorization) →
        TrustStore.state s.database u = .ok .active
          ∧ TrustStore.permissions s.database u = .ok authorization.permissions
          ∧ TrustStore.findByPublicKey s.database k = TrustStore.findDevice s.database u)
      ∧ (∀ k d, TrustStore.findByPublicKey s.database k = .ok (some d)
        ↔ TrustStore.findDevice s.database d.uuid = .ok (some d) ∧ d.publicKey = k)
      ∧ (∀ u, (TrustStore.state s.database u = .ok .active ↔ Active u s)
        ∧ (TrustStore.state s.database u = .ok .revoked ↔ Revoked u s)
        ∧ (TrustStore.findDevice s.database u = .ok none →
          (TrustStore.state s.database u = .ok .pairingPending ↔ s.database.OpenAttempt u)
            ∧ (TrustStore.state s.database u = .ok .unknown ↔ ¬ s.database.OpenAttempt u)))
      ∧ (∀ u d, TrustStore.findDevice s.database u = .ok (some d) →
        TrustStore.permissions s.database u = .ok d.permissions
          ∧ d.permissions.Nodup ∧ d.permissions.Pairwise (fun a b => Bytes.le a b = true))
      ∧ ∀ u k, (∃ d, TrustStore.findDevice s.database u = .ok d)
        ∧ (∃ d, TrustStore.findByPublicKey s.database k = .ok d)
        ∧ (∃ a, TrustStore.findActiveAuthorization s.database u k = .ok a)
        ∧ (∃ t, TrustStore.state s.database u = .ok t)
        ∧ ∃ ps, TrustStore.permissions s.database u = .ok ps := by
  have hs := sound_of_initial h
  have hwf := hs.toWellFormed
  have hdevice : ∀ u o, TrustStore.findDevice s.database u = .ok o
      ↔ s.database.ledger.device u = o := by
    intro u o
    rw [Database.findDevice_eq_ledger hwf, Except.ok.injEq]
  have hpermissions : ∀ u d, s.database.ledger.device u = some d →
      TrustStore.permissions s.database u = .ok d.permissions := by
    intro u d hd
    rw [Database.permissions_eq hwf, hd]
    rfl
  simp only [hdevice, Active, Revoked]
  refine ⟨fun u k authorization => Database.findActiveAuthorization_eq_ok hwf, ?_,
    fun k d => Database.findByPublicKey_eq_ok hwf, fun u => ?_, fun u d hd => ?_, fun u k => ?_⟩
  · intro u k authorization hauth
    obtain ⟨d, hd, hstatus, hkey, -, hps⟩ :=
      (Database.findActiveAuthorization_eq_ok hwf).mp hauth
    have hstate := Database.state_of_device hwf hd
    rw [hstatus] at hstate
    refine ⟨hstate, hps ▸ hpermissions u d hd, ?_⟩
    rw [(hdevice u (some d)).mpr hd]
    exact (Database.findByPublicKey_eq_ok hwf).mpr ⟨(Database.device_uuid hwf hd).symm ▸ hd, hkey⟩
  · cases hd : s.database.ledger.device u with
    | some d =>
      rw [Database.state_of_device hwf hd]
      cases hstatus : d.status with
      | active => simp [hstatus]
      | revoked => simp [hstatus]
    | none =>
      obtain ⟨hopen, hstate⟩ | ⟨hclosed, hstate⟩ := Database.state_of_no_device hwf hd
      · rw [hstate]
        simp [hopen]
      · rw [hstate]
        simp [hclosed]
  · exact ⟨hpermissions u d hd, hs.device_permissions hd⟩
  · refine ⟨⟨_, rfl⟩, ?_, ⟨_, Database.findActiveAuthorization_eq hwf u k⟩, ?_,
      ⟨_, Database.permissions_eq hwf u⟩⟩
    · obtain ⟨-, hfound⟩ | ⟨d, -, -, hfound⟩ := Database.findByPublicKey_cases hwf k
      · exact ⟨_, hfound⟩
      · exact ⟨_, hfound⟩
    · cases hd : s.database.ledger.device u with
      | some d => exact ⟨_, Database.state_of_device hwf hd⟩
      | none =>
        obtain ⟨-, hstate⟩ | ⟨-, hstate⟩ := Database.state_of_no_device hwf hd
        · exact ⟨_, hstate⟩
        · exact ⟨_, hstate⟩

/-- A paired device is authorized, and its state is read. -/
theorem readers_agree_pairing :
    ∃ s, runs step initial samplePairing = some s
      ∧ TrustStore.findActiveAuthorization s.database sampleUuid sampleKey = .ok (some ⟨1, []⟩)
      ∧ TrustStore.state s.database sampleUuid = .ok .active := by
  obtain ⟨s, h, hauth⟩ : ∃ s, runs step initial samplePairing = some s
      ∧ TrustStore.findActiveAuthorization s.database sampleUuid sampleKey
        = .ok (some ⟨1, []⟩) :=
    Option.map_eq_some_iff.mp (by decide +kernel)
  exact ⟨s, h, hauth, ((readers_agree h).2.1 _ _ _ hauth).1⟩

end TrustStores

/-! ## The change token -/

/-- An operation that does not advance the generation leaves the devices
alone. -/
theorem Ledger.Step.device_eq {L L' : Ledger} {operation : StoreOperation}
    (h : L.Step operation L') (hop : operation.advancesGeneration = false) :
    L'.device = L.device := by
  cases h <;> first | rfl | cases hop

namespace TrustStores

variable {s s' s₁ s₂ : TrustStores} {e : StoreEvent} {es es₁ es₂ : List StoreEvent}

/-- **What a call does to the token of an instance**: its own commits that
may change an authorization advance the first counter, and every commit of
another instance advances the second. -/
theorem changeToken_eq (h : s.step e = some s') (store : ℕ) :
    s'.changeToken store
      = ⟨s.localGeneration store
          + (if e.succeeds && e.store == store && e.operation.advancesGeneration then 1 else 0),
        s.dataVersion store + (if e.succeeds && e.store != store then 1 else 0)⟩ := by
  simp only [step] at h
  split at h
  · rename_i hsucceeds
    split at h
    · obtain rfl := Option.some.inj h
      by_cases hstore : store = e.store
      · subst hstore
        cases hop : e.operation.advancesGeneration with
        | true => simp [changeToken, commit, hop, hsucceeds]
        | false => simp [changeToken, commit, hop, hsucceeds]
      · have hne : e.store ≠ store := fun heq => hstore heq.symm
        cases hop : e.operation.advancesGeneration with
        | true => simp [changeToken, commit, hop, hsucceeds, hstore, hne]
        | false => simp [changeToken, commit, hop, hsucceeds, hstore, hne]
    · cases h
  · rename_i hfails
    obtain rfl := Option.some.inj h
    simp [changeToken, hfails]

/-- Neither counter of a token goes back. -/
theorem changeToken_mono (h : s.step e = some s') (store : ℕ) :
    (s.changeToken store).localGeneration ≤ (s'.changeToken store).localGeneration
      ∧ (s.changeToken store).externalGeneration ≤ (s'.changeToken store).externalGeneration := by
  rw [changeToken_eq h store]
  exact ⟨Nat.le_add_right .., Nat.le_add_right ..⟩

/-- **A call that leaves the token alone** committed nothing that may change
an authorization. -/
theorem not_advances_of_changeToken (h : s.step e = some s') {store : ℕ}
    (htoken : s'.changeToken store = s.changeToken store) (hsucceeds : e.succeeds = true) :
    e.operation.advancesGeneration = false := by
  rw [changeToken_eq h store, changeToken, ChangeToken.mk.injEq] at htoken
  obtain ⟨hlocal, hexternal⟩ := htoken
  by_contra hop
  by_cases hstore : e.store = store
  · simp [hsucceeds, hstore, hop] at hlocal
  · simp [hsucceeds, hstore] at hexternal

/-- A call that advances no generation leaves every authorization alone. -/
theorem authorization_of_not_advances (hwf : s.database.WellFormed) (h : s.step e = some s')
    (hop : e.succeeds = true → e.operation.advancesGeneration = false) (u : TrustUuid)
    (k : TrustPublicKey) :
    TrustStore.findActiveAuthorization s'.database u k
      = TrustStore.findActiveAuthorization s.database u k := by
  obtain ⟨hwf', ⟨hsucceeds, hstep⟩ | ⟨-, rfl⟩⟩ := step_cases hwf h
  · have hdevice : s'.database.ledger.device = s.database.ledger.device :=
      hstep.device_eq (hop hsucceeds)
    rw [Database.findActiveAuthorization_eq hwf', Database.findActiveAuthorization_eq hwf, hdevice]
  · rfl

/-- **What a call of a store does to the token of an instance**: it moves
with every change of an authorization, and never back. -/
theorem changeToken_step (hwf : s.database.WellFormed) (h : s.step e = some s') (store : ℕ) :
    (s.changeToken store).localGeneration ≤ (s'.changeToken store).localGeneration
      ∧ (s.changeToken store).externalGeneration ≤ (s'.changeToken store).externalGeneration
      ∧ (s'.changeToken store = s.changeToken store →
        ∀ u key, TrustStore.findActiveAuthorization s'.database u key
          = TrustStore.findActiveAuthorization s.database u key) := by
  obtain ⟨hlocal, hexternal⟩ := changeToken_mono h store
  exact ⟨hlocal, hexternal, fun htoken =>
    authorization_of_not_advances hwf h (not_advances_of_changeToken h htoken)⟩

/-- The token of an instance never goes back over a run. -/
theorem runs_changeToken_mono (h : runs step s es = some s') (store : ℕ) :
    (s.changeToken store).localGeneration ≤ (s'.changeToken store).localGeneration
      ∧ (s.changeToken store).externalGeneration ≤ (s'.changeToken store).externalGeneration :=
  runs_invariant (I := fun t =>
      (s.changeToken store).localGeneration ≤ (t.changeToken store).localGeneration
        ∧ (s.changeToken store).externalGeneration ≤ (t.changeToken store).externalGeneration)
    (fun _ _ _ hle hstep => ⟨hle.1.trans (changeToken_mono hstep store).1,
      hle.2.trans (changeToken_mono hstep store).2⟩) h ⟨le_rfl, le_rfl⟩

/-- Over a run that leaves the token of an instance as it was, no call
committed anything that may change an authorization. -/
theorem runs_not_advances (h : runs step s es = some s') {store : ℕ}
    (htoken : s'.changeToken store = s.changeToken store) :
    ∀ e ∈ es, e.succeeds = true → e.operation.advancesGeneration = false := by
  induction es generalizing s with
  | nil =>
    intro e he
    cases he
  | cons e es ih =>
    obtain ⟨t, ht, hrest⟩ := runs_cons.mp h
    -- the counters only go up, so they stand still at the first step too
    obtain ⟨hlocal, hexternal⟩ := changeToken_mono ht store
    obtain ⟨hlocal', hexternal'⟩ := runs_changeToken_mono hrest store
    have hfirst : t.changeToken store = s.changeToken store := by
      rw [htoken] at hlocal' hexternal'
      exact congrArg₂ ChangeToken.mk (le_antisymm hlocal' hlocal)
        (le_antisymm hexternal' hexternal)
    refine List.forall_mem_cons.mpr ⟨not_advances_of_changeToken ht hfirst, ?_⟩
    exact ih hrest (htoken.trans hfirst.symm)

/-- Over such a run every authorization stays as it is. -/
theorem runs_authorization (hwf : s.database.WellFormed) (h : runs step s es = some s')
    (hes : ∀ e ∈ es, e.succeeds = true → e.operation.advancesGeneration = false) (u : TrustUuid)
    (k : TrustPublicKey) :
    TrustStore.findActiveAuthorization s'.database u k
      = TrustStore.findActiveAuthorization s.database u k := by
  induction es generalizing s with
  | nil =>
    cases h
    rfl
  | cons e es ih =>
    obtain ⟨t, ht, hrest⟩ := runs_cons.mp h
    obtain ⟨he, hes⟩ := List.forall_mem_cons.mp hes
    rw [ih (step_cases hwf ht).1 hrest hes, authorization_of_not_advances hwf ht he]

/-- **The change token never hides a change of an authorization.** Where an
instance reads the same token twice, no import, update, revocation or
finalization was committed in between through any instance, and every
authorization is what it was. -/
theorem changeToken_complete (h₁ : runs step initial es₁ = some s₁)
    (h₂ : runs step s₁ es₂ = some s₂) (store : ℕ)
    (htoken : s₂.changeToken store = s₁.changeToken store) :
    (∀ u k, TrustStore.findActiveAuthorization s₂.database u k
        = TrustStore.findActiveAuthorization s₁.database u k)
      ∧ ∀ e ∈ es₂, e.succeeds = true →
        (∀ d, e.operation ≠ .importDeviceForAdmin d)
          ∧ (∀ d expected, e.operation ≠ .updateDevice d expected)
          ∧ (∀ u expected t, e.operation ≠ .revokeDevice u expected t)
          ∧ ∀ id expected f now t, e.operation ≠ .finalizePairing id expected f now t := by
  have hes := runs_not_advances h₂ htoken
  refine ⟨runs_authorization (wellFormed_of_initial h₁) h₂ hes, fun e he hsucceeds => ?_⟩
  have hop := hes e he hsucceeds
  refine ⟨?_, ?_, ?_, ?_⟩
  · rintro d hd
    rw [hd] at hop
    cases hop
  · rintro d expected hd
    rw [hd] at hop
    cases hop
  · rintro u expected t hd
    rw [hd] at hop
    cases hop
  · rintro id expected f now t hd
    rw [hd] at hop
    cases hop

/-- Between two equal tokens an instance created an attempt, and another one
failed to revoke a device. -/
theorem changeToken_complete_attempt :
    ∃ s₁ s₂, runs step initial [⟨0, .importDeviceForAdmin sampleDevice, true⟩] = some s₁
      ∧ runs step s₁ (samplePairing.take 1 ++ [⟨1, .revokeDevice sampleUuid 7 9, false⟩]) = some s₂
      ∧ s₂.changeToken 0 = s₁.changeToken 0
      ∧ TrustStore.findActiveAuthorization s₂.database sampleUuid sampleKey
        = TrustStore.findActiveAuthorization s₁.database sampleUuid sampleKey := by
  obtain ⟨s₁, h₁, hrest⟩ : ∃ s₁,
      runs step initial [⟨0, .importDeviceForAdmin sampleDevice, true⟩] = some s₁
        ∧ ((runs step s₁ (samplePairing.take 1
          ++ [⟨1, .revokeDevice sampleUuid 7 9, false⟩])).map (fun s₂ => s₂.changeToken 0))
          = some (s₁.changeToken 0) :=
    ⟨_, rfl, by decide +kernel⟩
  obtain ⟨s₂, h₂, htoken⟩ := Option.map_eq_some_iff.mp hrest
  exact ⟨s₁, s₂, h₁, h₂, htoken, (changeToken_complete h₁ h₂ 0 htoken).1 _ _⟩

end TrustStores

end Gasoline
