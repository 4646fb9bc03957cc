import Gasoline.TrustIntegrity
import Gasoline.TrustTransactions

/-!
# Finalizing a pairing

`finalize_pairing` runs in a transaction, one statement after the other
(`TrustStore.callFinalizePairing`). Where SQLite and the file checks raise no
error it does what `TrustStore.finalizePairing` says, and this module
specifies it: exactly when it succeeds (`Finalizable`), what it has done then
(`Finalized`), and that it has done nothing otherwise.
-/

namespace Gasoline

/-! ## When a finalization succeeds -/

/-- The four texts of a finalization are ones the store can bind and the
schema admits. -/
structure PairingFinalization.Admissible (f : PairingFinalization) : Prop where
  texts : ∀ t ∈ [f.localAlias, f.peerName, f.peerPlatform, f.pairingMethod],
    t.length ≤ 4096 ∧ 0 ∉ t
  localAlias : SqlValue.characters f.localAlias ≤ 256
  peerName : SqlValue.characters f.peerName ≤ 256
  peerPlatform : SqlValue.characters f.peerPlatform ≤ 64
  pairingMethod : 1 ≤ SqlValue.characters f.pairingMethod
    ∧ SqlValue.characters f.pairingMethod ≤ 64

/-- **When a finalization succeeds.** -/
structure TrustStore.Finalizable (db : Database) (id : TrustUuid) (expected : Int64)
    (f : PairingFinalization) (now completionTime : Int64) : Prop where
  revision : 0 < expected
  clock : 0 ≤ now
  completionClock : 0 ≤ completionTime
  attempt : ∃ a, findAttempt db id = .ok (some a) ∧ a.revision = expected
    ∧ Ledger.Consumable a f now completionTime
  record : ∀ d, findDevice db f.peerUuid = .ok (some d) →
    d.status = .revoked ∧ d.publicKey = f.peerPublicKey ∧ d.revision < Int64.maxValue
  key : ∀ u d, findDevice db u = .ok (some d) → d.publicKey = f.peerPublicKey → u = f.peerUuid
  metadata : f.Admissible

/-- **What a finalization has done when it succeeds**: the attempt is gone
with its permissions, the record of the peer is active with what the attempt
proposed, and every other row is as it was. -/
structure TrustStore.Finalized (db : Database) (id : TrustUuid) (f : PairingFinalization)
    (now : Int64) (db' : Database) : Prop where
  record : ∃ a revision, findAttempt db id = .ok (some a)
    ∧ ((findDevice db f.peerUuid = .ok none ∧ revision = 1)
      ∨ ∃ old, findDevice db f.peerUuid = .ok (some old) ∧ revision = old.revision + 1)
    ∧ findDevice db' f.peerUuid = .ok (some {
        uuid := f.peerUuid
        publicKey := f.peerPublicKey
        status := .active
        revision := revision
        localAlias := f.localAlias
        peerName := f.peerName
        peerPlatform := f.peerPlatform
        pairingMethod := f.pairingMethod
        pairedAt := now
        revokedAt := none
        lastAuthenticatedAt := none
        permissions := a.proposedPermissions })
  attemptGone : findAttempt db' id = .ok none
  otherDevices : db'.trustedDevices.filter (fun r => decide (r.uuid ≠ blobOf f.peerUuid))
    = db.trustedDevices.filter (fun r => decide (r.uuid ≠ blobOf f.peerUuid))
  otherPermissions : db'.devicePermissions.filter (fun p => decide (p.owner ≠ blobOf f.peerUuid))
    = db.devicePermissions.filter (fun p => decide (p.owner ≠ blobOf f.peerUuid))
  attempts : db'.pairingAttempts
    = db.pairingAttempts.filter (fun r => decide (r.attemptId ≠ blobOf id))
  attemptPermissions : db'.pairingAttemptPermissions
    = db.pairingAttemptPermissions.filter (fun p => decide (p.owner ≠ blobOf id))

namespace TrustStore

variable {db db' : Database} {id : TrustUuid} {expected now completionTime : Int64}
  {f : PairingFinalization}

/-- The row of the finalized record passes the constraints. -/
theorem finalizedDevice_check (hf : f.Admissible) {revision : Int64} (hrev : 1 ≤ revision)
    (hnow : 0 ≤ now) : (DeviceRow.ofDevice (finalizedDevice f revision now)).check = true := by
  have huuid : (blobOf f.peerUuid).isBlob 16 = true := SqlValue.isBlob_iff.mpr ⟨_, rfl⟩
  have hkey : (blobOf f.peerPublicKey).isBlob 32 = true := SqlValue.isBlob_iff.mpr ⟨_, rfl⟩
  simp [DeviceRow.check, DeviceRow.ofDevice, finalizedDevice, huuid, hkey, TrustStatus.text,
    SqlValue.isInteger, SqlValue.isText, SqlValue.ofOptional, SqlValue.isNullableInteger, hrev,
    hnow, hf.localAlias, hf.peerName, hf.peerPlatform, hf.pairingMethod]

/-- The constraints on the row of the finalized record bound its texts. -/
theorem admissible_of_check {revision : Int64}
    (htexts : ∀ t ∈ (finalizedDevice f revision now).texts, Params.validText t = true)
    (hcheck : (DeviceRow.ofDevice (finalizedDevice f revision now)).check = true) :
    f.Admissible := by
  simp only [DeviceRow.check, Bool.and_eq_true] at hcheck
  obtain ⟨⟨⟨⟨⟨⟨⟨⟨⟨⟨⟨⟨-, -⟩, -⟩, -⟩, ha⟩, hn⟩, hp⟩, hm⟩, -⟩, -⟩, -⟩, -⟩, -⟩ := hcheck
  simp only [DeviceRow.ofDevice, finalizedDevice, SqlValue.isText, decide_eq_true_eq,
    Bool.and_eq_true] at ha hn hp hm
  exact ⟨fun t ht => Params.validText_iff.mp (htexts t ht), ha, hn, hp, hm⟩

/-- The finalized record can be bound. -/
theorem exists_bindDevice_finalized (hf : f.Admissible) (revision now : Int64) :
    ∃ p, bindDevice (finalizedDevice f revision now) = .ok p :=
  exists_bindDevice.mpr ⟨fun h => (by cases h),
    fun t ht => Params.validText_iff.mpr (hf.texts t ht)⟩

/-- The attempt a finalization asks for is found, and one row of it is
consumed. -/
theorem finalizable_found (hwf : db.WellFormed) {a : PairingAttempt}
    (ha : db.ledger.attempt id = some a) (hid : a.attemptId = id) {t : Int64}
    (hmatch : finalizable id expected t (.ofAttempt a) = true) :
    db.pairingAttempts.find? (finalizable id expected t) = some (.ofAttempt a)
      ∧ db.pairingAttempts.countP (finalizable id expected t) = 1 := by
  have hmem := (lookup_spec ((Database.attempt_eq_some_iff hwf).mp ha).1).1
  have hkey : ∀ r, finalizable id expected t r = true →
      r.attemptId = (AttemptRow.ofAttempt a).attemptId := by
    intro r hr
    simp [finalizable] at hr
    rw [hr.1.1.1.1.1, AttemptRow.ofAttempt_attemptId, hid]
  refine ⟨?_, countP_eq_one hwf.attempts.nodup hmem hmatch hkey⟩
  cases hfind : db.pairingAttempts.find? (finalizable id expected t) with
  | none => exact absurd hmatch (List.find?_eq_none.mp hfind _ hmem)
  | some r =>
    have hr := hkey r (List.find?_some hfind)
    rw [List.inj_on_of_nodup_map hwf.attempts.nodup (List.mem_of_find?_eq_some hfind) hmem hr]

/-- What is stored for a peer without a record, or with a revoked one. -/
theorem existingTrust_of_ledger (hwf : db.WellFormed)
    (h : ∀ d, db.ledger.device f.peerUuid = some d →
      d.status = .revoked ∧ d.publicKey = f.peerPublicKey ∧ d.revision < Int64.maxValue) :
    (db.ledger.device f.peerUuid = none ∧ existingTrust db f = .ok (1, false))
      ∨ ∃ old, db.ledger.device f.peerUuid = some old ∧ 0 < old.revision
        ∧ existingTrust db f = .ok (old.revision + 1, true) := by
  have hfind : db.trustedDevices.find? (fun r => r.uuid.equals (blobOf f.peerUuid))
      = lookup DeviceRow.uuid db.trustedDevices (blobOf f.peerUuid) := by
    simp only [lookup, SqlValue.equals_blobOf]
  cases hd : db.ledger.device f.peerUuid with
  | none =>
    refine .inl ⟨rfl, ?_⟩
    unfold existingTrust
    rw [hfind, (Database.device_eq_none_iff hwf).mp hd]
  | some old =>
    obtain ⟨hstatus, hkey, hlt⟩ := h old hd
    have hrow := ((Database.device_eq_some_iff hwf).mp hd).1
    have hpos : 0 < old.revision := by
      obtain ⟨d, hd', hpos⟩ := DeviceRow.exists_ofDevice (hwf.deviceChecks _ (lookup_spec hrow).1)
      have hrevision : old.revision = d.revision :=
        SqlValue.integer.inj (congrArg DeviceRow.revision hd')
      have hone : (0 : Int64) < 1 := by decide
      exact hrevision ▸ Int64.lt_of_lt_of_le hone hpos
    refine .inr ⟨old, rfl, hpos, ?_⟩
    unfold existingTrust
    rw [hfind, hrow]
    simp [hkey, hstatus, TrustStatus.text, SqlValue.toText, require, hpos, hlt, pure, Except.pure]

/-- A new record can be written where the peer's key is free. -/
theorem writeFinalized_new (hwf : db.WellFormed) (hf : f.Admissible) (hnow : 0 ≤ now)
    (hfresh : db.ledger.device f.peerUuid = none)
    (hkey : ∀ u d, db.ledger.device u = some d → d.publicKey ≠ f.peerPublicKey) :
    ∃ mid, writeFinalized db (finalizedDevice f 1 now) false = .ok mid := by
  obtain ⟨p, hp⟩ := exists_bindDevice_finalized hf 1 now
  have hrow := (bindDevice_eq_ok hp).1
  have hcheck : (DeviceRow.ofParams p).check = true := by
    rw [hrow]
    exact finalizedDevice_check hf (by decide) hnow
  have huuid : db.trustedDevices.any (fun r => r.uuid == (DeviceRow.ofParams p).uuid) = false := by
    rw [List.any_eq_false, hrow]
    intro r hr heq
    exact lookup_eq_none_iff.mp ((Database.device_eq_none_iff hwf).mp hfresh) r hr
      (beq_iff_eq.mp heq)
  have hpublicKey : db.trustedDevices.any
      (fun r => r.publicKey == (DeviceRow.ofParams p).publicKey) = false := by
    rw [List.any_eq_false, hrow]
    intro r hr heq
    obtain ⟨d, rfl, -⟩ := DeviceRow.exists_ofDevice (hwf.deviceChecks r hr)
    obtain ⟨e, he, -, hledger⟩ := Database.exists_device_of_lookup hwf
      (lookup_self hwf.devices.nodup hr)
    refine hkey _ _ hledger (blobOf_inj.mp ?_)
    rw [← DeviceRow.ofDevice_publicKey, ← he]
    exact beq_iff_eq.mp heq
  refine ⟨{ db with trustedDevices := db.trustedDevices ++ [.ofParams p] }, ?_⟩
  simp only [writeFinalized, hp, ok_bind, Bool.false_eq_true, if_false, Database.insertDevice,
    hcheck, huuid, hpublicKey, Bool.not_true]

/-- A revoked record of the peer can be replaced. -/
theorem writeFinalized_revoked (hwf : db.WellFormed) (hf : f.Admissible) (hnow : 0 ≤ now)
    {old : TrustedDevice} (hold : db.ledger.device f.peerUuid = some old)
    (hkey : old.publicKey = f.peerPublicKey) (hstatus : old.status = .revoked)
    (hpos : 0 < old.revision) (hlt : old.revision < Int64.maxValue) :
    ∃ mid, writeFinalized db (finalizedDevice f (old.revision + 1) now) true = .ok mid := by
  obtain ⟨p, hp⟩ := exists_bindDevice_finalized hf (old.revision + 1) now
  have hrow := (bindDevice_eq_ok hp).1
  have h₁ : p 1 = blobOf f.peerUuid := congrArg DeviceRow.uuid hrow
  have h₂ : p 2 = blobOf f.peerPublicKey := congrArg DeviceRow.publicKey hrow
  have hprev : (finalizedDevice f (old.revision + 1) now).revision - 1 = old.revision := by
    show old.revision + 1 - 1 = old.revision
    exact Int64.add_sub_cancel ..
  have hrevision : 1 ≤ old.revision + 1 := by
    have hpos' : (0 : Int64).toInt < old.revision.toInt := Int64.lt_iff_toInt_lt.mp hpos
    refine Int64.le_iff_toInt_le.mpr ?_
    rw [toInt_succ hlt]
    show (1 : ℤ) ≤ _
    have hzero : (0 : Int64).toInt = 0 := rfl
    omega
  set cond : DeviceRow → Bool := fun r => r.uuid.equals (blobOf f.peerUuid)
    && r.publicKey.equals (blobOf f.peerPublicKey) && r.status.equals (.text (ascii "REVOKED"))
    && r.revision.equals (.integer old.revision) with hcond
  obtain ⟨hlookup, -⟩ := (Database.device_eq_some_iff hwf).mp hold
  obtain ⟨hmem, huuid⟩ := lookup_spec hlookup
  have hpick : cond (.ofDevice old) = true := by
    simp [hcond, blobOf_inj.mp huuid, hkey, hstatus, TrustStatus.text]
  have hset : ∀ r, cond r = true → setDevice (p.bind 12 (.integer old.revision)) r
      = .ofDevice (finalizedDevice f (old.revision + 1) now) := by
    intro r hr
    simp only [hcond, SqlValue.equals_blobOf, Bool.and_eq_true, decide_eq_true_eq] at hr
    exact setDevice_eq (d := finalizedDevice f (old.revision + 1) now) hrow hr.1.1.1 hr.1.1.2
  have hall : (db.trustedDevices.filter cond).all
      (fun r => (setDevice (p.bind 12 (.integer old.revision)) r).check) = true := by
    rw [List.all_eq_true]
    intro r hr
    rw [hset r (List.mem_filter.mp hr).2]
    exact finalizedDevice_check hf hrevision hnow
  have hcount : db.trustedDevices.countP cond = 1 := by
    refine countP_eq_one hwf.devices.nodup hmem hpick (fun r hr => ?_)
    simp only [hcond, SqlValue.equals_blobOf, Bool.and_eq_true, decide_eq_true_eq] at hr
    exact hr.1.1.1.trans huuid.symm
  obtain ⟨mid, hmid⟩ : ∃ mid, db.updateDevices cond
      (setDevice (p.bind 12 (.integer old.revision))) = .ok (mid, db.trustedDevices.countP cond) :=
    ⟨_, if_pos hall⟩
  refine ⟨mid, ?_⟩
  simp only [writeFinalized, hp, ok_bind, if_true, hprev]
  simp (disch := decide) only [Params.bind_self, Params.bind_of_ne, h₁, h₂]
  rw [← hcond, hmid, ok_bind, hcount]
  rfl

/-- **Every check passes where a finalization may succeed.** -/
theorem finalizationVerdict_of_finalizable (hwf : db.WellFormed)
    (h : Finalizable db id expected f now completionTime) :
    finalizationVerdict id expected f now completionTime db = .ok () := by
  obtain ⟨a, ha, hrev, hconsumable⟩ := h.attempt
  rw [Database.findAttempt_eq_ledger hwf, Except.ok.injEq] at ha
  obtain ⟨hrow, -⟩ := (Database.attempt_eq_some_iff hwf).mp ha
  have hid : a.attemptId = id := blobOf_inj.mp (lookup_spec hrow).2
  have hmatch : ∀ t, t ≤ a.expiresAt → finalizable id expected t (.ofAttempt a) = true :=
    fun t ht => finalizable_ofAttempt.mpr ⟨hid, hrev, hconsumable.status,
      hconsumable.localConfirmed, hconsumable.peerConfirmed, ht⟩
  have hfound := (finalizable_found hwf ha hid (hmatch now hconsumable.notExpired)).1
  have hone := (finalizable_found hwf ha hid
    (hmatch completionTime hconsumable.notExpiredAtCompletion)).2
  have hrecord : ∀ d, db.ledger.device f.peerUuid = some d →
      d.status = .revoked ∧ d.publicKey = f.peerPublicKey ∧ d.revision < Int64.maxValue :=
    fun d hd => h.record d ((Database.findDevice_eq_ledger hwf _).trans (congrArg Except.ok hd))
  have hwritten : ∃ trust : Int64 × Bool, existingTrust db f = .ok trust
      ∧ ∃ mid, writeFinalized db (finalizedDevice f trust.1 now) trust.2 = .ok mid := by
    obtain ⟨hfresh, htrust⟩ | ⟨old, hold, hpos, htrust⟩ := existingTrust_of_ledger hwf hrecord
    · refine ⟨_, htrust, writeFinalized_new hwf h.metadata h.clock hfresh (fun u d hd hkey => ?_)⟩
      have hu := h.key u d
        ((Database.findDevice_eq_ledger hwf _).trans (congrArg Except.ok hd)) hkey
      rw [hu, hfresh] at hd
      cases hd
    · obtain ⟨hstatus, hkey, hlt⟩ := hrecord old hold
      exact ⟨_, htrust, writeFinalized_revoked hwf h.metadata h.clock hold hkey hstatus hpos hlt⟩
  obtain ⟨⟨revision, reactivating⟩, htrust, mid, hmid⟩ := hwritten
  simp only [finalizationVerdict, decide_eq_true h.revision, decide_eq_true h.clock,
    decide_eq_true h.completionClock, hfound, AttemptRow.ofAttempt, SqlValue.toBlob_blobOf,
    ok_bind, hconsumable.peerUuid, hconsumable.peerPublicKey, beq_self_eq_true, Bool.and_self,
    htrust, hmid, hone]
  rfl

/-- What a finalization that succeeds has checked. -/
theorem finalizable_of_ok (hs : db.Sound)
    (h : finalizePairing id expected f now completionTime db = .ok db') :
    Finalizable db id expected f now completionTime := by
  have hwf := hs.toWellFormed
  obtain ⟨-, -, hstep⟩ := finalizePairing_refines hwf h
  have hverdict : .ok () = finalizationVerdict id expected f now completionTime db := by
    rw [← finalizePairing_verdict hs, h]
    rfl
  have hverdict := hverdict.symm
  unfold finalizationVerdict at hverdict
  obtain ⟨hpos, hverdict⟩ := require_bind_eq_ok.mp hverdict
  obtain ⟨hnow, hverdict⟩ := require_bind_eq_ok.mp hverdict
  split at hverdict
  · cases hverdict
  obtain ⟨_, -, hverdict⟩ := bind_eq_ok.mp hverdict
  obtain ⟨_, -, hverdict⟩ := bind_eq_ok.mp hverdict
  obtain ⟨-, hverdict⟩ := require_bind_eq_ok.mp hverdict
  obtain ⟨⟨revision, reactivating⟩, -, hverdict⟩ := bind_eq_ok.mp hverdict
  obtain ⟨mid, hmid, hverdict⟩ := bind_eq_ok.mp hverdict
  obtain ⟨hcompletion, -⟩ := require_bind_eq_ok.mp hverdict
  obtain ⟨hwf₁, hself, -, -, htexts, -⟩ := writeFinalized_eq_ok hwf hmid
  have hmetadata := admissible_of_check htexts (hwf₁.deviceChecks _ hself)
  have hattempt : ∀ a, db.ledger.attempt id = some a → findAttempt db id = .ok (some a) :=
    fun a ha => (Database.findAttempt_eq_ledger hwf id).trans (congrArg Except.ok ha)
  have hdevice : ∀ u d, findDevice db u = .ok (some d) → db.ledger.device u = some d :=
    fun u d hd => Except.ok.inj ((Database.findDevice_eq_ledger hwf u).symm.trans hd)
  generalize db'.ledger = L' at hstep
  cases hstep with
  | finalizeNew stored revision consumable fresh keyFree =>
    exact {
      revision := of_decide_eq_true hpos
      clock := of_decide_eq_true hnow
      completionClock := of_decide_eq_true hcompletion
      attempt := ⟨_, hattempt _ stored, revision, consumable⟩
      record := fun d hd => by
        rw [hdevice _ _ hd] at fresh
        cases fresh
      key := fun u d hd hkey => absurd hkey (keyFree u d (hdevice _ _ hd))
      metadata := hmetadata }
  | finalizeRevoked stored revision consumable known key revoked positive bounded =>
    exact {
      revision := of_decide_eq_true hpos
      clock := of_decide_eq_true hnow
      completionClock := of_decide_eq_true hcompletion
      attempt := ⟨_, hattempt _ stored, revision, consumable⟩
      record := fun d hd => by
        obtain rfl := Option.some.inj (known.symm.trans (hdevice _ _ hd))
        exact ⟨revoked, key, bounded⟩
      key := fun u d hd hkey =>
        Database.device_publicKey_inj hwf (hdevice _ _ hd) known (hkey.trans key.symm)
      metadata := hmetadata }

/-- **What a finalization that succeeds has done.** -/
theorem finalized_of_ok (hwf : db.WellFormed)
    (h : finalizePairing id expected f now completionTime db = .ok db') :
    Finalized db id f now db' := by
  obtain ⟨hwf', ⟨mid, revision, ps, henters, -, hremoves⟩, hstep⟩ := finalizePairing_refines hwf h
  have hattempts : db'.pairingAttempts
      = db.pairingAttempts.filter (fun r => decide (r.attemptId ≠ blobOf id)) := by
    rw [hremoves.pairingAttempts, henters.pairingAttempts]
  have hperms : db'.pairingAttemptPermissions
      = db.pairingAttemptPermissions.filter (fun p => decide (p.owner ≠ blobOf id)) := by
    rw [hremoves.pairingAttemptPermissions, henters.pairingAttemptPermissions]
  refine ⟨?_, ?_, ?_, ?_, hattempts, hperms⟩
  · simp only [Database.findAttempt_eq_ledger hwf, Database.findDevice_eq_ledger hwf,
      Database.findDevice_eq_ledger hwf', Except.ok.injEq]
    generalize db'.ledger = L' at hstep
    cases hstep with
    | finalizeNew stored revision consumable fresh keyFree =>
      exact ⟨_, 1, stored, .inl ⟨fresh, rfl⟩, Function.update_self ..⟩
    | finalizeRevoked stored revision consumable known key revoked positive bounded =>
      exact ⟨_, _, stored, .inr ⟨_, known, rfl⟩, Function.update_self ..⟩
  · refine findAttempt_of_lookup_none (lookup_eq_none_iff.mpr (fun r hr => ?_))
    rw [hattempts] at hr
    exact of_decide_eq_true (List.mem_filter.mp hr).2
  · rw [hremoves.trustedDevices]
    exact henters.table.others
  · have huuid : (DeviceRow.ofDevice (finalizedDevice f revision now)).uuid
        = blobOf f.peerUuid := rfl
    have hnew : (ps.map (PermissionRow.ofText f.peerUuid)).filter
        (fun p => decide (p.owner ≠ blobOf f.peerUuid)) = [] := by
      rw [List.filter_eq_nil_iff]
      intro p hp
      simpa using Database.owner_ofText p hp
    have hold : (db.devicePermissions.filter (fun p => decide (p.owner ≠ blobOf f.peerUuid))).filter
        (fun p => decide (p.owner ≠ blobOf f.peerUuid))
        = db.devicePermissions.filter (fun p => decide (p.owner ≠ blobOf f.peerUuid)) := by
      simp only [List.filter_filter, Bool.and_self]
    rw [hremoves.devicePermissions, henters.table.children_eq, huuid, List.filter_append, hold]
    exact (congrArg _ hnew).trans (List.append_nil _)

end TrustStore

/-! ## Calls of `finalize_pairing` -/

namespace TrustStores

/-- **`finalize_pairing`, called through an instance**, where SQLite and the
file checks raise no error: its statements, and the step of
`local_generation` behind the commit. -/
def finalizePairing (s : TrustStores) (store : ℕ) (attemptId : TrustUuid)
    (expectedRevision : Int64) (finalization : PairingFinalization) (now completionTime : Int64) :
    Except CallError Unit × TrustStores :=
  match (TrustStore.callFinalizePairing attemptId expectedRevision finalization now
    completionTime).run ⟨s.database, none, []⟩ with
  | .ok () h =>
    (.ok (), s.commit store
      (.finalizePairing attemptId expectedRevision finalization now completionTime) h.committed)
  | .error e h => (.error e, { s with database := h.committed })

variable {s s' : TrustStores} {es : List StoreEvent} {store : ℕ} {id : TrustUuid}
  {expected now completionTime : Int64} {f : PairingFinalization}

/-- **A call commits what `TrustStore.finalizePairing` returns**, or changes
nothing. -/
theorem finalizePairing_eq (s : TrustStores) (store : ℕ) (id : TrustUuid) (expected : Int64)
    (f : PairingFinalization) (now completionTime : Int64) :
    s.finalizePairing store id expected f now completionTime
      = match TrustStore.finalizePairing id expected f now completionTime s.database with
        | .ok database =>
          (.ok (), s.commit store (.finalizePairing id expected f now completionTime) database)
        | .error e => (.error (.store e), s) := by
  have hspec := TrustStore.callFinalizePairing_spec (h := ⟨s.database, none, []⟩) id expected f now
    completionTime rfl
  unfold finalizePairing
  unfold Before at hspec
  cases hcall : (TrustStore.callFinalizePairing id expected f now completionTime).run
      ⟨s.database, none, []⟩ with
  | ok u h =>
    rw [hcall] at hspec
    have hrun : TrustStore.finalizePairing id expected f now completionTime s.database
        = .ok h.committed := hspec.2
    rw [hrun]
  | error e h =>
    rw [hcall] at hspec
    cases e with
    | fault => exact absurd rfl hspec.2.1
    | store err =>
      have hrun : TrustStore.finalizePairing id expected f now completionTime s.database
          = .error err := hspec.2.1
      have hcommitted : h.committed = s.database := hspec.2.2
      simp only [hrun, hcommitted]

/-- A call that succeeds is a step of the instances. -/
theorem step_of_finalizePairing
    (h : s.finalizePairing store id expected f now completionTime = (.ok (), s')) :
    s.step ⟨store, .finalizePairing id expected f now completionTime, true⟩ = some s' := by
  rw [finalizePairing_eq] at h
  show (match TrustStore.finalizePairing id expected f now completionTime s.database with
    | .ok db => some (s.commit store (.finalizePairing id expected f now completionTime) db)
    | .error _ => none) = some s'
  cases hrun : TrustStore.finalizePairing id expected f now completionTime s.database with
  | error e =>
    rw [hrun] at h
    cases h
  | ok db =>
    rw [hrun] at h
    exact congrArg some (Prod.mk.inj h).2

/-- **The specification of `finalize_pairing`.** In every state a run on a
new database reaches, for every argument and every two readings of the
clock: the call succeeds exactly where it may, it has then done what it is
for and nothing else, and where it throws the database and every instance's
change token are as they were. -/
theorem finalizePairing_spec (h : runs step initial es = some s) (store : ℕ) (id : TrustUuid)
    (expected : Int64) (f : PairingFinalization) (now completionTime : Int64) :
    ((s.finalizePairing store id expected f now completionTime).1 = .ok ()
        ↔ TrustStore.Finalizable s.database id expected f now completionTime)
      ∧ ((s.finalizePairing store id expected f now completionTime).1 = .ok () →
        TrustStore.Finalized s.database id f now
          (s.finalizePairing store id expected f now completionTime).2.database)
      ∧ ∀ e, (s.finalizePairing store id expected f now completionTime).1 = .error e →
        (s.finalizePairing store id expected f now completionTime).2.database = s.database
          ∧ ∀ i, (s.finalizePairing store id expected f now completionTime).2.changeToken i
            = s.changeToken i := by
  have hs := sound_of_initial h
  rw [finalizePairing_eq]
  cases hrun : TrustStore.finalizePairing id expected f now completionTime s.database with
  | ok db =>
    refine ⟨⟨fun _ => TrustStore.finalizable_of_ok hs hrun, fun _ => rfl⟩, fun _ => ?_, ?_⟩
    · exact TrustStore.finalized_of_ok hs.toWellFormed hrun
    · intro e he
      cases he
  | error e =>
    refine ⟨⟨fun hok => (by cases hok), fun hfinalizable => ?_⟩, fun hok => (by cases hok), ?_⟩
    · have hverdict : (Except.error e : Except StoreError Database).map (fun _ => ()) = .ok () := by
        rw [← hrun, TrustStore.finalizePairing_verdict hs]
        exact TrustStore.finalizationVerdict_of_finalizable hs.toWellFormed hfinalizable
      cases hverdict
    · exact fun _ _ => ⟨rfl, fun _ => rfl⟩

/-- The finalization of a confirmed attempt succeeds, and is specified. -/
theorem finalizePairing_spec_pairing :
    ∃ s, runs step initial (samplePairing.take 1) = some s
      ∧ TrustStore.Finalized s.database sampleUuid
        { peerUuid := sampleUuid, peerPublicKey := sampleKey, pairingMethod := ascii "sas" } 5
        (s.finalizePairing 1 sampleUuid 1
          { peerUuid := sampleUuid, peerPublicKey := sampleKey, pairingMethod := ascii "sas" }
          5 6).2.database := by
  obtain ⟨s, h, hok⟩ : ∃ s, runs step initial (samplePairing.take 1) = some s
      ∧ (s.finalizePairing 1 sampleUuid 1
        { peerUuid := sampleUuid, peerPublicKey := sampleKey, pairingMethod := ascii "sas" }
        5 6).1 = .ok () :=
    Option.map_eq_some_iff.mp (by decide +kernel)
  exact ⟨s, h, (finalizePairing_spec h _ _ _ _ _ _).2.1 hok⟩

end TrustStores

end Gasoline
