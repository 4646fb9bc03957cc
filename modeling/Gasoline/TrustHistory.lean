import Gasoline.TrustLedger
import Gasoline.Runs

/-!
# Histories of the trust store

What holds over every run of operations on a new database, made through any
number of instances and succeeding or failing.

A revision is a version stamp (`TrustStores.revision_stamps`): a record is
never removed and never changes its key, each write to it raises its
revision by one, so equal revisions mean equal records and a revision is
spent by the first write that expects it. Trust is granted by an import or
a pairing and by nothing else (`TrustStores.trust_granted`): behind every
active record stands the operation that activated it.

Both are read off the ledger. One step lemma says what an operation does to
one device, and the relation `Ledger.Extends` carries it over runs.
-/

namespace Gasoline

/-- A revision that has a successor is followed by it. -/
theorem toInt_succ {i : Int64} (h : i < Int64.maxValue) : (i + 1).toInt = i.toInt + 1 := by
  have hlt : i.toInt < 2 ^ 63 - 1 := Int64.lt_iff_toInt_lt.mp h
  have hge := i.le_toInt
  rw [Int64.toInt_add]
  exact Int.bmod_eq_of_le (by simp; omega) (by simp; omega)

/-- The device whose record an operation writes. -/
def StoreOperation.target : StoreOperation → Option TrustUuid
  | .importDeviceForAdmin device => some device.uuid
  | .updateDevice device _ => some device.uuid
  | .revokeDevice uuid _ _ => some uuid
  | .finalizePairing _ _ finalization _ _ => some finalization.peerUuid
  | .createAttempt _ => none
  | .updateAttempt _ _ => none
  | .deleteAttempt _ _ => none

/-- Whether an operation replaces a given revision of a device. -/
def StoreOperation.expects (u : TrustUuid) (revision : Int64) : StoreOperation → Bool
  | .updateDevice device expected => decide (device.uuid = u) && decide (expected = revision)
  | .revokeDevice uuid expected _ => decide (uuid = u) && decide (expected = revision)
  | _ => false

/-- Whether a call replaces a given revision of a device, and succeeds. -/
def StoreEvent.spends (u : TrustUuid) (revision : Int64) (e : StoreEvent) : Bool :=
  e.succeeds && e.operation.expects u revision

/-! ## One device of the ledger -/

namespace Ledger

variable {L L' : Ledger} {operation : StoreOperation} {u : TrustUuid}

/-- Every record stands under its own UUID. -/
def Keyed (L : Ledger) : Prop := ∀ u d, L.device u = some d → d.uuid = u

/-- What entering a record does to one device. -/
theorem setDevice_device (L : Ledger) (d : TrustedDevice) (u : TrustUuid) :
    (L.setDevice d).device u = if u = d.uuid then some d else L.device u := by
  show Function.update L.device d.uuid (some d) u = _
  rw [Function.update_apply]

theorem setDevice_self (L : Ledger) (d : TrustedDevice) :
    (L.setDevice d).device d.uuid = some d :=
  Function.update_self ..

/-- Operations write the record of their target only. -/
theorem Step.device_of_ne (hL : L.Keyed) (h : L.Step operation L')
    (hu : operation.target ≠ some u) : L'.device u = L.device u := by
  cases h with
  | importDeviceForAdmin fresh keyFree revision =>
    rw [setDevice_device, if_neg (fun e => hu (congrArg some e.symm))]
  | updateDevice stored key status oldRevision positive bounded revision =>
    rw [setDevice_device, if_neg (fun e => hu (congrArg some e.symm))]
  | revokeDevice stored oldRevision positive bounded =>
    have huuid := hL _ _ stored
    exact (setDevice_device ..).trans (if_neg (fun e => hu (congrArg some (e.trans huuid).symm)))
  | createAttempt fresh revision => rfl
  | updateAttempt stored peerUuid peerPublicKey createdAt oldRevision positive bounded revision =>
    rfl
  | deleteAttempt stored oldRevision => rfl
  | finalizeNew stored revision consumable fresh keyFree =>
    exact (setDevice_device ..).trans (if_neg (fun e => hu (congrArg some e.symm)))
  | finalizeRevoked stored revision consumable known key revoked positive bounded =>
    exact (setDevice_device ..).trans (if_neg (fun e => hu (congrArg some e.symm)))

/-- **What an operation does to its target**: it creates the record with
revision one, or raises its revision by one and keeps its key. -/
theorem Step.device_of_target (hL : L.Keyed) (h : L.Step operation L')
    (hu : operation.target = some u) :
    ∃ d', L'.device u = some d'
      ∧ ((L.device u = none ∧ d'.revision = 1)
        ∨ ∃ d, L.device u = some d ∧ d'.publicKey = d.publicKey
          ∧ d'.revision.toInt = d.revision.toInt + 1) := by
  cases h with
  | importDeviceForAdmin fresh keyFree revision =>
    obtain rfl := Option.some.inj hu
    exact ⟨_, setDevice_self .., .inl ⟨fresh, revision⟩⟩
  | updateDevice stored key status oldRevision positive bounded revision =>
    obtain rfl := Option.some.inj hu
    refine ⟨_, setDevice_self .., .inr ⟨_, stored, key, ?_⟩⟩
    rw [oldRevision, ← toInt_succ bounded, ← revision]
    rfl
  | revokeDevice stored oldRevision positive bounded =>
    obtain rfl := Option.some.inj hu
    refine ⟨_, (setDevice_device ..).trans (if_pos (hL _ _ stored).symm),
      .inr ⟨_, stored, rfl, ?_⟩⟩
    exact toInt_succ (oldRevision ▸ bounded)
  | createAttempt fresh revision => cases hu
  | updateAttempt stored peerUuid peerPublicKey createdAt oldRevision positive bounded revision =>
    cases hu
  | deleteAttempt stored oldRevision => cases hu
  | finalizeNew stored revision consumable fresh keyFree =>
    obtain rfl := Option.some.inj hu
    exact ⟨_, (setDevice_device ..).trans (if_pos rfl), .inl ⟨fresh, rfl⟩⟩
  | finalizeRevoked stored revision consumable known key revoked positive bounded =>
    obtain rfl := Option.some.inj hu
    exact ⟨_, (setDevice_device ..).trans (if_pos rfl),
      .inr ⟨_, known, key.symm, toInt_succ bounded⟩⟩

/-- **What a ledger keeps**: every record stays, with its key, and is
replaced by higher revisions only. -/
def Extends (L L' : Ledger) : Prop :=
  ∀ u d, L.device u = some d →
    ∃ d', L'.device u = some d' ∧ d'.publicKey = d.publicKey
      ∧ (d' = d ∨ d.revision.toInt < d'.revision.toInt)

theorem Extends.refl (L : Ledger) : L.Extends L :=
  fun _ d h => ⟨d, h, rfl, .inl rfl⟩

theorem Extends.trans {L₁ L₂ L₃ : Ledger} (h₁ : L₁.Extends L₂) (h₂ : L₂.Extends L₃) :
    L₁.Extends L₃ := by
  intro u d hd
  obtain ⟨d₂, hd₂, hkey₂, hrev₂⟩ := h₁ u d hd
  obtain ⟨d₃, hd₃, hkey₃, hrev₃⟩ := h₂ u d₂ hd₂
  refine ⟨d₃, hd₃, hkey₃.trans hkey₂, ?_⟩
  rcases hrev₂ with rfl | hlt₂
  · exact hrev₃
  rcases hrev₃ with rfl | hlt₃
  · exact .inr hlt₂
  · exact .inr (hlt₂.trans hlt₃)

theorem Step.extends (hL : L.Keyed) (h : L.Step operation L') : L.Extends L' := by
  intro u d hd
  by_cases hu : operation.target = some u
  · obtain ⟨d', hd', ⟨hnone, -⟩ | ⟨e, he, hkey, hrev⟩⟩ := h.device_of_target hL hu
    · rw [hd] at hnone
      cases hnone
    · obtain rfl := Option.some.inj (hd.symm.trans he)
      exact ⟨d', hd', hkey, .inr (by omega)⟩
  · exact ⟨d, (h.device_of_ne hL hu).trans hd, rfl, .inl rfl⟩

/-- An operation that expects a revision finds it and spends it. -/
theorem Step.spends (hL : L.Keyed) (h : L.Step operation L') {revision : Int64}
    (hexpects : operation.expects u revision = true) :
    ∃ d d', L.device u = some d ∧ d.revision = revision
      ∧ L'.device u = some d' ∧ revision.toInt < d'.revision.toInt := by
  have htarget : operation.target = some u
      ∧ ∃ d, L.device u = some d ∧ d.revision = revision := by
    cases h with
    | updateDevice stored key status oldRevision positive bounded hrevision =>
      simp only [StoreOperation.expects, Bool.and_eq_true, decide_eq_true_eq] at hexpects
      obtain ⟨rfl, rfl⟩ := hexpects
      exact ⟨rfl, _, stored, oldRevision⟩
    | revokeDevice stored oldRevision positive bounded =>
      simp only [StoreOperation.expects, Bool.and_eq_true, decide_eq_true_eq] at hexpects
      obtain ⟨rfl, rfl⟩ := hexpects
      exact ⟨rfl, _, stored, oldRevision⟩
    | importDeviceForAdmin => cases hexpects
    | createAttempt => cases hexpects
    | updateAttempt => cases hexpects
    | deleteAttempt => cases hexpects
    | finalizeNew => cases hexpects
    | finalizeRevoked => cases hexpects
  obtain ⟨hu, d, hd, rfl⟩ := htarget
  obtain ⟨d', hd', ⟨hnone, -⟩ | ⟨e, he, -, hrev⟩⟩ := h.device_of_target hL hu
  · rw [hd] at hnone
    cases hnone
  · obtain rfl := Option.some.inj (hd.symm.trans he)
    exact ⟨d, d', hd, rfl, hd', by omega⟩

end Ledger

/-! ## Runs -/

namespace TrustStores

variable {s s' s₁ s₂ : TrustStores} {e : StoreEvent} {es es₁ es₂ : List StoreEvent}

/-- The ledger the instances share. -/
def ledger (s : TrustStores) : Ledger := s.database.ledger

/-- **What a call does**: a call that succeeds is a step of the ledger, and
one that fails changes nothing. -/
theorem step_cases (hwf : s.database.WellFormed) (h : s.step e = some s') :
    s'.database.WellFormed
      ∧ ((e.succeeds = true ∧ s.ledger.Step e.operation s'.ledger)
        ∨ (e.succeeds = false ∧ s' = s)) := by
  unfold step at h
  split at h
  · rename_i hsucceeds
    split at h
    · rename_i db hrun
      obtain rfl := Option.some.inj h
      obtain ⟨hwf', -, hstep⟩ := StoreOperation.run_refines hwf hrun
      exact ⟨hwf', .inl ⟨hsucceeds, hstep⟩⟩
    · cases h
  · rename_i hfails
    obtain rfl := Option.some.inj h
    exact ⟨hwf, .inr ⟨by simpa using hfails, rfl⟩⟩

/-- Every run keeps the database well-formed. -/
theorem wellFormed_of_runs (h : runs step s es = some s') (hwf : s.database.WellFormed) :
    s'.database.WellFormed :=
  runs_invariant (I := fun t => t.database.WellFormed)
    (fun _ _ _ hwf hstep => (step_cases hwf hstep).1) h hwf

/-- A run on a new database keeps it well-formed. -/
theorem wellFormed_of_initial (h : runs step initial es = some s) : s.database.WellFormed :=
  wellFormed_of_runs h Database.wellFormed_empty

/-- The ledger of a well-formed database is keyed. -/
theorem keyed (hwf : s.database.WellFormed) : s.ledger.Keyed :=
  fun _ _ h => Database.device_uuid hwf h

theorem step_extends (hwf : s.database.WellFormed) (h : s.step e = some s') :
    s.ledger.Extends s'.ledger := by
  obtain ⟨-, ⟨-, hstep⟩ | ⟨-, rfl⟩⟩ := step_cases hwf h
  · exact hstep.extends (keyed hwf)
  · exact .refl _

theorem runs_extends (hwf : s.database.WellFormed) (h : runs step s es = some s') :
    s.ledger.Extends s'.ledger := by
  have hinv := runs_invariant (I := fun t => t.database.WellFormed ∧ s.ledger.Extends t.ledger)
    (fun t _ t' ht hstep => ⟨(step_cases ht.1 hstep).1, ht.2.trans (step_extends ht.1 hstep)⟩)
    h ⟨hwf, .refl _⟩
  exact hinv.2

/-- Once a revision is passed, no call that expects it succeeds. -/
theorem countP_expects_of_passed (hwf : s.database.WellFormed) {u : TrustUuid} {x : Int64}
    {d : TrustedDevice} (hd : s.ledger.device u = some d) (hpassed : x.toInt < d.revision.toInt)
    (h : runs step s es = some s') :
    es.countP (StoreEvent.spends u x) = 0 := by
  induction es generalizing s d with
  | nil => rfl
  | cons e es ih =>
    obtain ⟨t, ht, hrest⟩ := runs_cons.mp h
    have hwf' := (step_cases hwf ht).1
    obtain ⟨d', hd', -, hrev⟩ := step_extends hwf ht u d hd
    have hpassed' : x.toInt < d'.revision.toInt := by
      rcases hrev with rfl | hlt
      · exact hpassed
      · exact hpassed.trans hlt
    rw [List.countP_cons_of_neg, ih hwf' hd' hpassed' hrest]
    intro hc
    rw [StoreEvent.spends, Bool.and_eq_true] at hc
    obtain ⟨-, ⟨-, hstep⟩ | ⟨hfails, -⟩⟩ := step_cases hwf ht
    · obtain ⟨d₀, -, hd₀, hrev₀, -⟩ := hstep.spends (keyed hwf) hc.2
      obtain rfl := Option.some.inj (hd.symm.trans hd₀)
      rw [hrev₀] at hpassed
      exact absurd hpassed (lt_irrefl _)
    · rw [hfails] at hc
      cases hc.1

/-- **Of the calls that expect one revision at most one succeeds.** -/
theorem countP_expects_le_one (hwf : s.database.WellFormed) (u : TrustUuid) (x : Int64)
    (h : runs step s es = some s') :
    es.countP (StoreEvent.spends u x) ≤ 1 := by
  induction es generalizing s with
  | nil => exact Nat.zero_le 1
  | cons e es ih =>
    obtain ⟨t, ht, hrest⟩ := runs_cons.mp h
    have hwf' := (step_cases hwf ht).1
    by_cases hc : e.spends u x = true
    · rw [List.countP_cons_of_pos hc]
      rw [StoreEvent.spends, Bool.and_eq_true] at hc
      obtain ⟨-, ⟨-, hstep⟩ | ⟨hfails, -⟩⟩ := step_cases hwf ht
      · obtain ⟨-, d', -, -, hd', hpassed⟩ := hstep.spends (keyed hwf) hc.2
        rw [countP_expects_of_passed hwf' hd' hpassed hrest]
      · rw [hfails] at hc
        cases hc.1
    · rw [List.countP_cons_of_neg hc]
      exact ih hwf' hrest

/-! ## Revisions -/

/-- What one call does to the revision of one device: a call that writes its
record creates it with revision one or raises the revision by one, and any
other call leaves the record as it was. -/
def Stamped (s : TrustStores) (e : StoreEvent) (s' : TrustStores) (u : TrustUuid) : Prop :=
  if e.succeeds = true ∧ e.operation.target = some u then
    ∃ d', TrustStore.findDevice s'.database u = .ok (some d')
      ∧ ((TrustStore.findDevice s.database u = .ok none ∧ d'.revision = 1)
        ∨ ∃ d, TrustStore.findDevice s.database u = .ok (some d)
          ∧ d'.revision.toInt = d.revision.toInt + 1)
  else TrustStore.findDevice s'.database u = TrustStore.findDevice s.database u

theorem stamped_of_step (hwf : s.database.WellFormed) (h : s.step e = some s') (u : TrustUuid) :
    Stamped s e s' u := by
  obtain ⟨hwf', hcases⟩ := step_cases hwf h
  unfold Stamped
  rw [Database.findDevice_eq_ledger hwf, Database.findDevice_eq_ledger hwf']
  simp only [Except.ok.injEq]
  split
  · rename_i hwrites
    obtain ⟨-, hstep⟩ | ⟨hfails, -⟩ := hcases
    · obtain ⟨d', hd', hcreated | ⟨d, hd, -, hrev⟩⟩ :=
        hstep.device_of_target (keyed hwf) hwrites.2
      · exact ⟨d', hd', .inl hcreated⟩
      · exact ⟨d', hd', .inr ⟨d, hd, hrev⟩⟩
    · rw [hfails] at hwrites
      cases hwrites.1
  · rename_i hkeeps
    obtain ⟨hsucceeds, hstep⟩ | ⟨-, rfl⟩ := hcases
    · exact hstep.device_of_ne (keyed hwf) (fun hu => hkeeps ⟨hsucceeds, hu⟩)
    · rfl

/-- **A revision is a version stamp.** At two points of a run on a new
database: a record found at the first is found at the second under the same
UUID and key; no key is found under two UUIDs; records of one device with
one revision are equal. Every call stamps every device it writes, and of
the calls that expect one revision of a device at most one succeeds. -/
theorem revision_stamps (h₁ : runs step initial es₁ = some s₁)
    (h₂ : runs step s₁ es₂ = some s₂) :
    (∀ u d, TrustStore.findDevice s₁.database u = .ok (some d) →
      d.uuid = u ∧ ∃ d', TrustStore.findDevice s₂.database u = .ok (some d')
        ∧ d'.uuid = u ∧ d'.publicKey = d.publicKey)
      ∧ (∀ u v d d', TrustStore.findDevice s₁.database u = .ok (some d) →
        TrustStore.findDevice s₂.database v = .ok (some d') →
        d.publicKey = d'.publicKey → u = v)
      ∧ (∀ e s', step s₂ e = some s' → ∀ u, Stamped s₂ e s' u)
      ∧ (∀ u d d', TrustStore.findDevice s₁.database u = .ok (some d) →
        TrustStore.findDevice s₂.database u = .ok (some d') →
        d.revision = d'.revision → d = d')
      ∧ ∀ u x, (es₁ ++ es₂).countP (StoreEvent.spends u x) ≤ 1 := by
  have hwf₁ := wellFormed_of_initial h₁
  have hwf₂ := wellFormed_of_runs h₂ hwf₁
  have hext := runs_extends hwf₁ h₂
  simp only [Database.findDevice_eq_ledger hwf₁, Database.findDevice_eq_ledger hwf₂,
    Except.ok.injEq]
  refine ⟨?_, ?_, fun e s' hstep u => stamped_of_step hwf₂ hstep u, ?_, ?_⟩
  · intro u d hd
    obtain ⟨d', hd', hkey, -⟩ := hext u d hd
    exact ⟨Database.device_uuid hwf₁ hd, d', hd', Database.device_uuid hwf₂ hd', hkey⟩
  · intro u v d d' hd hd' hkeys
    obtain ⟨d₂, hd₂, hkey, -⟩ := hext u d hd
    exact Database.device_publicKey_inj hwf₂ hd₂ hd' (hkey.trans hkeys)
  · intro u d d' hd hd' hrevs
    obtain ⟨d₂, hd₂, -, hrev⟩ := hext u d hd
    obtain rfl := Option.some.inj (hd₂.symm.trans hd')
    rcases hrev with rfl | hlt
    · rfl
    · rw [hrevs] at hlt
      exact absurd hlt (lt_irrefl _)
  · intro u x
    have hrun : runs step initial (es₁ ++ es₂) = some s₂ := runs_append_iff.mpr ⟨s₁, h₁, h₂⟩
    exact countP_expects_le_one Database.wellFormed_empty u x hrun

/-- A UUID, a key and a record, for the runs below. -/
def sampleUuid : TrustUuid := List.Vector.replicate 16 1

@[inherit_doc sampleUuid]
def sampleKey : TrustPublicKey := List.Vector.replicate 32 2

@[inherit_doc sampleUuid]
def sampleDevice : TrustedDevice where
  uuid := sampleUuid
  publicKey := sampleKey
  pairingMethod := ascii "admin"

/-- A device is imported through one instance and revoked through another. -/
theorem revision_stamps_revocation :
    ∃ s₁ s₂, runs step initial [⟨0, .importDeviceForAdmin sampleDevice, true⟩] = some s₁
      ∧ runs step s₁ [⟨1, .revokeDevice sampleUuid 1 7, true⟩] = some s₂
      ∧ ∃ d d', TrustStore.findDevice s₁.database sampleUuid = .ok (some d)
        ∧ TrustStore.findDevice s₂.database sampleUuid = .ok (some d')
        ∧ d'.publicKey = d.publicKey := by
  obtain ⟨s₁, h₁, hd⟩ : ∃ s₁,
      runs step initial [⟨0, .importDeviceForAdmin sampleDevice, true⟩] = some s₁
        ∧ (TrustStore.findDevice s₁.database sampleUuid = .ok (some sampleDevice)
          ∧ (runs step s₁ [⟨1, .revokeDevice sampleUuid 1 7, true⟩]).isSome = true) :=
    ⟨_, rfl, by decide +kernel, by decide +kernel⟩
  obtain ⟨s₂, h₂⟩ := Option.isSome_iff_exists.mp hd.2
  obtain ⟨-, d', hd', -, hkey⟩ := (revision_stamps h₁ h₂).1 _ _ hd.1
  exact ⟨s₁, s₂, h₁, h₂, _, d', hd.1, hd', hkey⟩

/-! ## Grants of trust -/

/-- The record of a device is active. -/
def Active (u : TrustUuid) (s : TrustStores) : Prop :=
  ∃ d, TrustStore.findDevice s.database u = .ok (some d) ∧ d.status = .active

/-- The record of a device is revoked. -/
def Revoked (u : TrustUuid) (s : TrustStores) : Prop :=
  ∃ d, TrustStore.findDevice s.database u = .ok (some d) ∧ d.status = .revoked

/-- A call consumed a pairing attempt with a peer: it is a finalization, and
the attempt it names was confirmed by both sides, was not expired at either
reading of the clock, was made with exactly that peer, and is gone. -/
def Consumed (u : TrustUuid) (key : TrustPublicKey) (s : TrustStores) (e : StoreEvent)
    (s' : TrustStores) : Prop :=
  ∃ id expected finalization now completionTime a,
    e.operation = .finalizePairing id expected finalization now completionTime
      ∧ TrustStore.findAttempt s.database id = .ok (some a) ∧ a.revision = expected
      ∧ a.status = .confirmed ∧ a.localConfirmed = true ∧ a.peerConfirmed = true
      ∧ now ≤ a.expiresAt ∧ completionTime ≤ a.expiresAt
      ∧ a.peerUuid = u ∧ a.peerPublicKey = key
      ∧ TrustStore.findAttempt s'.database id = .ok none

/-- A device is active when the ledger has an active record of it. -/
theorem active_iff (hwf : s.database.WellFormed) {u : TrustUuid} :
    Active u s ↔ ∃ d, s.ledger.device u = some d ∧ d.status = .active := by
  unfold Active
  simp only [Database.findDevice_eq_ledger hwf, Except.ok.injEq]
  rfl

/-- Finalizations are the calls that consume attempts. -/
theorem consumed_of_stored (hwf : s.database.WellFormed) (hwf' : s'.database.WellFormed)
    {id : TrustUuid} {expected now completionTime : Int64} {f : PairingFinalization}
    {a : PairingAttempt}
    (hop : e.operation = .finalizePairing id expected f now completionTime)
    (hstored : s.ledger.attempt id = some a) (hrevision : a.revision = expected)
    (hconsumable : Ledger.Consumable a f now completionTime)
    (hgone : s'.ledger.attempt id = none) :
    Consumed f.peerUuid f.peerPublicKey s e s' :=
  ⟨id, expected, f, now, completionTime, a, hop,
    (Database.findAttempt_eq_ledger hwf id).trans (congrArg Except.ok hstored), hrevision,
    hconsumable.status, hconsumable.localConfirmed, hconsumable.peerConfirmed,
    hconsumable.notExpired, hconsumable.notExpiredAtCompletion, hconsumable.peerUuid,
    hconsumable.peerPublicKey,
    (Database.findAttempt_eq_ledger hwf' id).trans (congrArg Except.ok hgone)⟩

/-- **What activates a record**: an import of an active device that was not
there, or the consumption of an attempt. -/
theorem activates (hwf : s.database.WellFormed) (h : s.step e = some s') {u : TrustUuid}
    (hbefore : ¬ Active u s) {d' : TrustedDevice} (hd' : s'.ledger.device u = some d')
    (hactive : d'.status = .active) :
    e.succeeds = true
      ∧ ((∃ d, e.operation = .importDeviceForAdmin d ∧ d.uuid = u
            ∧ d.publicKey = d'.publicKey ∧ d.status = .active ∧ s.ledger.device u = none)
        ∨ Consumed u d'.publicKey s e s') := by
  obtain ⟨hwf', ⟨hsucceeds, hstep⟩ | ⟨-, rfl⟩⟩ := step_cases hwf h
  swap
  · exact absurd ((active_iff hwf).mpr ⟨d', hd', hactive⟩) hbefore
  refine ⟨hsucceeds, ?_⟩
  by_cases hu : e.operation.target = some u
  swap
  · rw [hstep.device_of_ne (keyed hwf) hu] at hd'
    exact absurd ((active_iff hwf).mpr ⟨d', hd', hactive⟩) hbefore
  generalize hL' : s'.ledger = L' at hstep
  rw [hL'] at hd'
  generalize hop : e.operation = operation at hstep hu
  cases hstep with
  | importDeviceForAdmin fresh keyFree revision =>
    obtain rfl := Option.some.inj hu
    obtain rfl := Option.some.inj ((Ledger.setDevice_self ..).symm.trans hd')
    exact .inl ⟨_, rfl, rfl, rfl, hactive, fresh⟩
  | updateDevice stored key status oldRevision positive bounded revision =>
    -- the status guard: the record was active before
    obtain rfl := Option.some.inj hu
    obtain rfl := Option.some.inj ((Ledger.setDevice_self ..).symm.trans hd')
    exact absurd ((active_iff hwf).mpr ⟨_, stored, status.symm.trans hactive⟩) hbefore
  | revokeDevice stored oldRevision positive bounded =>
    obtain rfl := Option.some.inj hu
    rw [Ledger.setDevice_device] at hd'
    obtain rfl := Option.some.inj ((if_pos (keyed hwf _ _ stored).symm).symm.trans hd')
    cases hactive
  | createAttempt fresh revision => cases hu
  | updateAttempt stored peerUuid peerPublicKey createdAt oldRevision positive bounded revision =>
    cases hu
  | deleteAttempt stored oldRevision => cases hu
  | @finalizeNew id a expected now completionTime f stored revision consumable fresh keyFree =>
    obtain rfl := Option.some.inj hu
    obtain rfl := Option.some.inj
      ((s.ledger.setDevice_self (Ledger.finalized a f 1 now)).symm.trans hd')
    refine .inr (consumed_of_stored hwf hwf' hop stored revision consumable ?_)
    rw [hL']
    exact Function.update_self ..
  | @finalizeRevoked id a old expected now completionTime f stored revision consumable known key
      revoked positive bounded =>
    obtain rfl := Option.some.inj hu
    obtain rfl := Option.some.inj
      ((s.ledger.setDevice_self (Ledger.finalized a f (old.revision + 1) now)).symm.trans hd')
    refine .inr (consumed_of_stored hwf hwf' hop stored revision consumable ?_)
    rw [hL']
    exact Function.update_self ..

/-- A device whose authorization is found is active, with that key. -/
theorem device_of_authorization (hwf : s.database.WellFormed) {u : TrustUuid}
    {key : TrustPublicKey} {authorization : ActivePeerAuthorization}
    (h : TrustStore.findActiveAuthorization s.database u key = .ok (some authorization)) :
    ∃ d, s.ledger.device u = some d ∧ d.publicKey = key ∧ d.status = .active := by
  rw [Database.findActiveAuthorization_eq hwf, Except.ok.injEq, Option.map_eq_some_iff] at h
  obtain ⟨d, hd, -⟩ := h
  obtain ⟨hd, hmatch⟩ := Option.filter_eq_some_iff.mp hd
  rw [Bool.and_eq_true, decide_eq_true_eq, decide_eq_true_eq] at hmatch
  exact ⟨d, hd, hmatch⟩

/-- While a device stays active no revocation of it succeeds. -/
theorem not_revoked_along (hwf : s.database.WellFormed) {u : TrustUuid}
    (hactive : Along step (Active u) s es) (h : runs step s es = some s') :
    ∀ e ∈ es, e.succeeds = true → ∀ x t, e.operation ≠ .revokeDevice u x t := by
  induction es generalizing s with
  | nil =>
    intro e he
    cases he
  | cons e es ih =>
    obtain ⟨t, ht, hrest⟩ := runs_cons.mp h
    obtain ⟨hwf', hcases⟩ := step_cases hwf ht
    have hafter := hactive.2 t ht
    refine List.forall_mem_cons.mpr ⟨?_, ih hwf' hafter hrest⟩
    intro hsucceeds x r hop
    obtain ⟨-, hstep⟩ | ⟨hfails, -⟩ := hcases
    · obtain ⟨d, hd, hstatus⟩ := (active_iff hwf').mp hafter.head
      rw [hop] at hstep
      generalize hL' : t.ledger = L' at hstep hd
      cases hstep with
      | revokeDevice stored oldRevision positive bounded =>
        have huuid := (keyed hwf _ _ stored).symm
        rw [Ledger.setDevice_device] at hd
        obtain rfl := Option.some.inj ((if_pos huuid).symm.trans hd)
        cases hstatus
    · rw [hfails] at hsucceeds
      cases hsucceeds

/-- A successful finalization removes the attempt it names, and no other. -/
theorem removes_one (hwf : s.database.WellFormed) (h : s.step e = some s')
    (hsucceeds : e.succeeds = true) {id : TrustUuid} {expected now completionTime : Int64}
    {f : PairingFinalization}
    (hop : e.operation = .finalizePairing id expected f now completionTime) :
    (∃ a, TrustStore.findAttempt s.database id = .ok (some a))
      ∧ TrustStore.findAttempt s'.database id = .ok none
      ∧ ∀ i, i ≠ id →
        TrustStore.findAttempt s'.database i = TrustStore.findAttempt s.database i := by
  obtain ⟨hwf', ⟨-, hstep⟩ | ⟨hfails, -⟩⟩ := step_cases hwf h
  swap
  · rw [hfails] at hsucceeds
    cases hsucceeds
  rw [hop] at hstep
  have hledger : (∃ a, s.ledger.attempt id = some a)
      ∧ s'.ledger.attempt = Function.update s.ledger.attempt id none := by
    generalize s'.ledger = L' at hstep
    cases hstep with
    | finalizeNew stored revision consumable fresh keyFree => exact ⟨⟨_, stored⟩, rfl⟩
    | finalizeRevoked stored revision consumable known key revoked positive bounded =>
      exact ⟨⟨_, stored⟩, rfl⟩
  obtain ⟨⟨a, ha⟩, hattempts⟩ := hledger
  simp only [Database.findAttempt_eq_ledger hwf, Database.findAttempt_eq_ledger hwf',
    Except.ok.injEq]
  refine ⟨⟨a, ha⟩, ?_, fun i hi => ?_⟩
  · exact (congrFun hattempts id).trans (Function.update_self ..)
  · exact (congrFun hattempts i).trans (Function.update_of_ne hi ..)

/-- **Trust is granted by an import or a pairing.** In every state a run on
a new database reaches: behind every authorization stands the last call that
made the record active, and it is the import of the device with that key,
which no revocation has followed, or the consumption of an attempt confirmed
by both sides with exactly that device and key. A revoked record becomes
active through the consumption of an attempt only, and every finalization
removes exactly the attempt it names. -/
theorem trust_granted (h : runs step initial es = some s) :
    (∀ u key authorization,
      TrustStore.findActiveAuthorization s.database u key = .ok (some authorization) →
      ∃ before e after s₁ s₂, es = before ++ e :: after
        ∧ runs step initial before = some s₁ ∧ step s₁ e = some s₂ ∧ runs step s₂ after = some s
        ∧ e.succeeds = true ∧ ¬ Active u s₁ ∧ Along step (Active u) s₂ after
        ∧ ((∃ d, e.operation = .importDeviceForAdmin d ∧ d.uuid = u ∧ d.publicKey = key
              ∧ d.status = .active
              ∧ ∀ e' ∈ after, e'.succeeds = true → ∀ x t, e'.operation ≠ .revokeDevice u x t)
          ∨ Consumed u key s₁ e s₂))
      ∧ (∀ e s' u, step s e = some s' → Revoked u s → Active u s' →
        e.succeeds = true ∧ ∃ key, Consumed u key s e s')
      ∧ ∀ e s' id expected f now completionTime, step s e = some s' → e.succeeds = true →
        e.operation = .finalizePairing id expected f now completionTime →
        (∃ a, TrustStore.findAttempt s.database id = .ok (some a))
          ∧ TrustStore.findAttempt s'.database id = .ok none
          ∧ ∀ i, i ≠ id →
            TrustStore.findAttempt s'.database i = TrustStore.findAttempt s.database i := by
  have hwf := wellFormed_of_initial h
  refine ⟨?_, ?_, ?_⟩
  · intro u key authorization hauth
    obtain ⟨d, hd, hkey, hstatus⟩ := device_of_authorization hwf hauth
    have hstart : ¬ Active u initial := by
      rw [active_iff Database.wellFormed_empty]
      rintro ⟨d, hd, -⟩
      cases hd
    obtain ⟨before, e, after, s₁, s₂, rfl, h₁, hstep, h₂, hbefore, hactive, halong⟩ :=
      runs_last_change h hstart ((active_iff hwf).mpr ⟨d, hd, hstatus⟩)
    have hwf₁ := wellFormed_of_initial h₁
    have hwf₂ := (step_cases hwf₁ hstep).1
    obtain ⟨d₂, hd₂, hstatus₂⟩ := (active_iff hwf₂).mp hactive
    -- the key has not changed since the record was activated
    obtain ⟨d', hd', hkey', -⟩ := runs_extends hwf₂ h₂ u d₂ hd₂
    obtain rfl := Option.some.inj (hd.symm.trans hd')
    obtain ⟨hsucceeds, hcause⟩ := activates hwf₁ hstep hbefore hd₂ hstatus₂
    refine ⟨before, e, after, s₁, s₂, rfl, h₁, hstep, h₂, hsucceeds, hbefore, halong, ?_⟩
    rw [← hkey'.symm.trans hkey]
    rcases hcause with ⟨i, hop, huuid, hikey, histatus, -⟩ | hconsumed
    · exact .inl ⟨i, hop, huuid, hikey, histatus, not_revoked_along hwf₂ halong h₂⟩
    · exact .inr hconsumed
  · rintro e s' u hstep ⟨d, hd, hrevoked⟩ hactive
    have hwf' := (step_cases hwf hstep).1
    rw [Database.findDevice_eq_ledger hwf, Except.ok.injEq] at hd
    obtain ⟨d', hd', hstatus'⟩ := (active_iff hwf').mp hactive
    have hbefore : ¬ Active u s := by
      rw [active_iff hwf]
      rintro ⟨d₀, hd₀, hstatus₀⟩
      obtain rfl := Option.some.inj (hd.symm.trans hd₀)
      rw [hrevoked] at hstatus₀
      cases hstatus₀
    obtain ⟨hsucceeds, ⟨i, -, -, -, -, hfresh⟩ | hconsumed⟩ :=
      activates hwf hstep hbefore hd' hstatus'
    · exact absurd (hd.symm.trans hfresh) (by simp)
    · exact ⟨hsucceeds, _, hconsumed⟩
  · intro e s' id expected f now completionTime hstep hsucceeds hop
    exact removes_one hwf hstep hsucceeds hop

/-- A pairing: an attempt both sides confirmed, and its finalization through
another instance. -/
def samplePairing : List StoreEvent :=
  [⟨0, .createAttempt {
      attemptId := sampleUuid
      peerUuid := sampleUuid
      peerPublicKey := sampleKey
      status := .confirmed
      localConfirmed := true
      peerConfirmed := true
      expiresAt := 9 }, true⟩,
    ⟨1, .finalizePairing sampleUuid 1 {
      peerUuid := sampleUuid
      peerPublicKey := sampleKey
      pairingMethod := ascii "sas" } 5 6, true⟩]

/-- The authorization of a paired device is traced to its attempt. -/
theorem trust_granted_pairing :
    ∃ s, runs step initial samplePairing = some s
      ∧ TrustStore.findActiveAuthorization s.database sampleUuid sampleKey = .ok (some ⟨1, []⟩)
      ∧ ∃ e s₁ s₂, e ∈ samplePairing ∧ step s₁ e = some s₂
        ∧ Consumed sampleUuid sampleKey s₁ e s₂ := by
  obtain ⟨s, h, hauth⟩ : ∃ s, runs step initial samplePairing = some s
      ∧ TrustStore.findActiveAuthorization s.database sampleUuid sampleKey
        = .ok (some ⟨1, []⟩) :=
    Option.map_eq_some_iff.mp (by decide +kernel)
  obtain ⟨before, e, after, s₁, s₂, hes, -, hstep, -, -, -, -, hcause⟩ :=
    (trust_granted h).1 _ _ _ hauth
  have he : e ∈ samplePairing := hes ▸ by simp
  refine ⟨s, h, hauth, e, s₁, s₂, he, hstep, ?_⟩
  rcases hcause with ⟨d, hop, -⟩ | hconsumed
  · simp only [samplePairing, List.mem_cons, List.not_mem_nil, or_false] at he
    rcases he with rfl | rfl <;> cases hop
  · exact hconsumed

end TrustStores

end Gasoline
