import Gasoline.TrustAttempts

/-!
# Stored records read back

What a call of the trust store has written is found as it was written, its
permissions in order, and nothing else has changed. A call that throws, at
whatever statement, changes nothing that can be found
(`TrustStores.stored_records_read_back`). A call does what its operation does
in one piece, and of this the ledger says what the lookups find.
-/

namespace Gasoline

namespace Database

variable {db db' : Database}

/-- What entering a record into the ledger means for the two lookups. -/
theorem finds_of_setDevice (hwf : db.WellFormed) (hwf' : db'.WellFormed) {d : TrustedDevice}
    (h : db'.ledger = db.ledger.setDevice d.sorted) :
    TrustStore.findDevice db' d.uuid = .ok (some d.sorted)
      ∧ (∀ u, u ≠ d.uuid → TrustStore.findDevice db' u = TrustStore.findDevice db u)
      ∧ ∀ id, TrustStore.findAttempt db' id = TrustStore.findAttempt db id := by
  refine ⟨?_, fun u hu => ?_, fun id => ?_⟩
  · rw [findDevice_eq_ledger hwf', h]
    exact congrArg Except.ok (Ledger.setDevice_self db.ledger d.sorted)
  · rw [findDevice_eq_ledger hwf', findDevice_eq_ledger hwf, h, Ledger.setDevice_device]
    exact congrArg Except.ok (if_neg hu)
  · rw [findAttempt_eq_ledger hwf', findAttempt_eq_ledger hwf, h]
    rfl

theorem finds_of_setAttempt (hwf : db.WellFormed) (hwf' : db'.WellFormed) {a : PairingAttempt}
    (h : db'.ledger = db.ledger.setAttempt a.sorted) :
    TrustStore.findAttempt db' a.attemptId = .ok (some a.sorted)
      ∧ (∀ id, id ≠ a.attemptId → TrustStore.findAttempt db' id = TrustStore.findAttempt db id)
      ∧ ∀ u, TrustStore.findDevice db' u = TrustStore.findDevice db u := by
  refine ⟨?_, fun id hid => ?_, fun u => ?_⟩
  · rw [findAttempt_eq_ledger hwf', h, Ledger.setAttempt_attempt]
    exact congrArg Except.ok (if_pos rfl)
  · rw [findAttempt_eq_ledger hwf', findAttempt_eq_ledger hwf, h, Ledger.setAttempt_attempt]
    exact congrArg Except.ok (if_neg hid)
  · rw [findDevice_eq_ledger hwf', findDevice_eq_ledger hwf, h]
    rfl

end Database

/-- **Stored records read back exactly.** In every state that runs of the
store reach, whatever steps SQLite refuses: after a call that enters a device
or an attempt and returns, it is found as it was given, its permissions in
order, and every other device and attempt as before. An update needs the
stored record to have the same identity and the revision before. And a call
of any operation that throws leaves everything that can be found as it was. -/
theorem TrustStores.stored_records_read_back {events : List StoreEvent} {s : TrustStores}
    (hrun : runs TrustStores.step TrustStores.initial events = some s) {h : SqlHandle}
    (hdb : h.committed = s.database) (hidle : h.working = none) :
    (∀ (d : TrustedDevice) (operation : StoreOperation) (h' : SqlHandle),
        (operation = .importDeviceForAdmin d ∨ ∃ r, operation = .updateDevice d r) →
        operation.call.run h = .ok () h' →
          TrustStore.findDevice h'.committed d.uuid = .ok (some d.sorted)
            ∧ (∀ u, u ≠ d.uuid →
              TrustStore.findDevice h'.committed u = TrustStore.findDevice h.committed u)
            ∧ ∀ id, TrustStore.findAttempt h'.committed id
              = TrustStore.findAttempt h.committed id)
      ∧ (∀ (a : PairingAttempt) (operation : StoreOperation) (h' : SqlHandle),
        (operation = .createAttempt a ∨ ∃ r, operation = .updateAttempt a r) →
        operation.call.run h = .ok () h' →
          TrustStore.findAttempt h'.committed a.attemptId = .ok (some a.sorted)
            ∧ (∀ id, id ≠ a.attemptId →
              TrustStore.findAttempt h'.committed id = TrustStore.findAttempt h.committed id)
            ∧ ∀ u, TrustStore.findDevice h'.committed u = TrustStore.findDevice h.committed u)
      ∧ (∀ d r h', (StoreOperation.updateDevice d r).call.run h = .ok () h' →
        ∃ old, TrustStore.findDevice h.committed d.uuid = .ok (some old) ∧ d.uuid = old.uuid
          ∧ d.publicKey = old.publicKey ∧ d.status = old.status ∧ old.revision = r
          ∧ r.toInt = d.revision.toInt - 1)
      ∧ (∀ a r h', (StoreOperation.updateAttempt a r).call.run h = .ok () h' →
        ∃ old, TrustStore.findAttempt h.committed a.attemptId = .ok (some old)
          ∧ a.peerUuid = old.peerUuid ∧ a.peerPublicKey = old.peerPublicKey
          ∧ a.createdAt = old.createdAt ∧ old.revision = r ∧ r.toInt = a.revision.toInt - 1)
      ∧ ∀ (operation : StoreOperation) e h', operation.call.run h = .error e h' →
        (∀ u, TrustStore.findDevice h'.committed u = TrustStore.findDevice h.committed u)
          ∧ ∀ id, TrustStore.findAttempt h'.committed id
            = TrustStore.findAttempt h.committed id := by
  have hwf : h.committed.WellFormed := hdb ▸ wellFormed_of_initial hrun
  have hrefines : ∀ {operation : StoreOperation} {h' : SqlHandle},
      operation.call.run h = .ok () h' →
      h'.committed.WellFormed ∧ h.committed.ledger.Step operation h'.committed.ledger := by
    intro operation h' hcall
    obtain ⟨hwf', -, hstep⟩ := StoreOperation.run_refines hwf
      (StoreOperation.run_of_call hidle hcall)
    exact ⟨hwf', hstep⟩
  have hprevious : ∀ {i j : Int64}, i < Int64.maxValue → j = i + 1 → i.toInt = j.toInt - 1 := by
    intro i j hlt hj
    rw [hj, toInt_succ hlt]
    omega
  refine ⟨fun d operation h' hop hcall => ?_, fun a operation h' hop hcall => ?_,
    fun d r h' hcall => ?_, fun a r h' hcall => ?_, fun operation e h' hcall => ?_⟩
  · obtain ⟨hwf', hstep⟩ := hrefines hcall
    refine Database.finds_of_setDevice hwf hwf' ?_
    generalize h'.committed.ledger = L' at hstep ⊢
    rcases hop with rfl | ⟨r, rfl⟩
    · cases hstep
      rfl
    · cases hstep
      rfl
  · obtain ⟨hwf', hstep⟩ := hrefines hcall
    refine Database.finds_of_setAttempt hwf hwf' ?_
    generalize h'.committed.ledger = L' at hstep ⊢
    rcases hop with rfl | ⟨r, rfl⟩
    · cases hstep
      rfl
    · cases hstep
      rfl
  · obtain ⟨-, hstep⟩ := hrefines hcall
    generalize h'.committed.ledger = L' at hstep
    cases hstep with
    | @updateDevice _ old _ stored key status oldRevision positive bounded revision =>
      refine ⟨old, ?_, ?_, key, status, oldRevision, hprevious bounded revision⟩
      · rw [Database.findDevice_eq_ledger hwf, stored]
      · exact (Database.device_uuid hwf stored).symm
  · obtain ⟨-, hstep⟩ := hrefines hcall
    generalize h'.committed.ledger = L' at hstep
    cases hstep with
    | @updateAttempt _ old _ stored peerUuid peerPublicKey createdAt oldRevision positive bounded
        revision =>
      refine ⟨old, ?_, peerUuid, peerPublicKey, createdAt, oldRevision,
        hprevious bounded revision⟩
      rw [Database.findAttempt_eq_ledger hwf, stored]
  · rw [StoreOperation.committed_of_throw hidle hcall]
    exact ⟨fun _ => rfl, fun _ => rfl⟩

/-- A record of the sample device at its second revision. -/
def TrustStores.sampleUpdate (permissions : List Bytes) : TrustedDevice :=
  { sampleDevice with revision := 2, permissions := permissions }

/-- An update is read back with its permissions in order; and one whose
second permission is empty fails when that row is inserted, and leaves what
is found as it was. -/
theorem TrustStores.stored_records_read_back_update :
    ∃ (s : TrustStores) (h₁ h₂ : SqlHandle),
      runs TrustStores.step TrustStores.initial [⟨0, .importDeviceForAdmin sampleDevice, true⟩]
        = some s
      ∧ (StoreOperation.updateDevice (sampleUpdate [ascii "shell", ascii "files"]) 1).call.run
        ⟨s.database, none, []⟩ = .ok () h₁
      ∧ TrustStore.findDevice h₁.committed sampleUuid
        = .ok (some (sampleUpdate [ascii "files", ascii "shell"]))
      ∧ (StoreOperation.updateDevice (sampleUpdate [ascii "files", []]) 1).call.run
        ⟨s.database, none, []⟩ = .error (.store (.sqlite .check)) h₂
      ∧ TrustStore.findDevice h₂.committed sampleUuid
        = TrustStore.findDevice s.database sampleUuid := by
  have hevaluated : (runs TrustStores.step TrustStores.initial
      [⟨0, .importDeviceForAdmin sampleDevice, true⟩]).map (fun s =>
        (Sql.thrown ((StoreOperation.updateDevice
            (sampleUpdate [ascii "shell", ascii "files"]) 1).call.run ⟨s.database, none, []⟩),
          Sql.thrown ((StoreOperation.updateDevice
            (sampleUpdate [ascii "files", []]) 1).call.run ⟨s.database, none, []⟩)))
      = some (none, some (.store (.sqlite .check))) := by decide +kernel
  obtain ⟨s, hrun, hcalls⟩ := Option.map_eq_some_iff.mp hevaluated
  obtain ⟨hfirst, hsecond⟩ := Prod.mk.inj hcalls
  obtain ⟨h₁, hcall₁⟩ := Sql.thrown_eq_none.mp hfirst
  obtain ⟨h₂, hcall₂⟩ := Sql.thrown_eq_some.mp hsecond
  obtain ⟨hentered, -, -, -, hthrown⟩ :=
    TrustStores.stored_records_read_back hrun (h := ⟨s.database, none, []⟩) rfl rfl
  refine ⟨s, h₁, h₂, hrun, hcall₁, ?_, hcall₂, (hthrown _ _ h₂ hcall₂).1 sampleUuid⟩
  have hfound := (hentered _ _ h₁ (.inr ⟨1, rfl⟩) hcall₁).1
  have hsorted : (sampleUpdate [ascii "shell", ascii "files"]).sorted
      = sampleUpdate [ascii "files", ascii "shell"] := by
    have hle : Bytes.le (ascii "shell") (ascii "files") = false := by decide +kernel
    simp [TrustedDevice.sorted, sampleUpdate, List.mergeSort, hle]
  rw [hsorted] at hfound
  exact hfound

end Gasoline
