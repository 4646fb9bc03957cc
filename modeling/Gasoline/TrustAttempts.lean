import Gasoline.TrustFinalization

/-!
# Snapshots of pairing attempts

What the user confirms is a snapshot of an attempt, and `finalize_pairing`
names the snapshot by the attempt's id and revision. Each update raises the
revision by one, so while an attempt lives its revision stands for its
contents: a finalization that succeeds consumes what was read
(`TrustStores.finalization_grants_snapshot`), and none succeeds once the
attempt was cancelled.

Attempts can be deleted, though, and an id can be used again. The new
attempt starts at revision one, and a finalization of the old snapshot then
consumes the new attempt (`TrustStores.recreated_attempt_granted`). So the
result is about runs that create no attempt under the id in between.
-/

namespace Gasoline

/-- Whether an operation creates an attempt under an id. -/
def StoreOperation.creates (id : TrustUuid) : StoreOperation → Bool
  | .createAttempt attempt => decide (attempt.attemptId = id)
  | _ => false

/-- Whether an operation replaces or removes the attempt with an id. -/
def StoreOperation.supersedes (id : TrustUuid) : StoreOperation → Bool
  | .updateAttempt attempt _ => decide (attempt.attemptId = id)
  | .deleteAttempt attemptId _ => decide (attemptId = id)
  | .finalizePairing attemptId _ _ _ _ => decide (attemptId = id)
  | _ => false

/-! ## One attempt of the ledger -/

namespace Ledger

variable {L L' : Ledger} {operation : StoreOperation} {id : TrustUuid} {a : PairingAttempt}

/-- A revision of an attempt is passed: the attempt is gone, or at a higher
revision. -/
def Passed (L : Ledger) (id : TrustUuid) (revision : Int64) : Prop :=
  ∀ b, L.attempt id = some b → revision.toInt < b.revision.toInt

/-- What entering an attempt does to one attempt. -/
theorem setAttempt_attempt (L : Ledger) (b : PairingAttempt) (id : TrustUuid) :
    (L.setAttempt b).attempt id = if id = b.attemptId then some b else L.attempt id := by
  show Function.update L.attempt b.attemptId (some b) id = _
  rw [Function.update_apply]

/-- What removing an attempt does to one attempt. -/
theorem removeAttempt_attempt (L : Ledger) (i id : TrustUuid) :
    (L.removeAttempt i).attempt id = if id = i then none else L.attempt id := by
  show Function.update L.attempt i none id = _
  rw [Function.update_apply]

/-- **What an operation does to an attempt** it does not create: it leaves
the attempt alone, removes it, or raises its revision by one. -/
theorem Step.attempt_cases (h : L.Step operation L') (hcreates : operation.creates id = false) :
    (operation.supersedes id = false ∧ L'.attempt id = L.attempt id)
      ∨ (operation.supersedes id = true
        ∧ ∃ old, L.attempt id = some old ∧ L'.Passed id old.revision) := by
  have hgone : ∀ (M : Ledger) (revision : Int64), (M.removeAttempt id).Passed id revision := by
    intro M revision b hb
    rw [removeAttempt_attempt, if_pos rfl] at hb
    cases hb
  cases h with
  | importDeviceForAdmin fresh keyFree revision => exact .inl ⟨rfl, rfl⟩
  | updateDevice stored key status oldRevision positive bounded revision => exact .inl ⟨rfl, rfl⟩
  | revokeDevice stored oldRevision positive bounded => exact .inl ⟨rfl, rfl⟩
  | @createAttempt b fresh revision =>
    have hne : b.attemptId ≠ id := by simpa [StoreOperation.creates] using hcreates
    refine .inl ⟨rfl, (setAttempt_attempt ..).trans (if_neg (fun e => hne e.symm))⟩
  | @updateAttempt b old expected stored peerUuid peerPublicKey createdAt oldRevision positive
      bounded revision =>
    by_cases hid : b.attemptId = id
    · subst hid
      refine .inr ⟨decide_eq_true rfl, old, stored, fun c hc => ?_⟩
      rw [setAttempt_attempt] at hc
      obtain rfl := Option.some.inj ((if_pos rfl).symm.trans hc)
      show old.revision.toInt < b.revision.toInt
      rw [revision, oldRevision, toInt_succ bounded]
      exact lt_add_one _
    · refine .inl ⟨decide_eq_false hid, ?_⟩
      exact (setAttempt_attempt ..).trans (if_neg (fun e => hid e.symm))
  | @deleteAttempt i old expected stored oldRevision =>
    by_cases hid : i = id
    · subst hid
      exact .inr ⟨decide_eq_true rfl, old, stored, hgone _ _⟩
    · exact .inl ⟨decide_eq_false hid,
        (removeAttempt_attempt ..).trans (if_neg (fun e => hid e.symm))⟩
  | @finalizeNew i b expected now completionTime f stored revision consumable fresh keyFree =>
    by_cases hid : i = id
    · subst hid
      exact .inr ⟨decide_eq_true rfl, b, stored, hgone _ _⟩
    · exact .inl ⟨decide_eq_false hid,
        (removeAttempt_attempt ..).trans (if_neg (fun e => hid e.symm))⟩
  | @finalizeRevoked i b old expected now completionTime f stored revision consumable known key
      revoked positive bounded =>
    by_cases hid : i = id
    · subst hid
      exact .inr ⟨decide_eq_true rfl, b, stored, hgone _ _⟩
    · exact .inl ⟨decide_eq_false hid,
        (removeAttempt_attempt ..).trans (if_neg (fun e => hid e.symm))⟩

/-- A revision that is passed stays passed. -/
theorem Step.passed (h : L.Step operation L') (hcreates : operation.creates id = false)
    {revision : Int64} (hpassed : L.Passed id revision) : L'.Passed id revision := by
  obtain ⟨-, hsame⟩ | ⟨-, old, hold, hnew⟩ := h.attempt_cases hcreates
  · unfold Passed
    rwa [hsame]
  · exact fun b hb => (hpassed old hold).trans (hnew b hb)

end Ledger

/-! ## Runs -/

namespace TrustStores

variable {s s' s₁ s₂ s₃ : TrustStores} {e : StoreEvent} {es es₁ es₂ : List StoreEvent}
  {id : TrustUuid} {a : PairingAttempt}

/-- The calls of a run create no attempt under an id. -/
def KeepsId (id : TrustUuid) (es : List StoreEvent) : Prop :=
  ∀ e ∈ es, e.succeeds = true → e.operation.creates id = false

/-- A call either leaves an attempt as it is, or passes its revision. -/
theorem step_attempt (hwf : s.database.WellFormed) (h : s.step e = some s')
    (hcreates : e.succeeds = true → e.operation.creates id = false)
    (ha : s.ledger.attempt id = some a) :
    (s'.ledger.attempt id = some a ∧ (e.succeeds = true → e.operation.supersedes id = false))
      ∨ s'.ledger.Passed id a.revision := by
  obtain ⟨-, ⟨hsucceeds, hstep⟩ | ⟨hfails, rfl⟩⟩ := step_cases hwf h
  · obtain ⟨hsup, hsame⟩ | ⟨-, old, hold, hpassed⟩ := hstep.attempt_cases (hcreates hsucceeds)
    · exact .inl ⟨hsame.trans ha, fun _ => hsup⟩
    · obtain rfl := Option.some.inj (ha.symm.trans hold)
      exact .inr hpassed
  · exact .inl ⟨ha, fun hsucceeds => absurd (hfails.symm.trans hsucceeds) (by decide)⟩

/-- A revision that is passed stays passed over a run. -/
theorem runs_passed (hwf : s.database.WellFormed) (h : runs step s es = some s')
    (hkeeps : KeepsId id es) {revision : Int64} (hpassed : s.ledger.Passed id revision) :
    s'.ledger.Passed id revision := by
  induction es generalizing s with
  | nil =>
    cases h
    exact hpassed
  | cons e es ih =>
    obtain ⟨t, ht, hrest⟩ := runs_cons.mp h
    obtain ⟨he, hes⟩ := List.forall_mem_cons.mp hkeeps
    obtain ⟨hwf', ⟨hsucceeds, hstep⟩ | ⟨-, rfl⟩⟩ := step_cases hwf ht
    · exact ih hwf' hrest hes (hstep.passed (he hsucceeds) hpassed)
    · exact ih hwf' hrest hes hpassed

/-- **Over a run an attempt stays as it is, or its revision is passed.** In
the first case no call replaced or removed it. -/
theorem runs_attempt (hwf : s.database.WellFormed) (h : runs step s es = some s')
    (hkeeps : KeepsId id es) (ha : s.ledger.attempt id = some a) :
    (s'.ledger.attempt id = some a
        ∧ ∀ e ∈ es, e.succeeds = true → e.operation.supersedes id = false)
      ∨ s'.ledger.Passed id a.revision := by
  induction es generalizing s with
  | nil =>
    cases h
    exact .inl ⟨ha, fun e he => by cases he⟩
  | cons e es ih =>
    obtain ⟨t, ht, hrest⟩ := runs_cons.mp h
    obtain ⟨he, hes⟩ := List.forall_mem_cons.mp hkeeps
    have hwf' := (step_cases hwf ht).1
    obtain ⟨hsame, hfirst⟩ | hpassed := step_attempt hwf ht he ha
    · obtain ⟨hlast, hall⟩ | hpassed := ih hwf' hrest hes hsame
      · exact .inl ⟨hlast, List.forall_mem_cons.mpr ⟨hfirst, hall⟩⟩
      · exact .inr hpassed
    · exact .inr (runs_passed hwf' hrest hes hpassed)

/-- **What the user saw is what a finalization grants.** A client reads an
attempt, other calls are made through any instances, none of which creates
an attempt under that id again, and a finalization with the revision that
was read succeeds. Then the attempt it consumed is the one that was read,
and the record is active with the permissions that were read. No call in
between replaced, cancelled or removed the attempt. -/
theorem finalization_grants_snapshot (h₁ : runs step initial es₁ = some s₁)
    (hread : TrustStore.findAttempt s₁.database id = .ok (some a))
    (h₂ : runs step s₁ es₂ = some s₂) (hkeeps : KeepsId id es₂) {store : ℕ}
    {f : PairingFinalization} {now completionTime : Int64}
    (hfinal : s₂.finalizePairing store id a.revision f now completionTime = (.ok (), s₃)) :
    TrustStore.findAttempt s₂.database id = .ok (some a)
      ∧ TrustStore.findAttempt s₃.database id = .ok none
      ∧ (∃ d, TrustStore.findDevice s₃.database a.peerUuid = .ok (some d) ∧ d.status = .active
        ∧ d.publicKey = a.peerPublicKey ∧ d.permissions = a.proposedPermissions)
      ∧ ∀ e ∈ es₂, e.succeeds = true →
        (∀ b expected, e.operation = .updateAttempt b expected → b.attemptId ≠ id)
          ∧ ∀ expected, e.operation ≠ .deleteAttempt id expected := by
  have hwf₁ := wellFormed_of_initial h₁
  have h₁₂ : runs step initial (es₁ ++ es₂) = some s₂ := runs_append_iff.mpr ⟨s₁, h₁, h₂⟩
  have hwf₂ := wellFormed_of_initial h₁₂
  have hspec := finalizePairing_spec h₁₂ store id a.revision f now completionTime
  have hok : (s₂.finalizePairing store id a.revision f now completionTime).1 = .ok () :=
    congrArg Prod.fst hfinal
  have hdone := hspec.2.1 hok
  rw [hfinal] at hdone
  obtain ⟨b, hb, hrevision, hconsumable⟩ := (hspec.1.mp hok).attempt
  have hb' : s₂.ledger.attempt id = some b :=
    Except.ok.inj ((Database.findAttempt_eq_ledger hwf₂ id).symm.trans hb)
  have ha : s₁.ledger.attempt id = some a :=
    Except.ok.inj ((Database.findAttempt_eq_ledger hwf₁ id).symm.trans hread)
  obtain ⟨hsame, hnone⟩ | hpassed := runs_attempt hwf₁ h₂ hkeeps ha
  swap
  · -- the revision was passed, but the finalization found it
    have hlt := hpassed b hb'
    rw [hrevision] at hlt
    exact absurd hlt (lt_irrefl _)
  obtain rfl := Option.some.inj (hsame.symm.trans hb')
  obtain ⟨c, revision, hc, -, hrecord⟩ := hdone.record
  obtain rfl := Option.some.inj (Except.ok.inj (hb.symm.trans hc))
  rw [← hconsumable.peerUuid] at hrecord
  refine ⟨hb, hdone.attemptGone, ⟨_, hrecord, rfl, hconsumable.peerPublicKey.symm, rfl⟩,
    fun e he hsucceeds => ?_⟩
  have hsup := hnone e he hsucceeds
  refine ⟨fun b expected hop => ?_, fun expected hop => ?_⟩
  · rw [hop] at hsup
    exact of_decide_eq_false hsup
  · rw [hop] at hsup
    exact of_decide_eq_false hsup rfl

/-- An attempt both sides have confirmed, and its finalization, for the runs
below. -/
def sampleAttempt (permission : String) : PairingAttempt where
  attemptId := sampleUuid
  peerUuid := sampleUuid
  peerPublicKey := sampleKey
  status := .confirmed
  localConfirmed := true
  peerConfirmed := true
  expiresAt := 9
  proposedPermissions := [ascii permission]

@[inherit_doc sampleAttempt]
def sampleFinalization : PairingFinalization where
  peerUuid := sampleUuid
  peerPublicKey := sampleKey
  pairingMethod := ascii "sas"

/-- A finalization grants what was read while another attempt is made. -/
theorem finalization_grants_snapshot_files :
    ∃ s₁ s₂ s₃, runs step initial [⟨0, .createAttempt (sampleAttempt "files"), true⟩] = some s₁
      ∧ runs step s₁ [⟨1, .createAttempt { sampleAttempt "shell" with
          attemptId := List.Vector.replicate 16 3 }, true⟩] = some s₂
      ∧ s₂.finalizePairing 0 sampleUuid 1 sampleFinalization 5 6 = (.ok (), s₃)
      ∧ ∃ d, TrustStore.findDevice s₃.database sampleUuid = .ok (some d)
        ∧ d.permissions = [ascii "files"] := by
  obtain ⟨s₁, h₁, hread, hrest⟩ : ∃ s₁,
      runs step initial [⟨0, .createAttempt (sampleAttempt "files"), true⟩] = some s₁
        ∧ TrustStore.findAttempt s₁.database sampleUuid = .ok (some (sampleAttempt "files"))
        ∧ (runs step s₁ [⟨1, .createAttempt { sampleAttempt "shell" with
          attemptId := List.Vector.replicate 16 3 }, true⟩]).map
          (fun s₂ => (s₂.finalizePairing 0 sampleUuid 1 sampleFinalization 5 6).1)
            = some (.ok ()) :=
    ⟨_, rfl, by decide +kernel, by decide +kernel⟩
  obtain ⟨s₂, h₂, hok⟩ := Option.map_eq_some_iff.mp hrest
  have hfinal : s₂.finalizePairing 0 sampleUuid 1 sampleFinalization 5 6
      = (.ok (), (s₂.finalizePairing 0 sampleUuid 1 sampleFinalization 5 6).2) :=
    Prod.ext hok rfl
  have hkeeps : KeepsId sampleUuid [⟨1, .createAttempt { sampleAttempt "shell" with
      attemptId := List.Vector.replicate 16 3 }, true⟩] := by
    unfold KeepsId
    decide +kernel
  obtain ⟨-, -, ⟨d, hd, -, -, hps⟩, -⟩ :=
    finalization_grants_snapshot h₁ hread h₂ hkeeps hfinal
  exact ⟨s₁, s₂, _, h₁, h₂, hfinal, d, hd, hps⟩

/-- **An id that is used again.** A client reads an attempt that proposes
one permission. The attempt is cancelled and deleted, and an attempt that
proposes another permission is created under the same id. The finalization
of what was read succeeds, and grants the permission nobody has seen. -/
theorem recreated_attempt_granted :
    ∃ s₁ s₂ s₃, runs step initial [⟨0, .createAttempt (sampleAttempt "files"), true⟩] = some s₁
      ∧ TrustStore.findAttempt s₁.database sampleUuid = .ok (some (sampleAttempt "files"))
      ∧ runs step s₁
        [⟨1, .updateAttempt { sampleAttempt "files" with status := .cancelled, revision := 2 } 1,
            true⟩,
          ⟨1, .deleteAttempt sampleUuid 2, true⟩,
          ⟨1, .createAttempt (sampleAttempt "shell"), true⟩] = some s₂
      ∧ s₂.finalizePairing 0 sampleUuid (sampleAttempt "files").revision sampleFinalization 5 6
        = (.ok (), s₃)
      ∧ TrustStore.findAttempt s₂.database sampleUuid ≠ .ok (some (sampleAttempt "files"))
      ∧ TrustStore.permissions s₃.database sampleUuid = .ok [ascii "shell"]
      ∧ (sampleAttempt "files").proposedPermissions = [ascii "files"] := by
  obtain ⟨s₁, h₁, hread, hrest⟩ : ∃ s₁,
      runs step initial [⟨0, .createAttempt (sampleAttempt "files"), true⟩] = some s₁
        ∧ TrustStore.findAttempt s₁.database sampleUuid = .ok (some (sampleAttempt "files"))
        ∧ (runs step s₁
          [⟨1, .updateAttempt { sampleAttempt "files" with status := .cancelled, revision := 2 } 1,
              true⟩,
            ⟨1, .deleteAttempt sampleUuid 2, true⟩,
            ⟨1, .createAttempt (sampleAttempt "shell"), true⟩]).map
          (fun s₂ => (TrustStore.findAttempt s₂.database sampleUuid,
            (s₂.finalizePairing 0 sampleUuid 1 sampleFinalization 5 6).1,
            TrustStore.permissions
              (s₂.finalizePairing 0 sampleUuid 1 sampleFinalization 5 6).2.database sampleUuid))
            = some (.ok (some (sampleAttempt "shell")), .ok (), .ok [ascii "shell"]) :=
    ⟨_, rfl, by decide +kernel, by decide +kernel⟩
  obtain ⟨s₂, h₂, hresult⟩ := Option.map_eq_some_iff.mp hrest
  obtain ⟨hstored, hresult⟩ := Prod.mk.inj hresult
  obtain ⟨hok, hgranted⟩ := Prod.mk.inj hresult
  refine ⟨s₁, s₂, _, h₁, hread, h₂, Prod.ext hok rfl, ?_, hgranted, rfl⟩
  rw [hstored]
  decide +kernel

end TrustStores

end Gasoline
