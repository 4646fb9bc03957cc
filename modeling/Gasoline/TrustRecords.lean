import Gasoline.TrustStore
import Gasoline.KeyedTable

/-!
# Records and their rows

A record is written to a row parameter by parameter and read back column by
column. This module says what comes of the two numberings: a record that was
bound is the row `DeviceRow.ofDevice` (`AttemptRow.ofAttempt`), every row
the constraints admit is the row of one record, and reading a row returns
its record.

Permissions live in tables of their own. Writing them appends one row each,
and reading returns those of one owner in order.
-/

namespace Gasoline

/-! ## Computations that succeed -/

/-- A sequence succeeds when its first part does and the rest does with what
the first part returned. -/
theorem bind_eq_ok {ε α β : Type} {x : Except ε α} {f : α → Except ε β} {b : β} :
    x >>= f = .ok b ↔ ∃ a, x = .ok a ∧ f a = .ok b := by
  cases x with
  | error e =>
    show Except.error e = .ok b ↔ _
    simp
  | ok a =>
    show f a = .ok b ↔ _
    simp

@[simp] theorem ok_bind {ε α β : Type} (a : α) (f : α → Except ε β) :
    ((.ok a : Except ε α) >>= f) = f a := rfl

/-- `require` succeeds where its condition holds. -/
theorem require_eq_ok {condition : Bool} {message : String} {u : Unit} :
    require condition message = .ok u ↔ condition = true := by
  unfold require
  cases condition <;> simp

theorem require_bind_eq_ok {α : Type} {condition : Bool} {message : String}
    {f : Unit → Except StoreError α} {b : α} :
    require condition message >>= f = .ok b ↔ condition = true ∧ f () = .ok b := by
  rw [bind_eq_ok]
  constructor
  · rintro ⟨u, hu, hf⟩
    exact ⟨require_eq_ok.mp hu, hf⟩
  · rintro ⟨hc, hf⟩
    exact ⟨(), require_eq_ok.mpr hc, hf⟩

@[simp] theorem Params.bind_self (p : Params) (index : ℕ) (value : SqlValue) :
    p.bind index value index = value :=
  Function.update_self ..

theorem Params.bind_of_ne (p : Params) {index i : ℕ} (value : SqlValue) (h : i ≠ index) :
    p.bind index value i = p i :=
  Function.update_of_ne h ..

theorem Params.bindText_eq_ok {p q : Params} {index : ℕ} {value : Bytes} :
    p.bindText index value = .ok q ↔ validText value = true ∧ q = p.bind index (.text value) := by
  unfold Params.bindText
  rw [require_bind_eq_ok]
  refine and_congr_right (fun _ => ?_)
  show Except.ok _ = Except.ok q ↔ _
  rw [Except.ok.injEq]
  exact eq_comm

/-- `changed_one` succeeds when one row was changed. -/
theorem TrustStore.changedOne_eq_ok {changes : ℕ} {u : Unit} :
    TrustStore.changedOne changes = .ok u ↔ changes = 1 := by
  unfold TrustStore.changedOne
  rw [require_eq_ok, beq_iff_eq]

/-! ## Blobs and texts -/

theorem blobOf_injective {n : ℕ} : Function.Injective (blobOf (n := n)) := by
  intro v w h
  exact List.Vector.toList_injective (SqlValue.blob.inj h)

@[simp] theorem blobOf_inj {n : ℕ} {v w : List.Vector UInt8 n} : blobOf v = blobOf w ↔ v = w :=
  blobOf_injective.eq_iff

/-- A blob is no null, so comparing with it is equality. -/
theorem SqlValue.equals_of_ne_null {a b : SqlValue} (hb : b ≠ .null) :
    a.equals b = decide (a = b) := by
  unfold SqlValue.equals
  refine decide_eq_decide.mpr ⟨fun h => h.2, fun h => ⟨h ▸ hb, h⟩⟩

@[simp] theorem SqlValue.equals_blobOf {n : ℕ} (a : SqlValue) (v : List.Vector UInt8 n) :
    a.equals (blobOf v) = decide (a = blobOf v) :=
  SqlValue.equals_of_ne_null (by simp [blobOf])

@[simp] theorem SqlValue.equals_text (a : SqlValue) (t : Bytes) :
    a.equals (.text t) = decide (a = .text t) :=
  SqlValue.equals_of_ne_null (by simp)

@[simp] theorem SqlValue.equals_integer (a : SqlValue) (i : Int64) :
    a.equals (.integer i) = decide (a = .integer i) :=
  SqlValue.equals_of_ne_null (by simp)

@[simp] theorem SqlValue.toBlob_blobOf {n : ℕ} (v : List.Vector UInt8 n) :
    (blobOf v).toBlob n = .ok v :=
  dif_pos v.2

@[simp] theorem SqlValue.toInteger_integer (i : Int64) : (SqlValue.integer i).toInteger = i := rfl

/-- A value of the right length is the blob of a UUID or key. -/
theorem SqlValue.isBlob_iff {n : ℕ} {v : SqlValue} :
    v.isBlob n = true ↔ ∃ w : List.Vector UInt8 n, v = blobOf w := by
  cases v with
  | blob b =>
    show (b.length == n) = true ↔ _
    rw [beq_iff_eq]
    refine ⟨fun h => ⟨⟨b, h⟩, rfl⟩, ?_⟩
    rintro ⟨w, hw⟩
    rw [SqlValue.blob.inj hw]
    exact w.2
  | null => simp [SqlValue.isBlob, blobOf]
  | integer i => simp [SqlValue.isBlob, blobOf]
  | real => simp [SqlValue.isBlob, blobOf]
  | text t => simp [SqlValue.isBlob, blobOf]

theorem SqlValue.exists_of_isText {p : ℕ → Bool} {v : SqlValue} (h : v.isText p = true) :
    ∃ t, v = .text t := by
  cases v with
  | text t => exact ⟨t, rfl⟩
  | null => exact absurd h (by simp [SqlValue.isText])
  | integer i => exact absurd h (by simp [SqlValue.isText])
  | real => exact absurd h (by simp [SqlValue.isText])
  | blob b => exact absurd h (by simp [SqlValue.isText])

/-- An `INTEGER NOT NULL` value is an integer that satisfies its check. -/
theorem SqlValue.exists_of_isInteger {p : Int64 → Bool} {v : SqlValue}
    (h : v.isInteger p = true) : ∃ i, v = .integer i ∧ p i = true := by
  cases v with
  | integer i => exact ⟨i, rfl, h⟩
  | null => exact absurd h (by simp [SqlValue.isInteger])
  | text t => exact absurd h (by simp [SqlValue.isInteger])
  | real => exact absurd h (by simp [SqlValue.isInteger])
  | blob b => exact absurd h (by simp [SqlValue.isInteger])

/-- The value an optional integer is bound as. -/
def SqlValue.ofOptional : Option Int64 → SqlValue
  | some i => .integer i
  | none => .null

@[simp] theorem SqlValue.toOptionalInteger_ofOptional (o : Option Int64) :
    (SqlValue.ofOptional o).toOptionalInteger = o := by
  cases o <;> rfl

theorem SqlValue.ofOptional_injective : Function.Injective SqlValue.ofOptional :=
  Function.LeftInverse.injective SqlValue.toOptionalInteger_ofOptional

/-- A nullable `INTEGER` value is an optional integer. -/
theorem SqlValue.exists_of_isNullableInteger {v : SqlValue}
    (h : v.isNullableInteger = true) : ∃ o, v = .ofOptional o := by
  cases v with
  | null => exact ⟨none, rfl⟩
  | integer i => exact ⟨some i, rfl⟩
  | text t => exact absurd h (by simp [SqlValue.isNullableInteger])
  | real => exact absurd h (by simp [SqlValue.isNullableInteger])
  | blob b => exact absurd h (by simp [SqlValue.isNullableInteger])

theorem Params.bindOptional_eq (p : Params) (index : ℕ) (o : Option Int64) :
    p.bindOptional index o = p.bind index (.ofOptional o) := by
  cases o <;> rfl

/-! ## Device rows -/

theorem TrustStatus.text_injective : Function.Injective TrustStatus.text := by
  intro s t
  cases s <;> cases t <;> decide

/-- The row of a record. -/
def DeviceRow.ofDevice (d : TrustedDevice) : DeviceRow where
  uuid := blobOf d.uuid
  publicKey := blobOf d.publicKey
  status := .text d.status.text
  revision := .integer d.revision
  localAlias := .text d.localAlias
  peerName := .text d.peerName
  peerPlatform := .text d.peerPlatform
  pairingMethod := .text d.pairingMethod
  pairedAt := .integer d.pairedAt
  revokedAt := .ofOptional d.revokedAt
  lastAuthenticatedAt := .ofOptional d.lastAuthenticatedAt

namespace DeviceRow

@[simp] theorem ofDevice_uuid (d : TrustedDevice) : (ofDevice d).uuid = blobOf d.uuid := rfl

@[simp] theorem ofDevice_publicKey (d : TrustedDevice) :
    (ofDevice d).publicKey = blobOf d.publicKey := rfl

@[simp] theorem ofDevice_status (d : TrustedDevice) :
    (ofDevice d).status = .text d.status.text := rfl

@[simp] theorem ofDevice_revision (d : TrustedDevice) :
    (ofDevice d).revision = .integer d.revision := rfl

/-- A row has one record, permissions aside. -/
theorem ofDevice_inj {d e : TrustedDevice} (h : ofDevice d = ofDevice e)
    (hperm : d.permissions = e.permissions) : d = e := by
  have hs := SqlValue.text.inj (congrArg status h)
  have hr := SqlValue.ofOptional_injective (congrArg revokedAt h)
  have hl := SqlValue.ofOptional_injective (congrArg lastAuthenticatedAt h)
  simp only [ofDevice, mk.injEq, blobOf_inj, SqlValue.text.injEq, SqlValue.integer.injEq] at h
  cases d
  cases e
  simp_all [TrustStatus.text_injective.eq_iff]

/-- **Every row the constraints admit is the row of a record.** -/
theorem exists_ofDevice {r : DeviceRow} (h : r.check = true) :
    ∃ d : TrustedDevice, r = ofDevice d ∧ 1 ≤ d.revision := by
  simp only [check, Bool.and_eq_true, Bool.or_eq_true, beq_iff_eq] at h
  obtain ⟨⟨⟨⟨⟨⟨⟨⟨⟨⟨⟨⟨hu, hk⟩, hs⟩, hr⟩, ha⟩, hn⟩, hp⟩, hm⟩, hat⟩, hrv⟩, hla⟩, -⟩, -⟩ := h
  obtain ⟨uuid, hu⟩ := SqlValue.isBlob_iff.mp hu
  obtain ⟨key, hk⟩ := SqlValue.isBlob_iff.mp hk
  obtain ⟨revision, hr, hpos⟩ := SqlValue.exists_of_isInteger hr
  obtain ⟨localAlias, ha⟩ := SqlValue.exists_of_isText ha
  obtain ⟨name, hn⟩ := SqlValue.exists_of_isText hn
  obtain ⟨platform, hp⟩ := SqlValue.exists_of_isText hp
  obtain ⟨method, hm⟩ := SqlValue.exists_of_isText hm
  obtain ⟨pairedAt, hat, -⟩ := SqlValue.exists_of_isInteger hat
  obtain ⟨revokedAt, hrv⟩ := SqlValue.exists_of_isNullableInteger hrv
  obtain ⟨last, hla⟩ := SqlValue.exists_of_isNullableInteger hla
  have hstatus : ∃ status : TrustStatus, r.status = .text status.text := by
    rcases hs with hs | hs
    · exact ⟨.active, hs⟩
    · exact ⟨.revoked, hs⟩
  obtain ⟨status, hs⟩ := hstatus
  refine ⟨⟨uuid, key, status, revision, localAlias, name, platform, method, pairedAt, revokedAt,
    last, []⟩, ?_, by simpa using hpos⟩
  cases r
  simp_all [ofDevice]

end DeviceRow

namespace TrustStore

/-- **What `bind_device` binds is the row of the record.** -/
theorem bindDevice_eq_ok {d : TrustedDevice} {p : Params} (h : bindDevice d = .ok p) :
    DeviceRow.ofParams p = .ofDevice d ∧ (d.status = .revoked → d.permissions = []) := by
  unfold bindDevice at h
  obtain ⟨hperm, h⟩ := require_bind_eq_ok.mp h
  simp only [bind_eq_ok, Params.bindText_eq_ok, pure, Except.pure, Except.ok.injEq] at h
  obtain ⟨p₃, ⟨-, rfl⟩, p₅, ⟨-, rfl⟩, p₆, ⟨-, rfl⟩, p₇, ⟨-, rfl⟩, p₈, ⟨-, rfl⟩, rfl⟩ := h
  constructor
  · simp only [Params.bindOptional_eq]
    rfl
  · intro hs
    simpa [hs] using hperm

/-- **When `bind_device` succeeds**: a revoked record has no permissions, and
its four texts can be bound. -/
theorem exists_bindDevice {d : TrustedDevice} :
    (∃ p, bindDevice d = .ok p) ↔ (d.status = .revoked → d.permissions = [])
      ∧ ∀ t ∈ [d.localAlias, d.peerName, d.peerPlatform, d.pairingMethod],
        Params.validText t = true := by
  have hstatus : Params.validText d.status.text = true := by
    cases d.status <;> decide
  have hperm : (d.status != .revoked || d.permissions.isEmpty) = true
      ↔ (d.status = .revoked → d.permissions = []) := by
    cases d.status <;> simp
  unfold bindDevice
  simp only [bind_eq_ok, require_eq_ok, hperm, Params.bindText_eq_ok, pure, Except.pure,
    Except.ok.injEq, hstatus, true_and, List.forall_mem_cons, List.not_mem_nil, false_imp_iff,
    implies_true, and_true]
  constructor
  · rintro ⟨p, _, hp, _, rfl, _, ⟨ha, rfl⟩, _, ⟨hn, rfl⟩, _, ⟨hl, rfl⟩, _, ⟨hm, rfl⟩, -⟩
    exact ⟨hp, ha, hn, hl, hm⟩
  · rintro ⟨hp, ha, hn, hl, hm⟩
    exact ⟨_, (), hp, _, rfl, _, ⟨ha, rfl⟩, _, ⟨hn, rfl⟩, _, ⟨hl, rfl⟩, _, ⟨hm, rfl⟩, rfl⟩

/-- The updates set every column but the keys, so a row with the record's
keys becomes the row of the record. -/
theorem setDevice_eq {d : TrustedDevice} {p : Params} {r : DeviceRow}
    (hp : DeviceRow.ofParams p = .ofDevice d)
    (hu : r.uuid = blobOf d.uuid) (hk : r.publicKey = blobOf d.publicKey) :
    setDevice p r = .ofDevice d := by
  rw [← hp]
  cases r
  have h₁ : p 1 = blobOf d.uuid := congrArg DeviceRow.uuid hp
  have h₂ : p 2 = blobOf d.publicKey := congrArg DeviceRow.publicKey hp
  simp_all [setDevice, DeviceRow.ofParams]

/-- **Reading a row returns its record**, with the permissions read
separately. -/
theorem readDevice_ofDevice (db : Database) (d : TrustedDevice) :
    readDevice db (.ofDevice d)
      = (readPermissions db d.uuid false).map (fun ps => { d with permissions := ps }) := by
  have hvalid : d.status.text = ascii "ACTIVE" ∨ d.status.text = ascii "REVOKED" := by
    cases d.status <;> decide
  have hstatus : (if d.status.text = ascii "ACTIVE" then TrustStatus.active else .revoked)
      = d.status := by
    cases d.status <;> decide
  have hrow : readDevice db (.ofDevice d) = (readPermissions db d.uuid false >>= fun ps =>
      .ok { d with permissions := ps }) := by
    simp [readDevice, DeviceRow.column, DeviceRow.ofDevice, SqlValue.toText, SqlValue.toInteger,
      require, hvalid, hstatus, pure, Except.pure]
  rw [hrow]
  cases readPermissions db d.uuid false <;> rfl

end TrustStore

/-! ## Attempt rows -/

theorem PairingAttemptStatus.text_injective : Function.Injective PairingAttemptStatus.text := by
  intro s t
  cases s <;> cases t <;> decide

/-- The row of an attempt. -/
def AttemptRow.ofAttempt (a : PairingAttempt) : AttemptRow where
  attemptId := blobOf a.attemptId
  peerUuid := blobOf a.peerUuid
  peerPublicKey := blobOf a.peerPublicKey
  status := .text a.status.text
  revision := .integer a.revision
  localConfirmed := .integer (if a.localConfirmed then 1 else 0)
  peerConfirmed := .integer (if a.peerConfirmed then 1 else 0)
  createdAt := .integer a.createdAt
  updatedAt := .integer a.updatedAt
  expiresAt := .integer a.expiresAt

namespace AttemptRow

@[simp] theorem ofAttempt_attemptId (a : PairingAttempt) :
    (ofAttempt a).attemptId = blobOf a.attemptId := rfl

/-- A row has one attempt, permissions aside. -/
theorem ofAttempt_inj {a b : PairingAttempt} (h : ofAttempt a = ofAttempt b)
    (hperm : a.proposedPermissions = b.proposedPermissions) : a = b := by
  have hflag : ∀ x y : Bool, (if x then (1 : Int64) else 0) = (if y then 1 else 0) → x = y := by
    decide
  have hl := hflag _ _ (SqlValue.integer.inj (congrArg localConfirmed h))
  have hp := hflag _ _ (SqlValue.integer.inj (congrArg peerConfirmed h))
  simp only [ofAttempt, mk.injEq, blobOf_inj, SqlValue.text.injEq, SqlValue.integer.injEq,
    PairingAttemptStatus.text_injective.eq_iff] at h
  cases a
  cases b
  simp_all

/-- A flag that the constraints admit is a Boolean. -/
theorem exists_flag {i : Int64} (h : (i == 0 || i == 1) = true) :
    ∃ b : Bool, i = if b then 1 else 0 := by
  rcases Bool.or_eq_true _ _ ▸ h with h | h
  · exact ⟨false, beq_iff_eq.mp h⟩
  · exact ⟨true, beq_iff_eq.mp h⟩

/-- **Every row the constraints admit is the row of an attempt.** -/
theorem exists_ofAttempt {r : AttemptRow} (h : r.check = true) :
    ∃ a : PairingAttempt, r = ofAttempt a := by
  simp only [check, Bool.and_eq_true, Bool.or_eq_true] at h
  obtain ⟨⟨⟨⟨⟨⟨⟨⟨⟨⟨⟨⟨hi, hu⟩, hk⟩, hs⟩, hr⟩, hl⟩, hp⟩, hc⟩, hup⟩, -⟩, hx⟩, -⟩, -⟩ := h
  obtain ⟨id, hi⟩ := SqlValue.isBlob_iff.mp hi
  obtain ⟨uuid, hu⟩ := SqlValue.isBlob_iff.mp hu
  obtain ⟨key, hk⟩ := SqlValue.isBlob_iff.mp hk
  obtain ⟨revision, hr, -⟩ := SqlValue.exists_of_isInteger hr
  obtain ⟨l, hl, hlb⟩ := SqlValue.exists_of_isInteger hl
  obtain ⟨localConfirmed, rfl⟩ := exists_flag hlb
  obtain ⟨q, hp, hqb⟩ := SqlValue.exists_of_isInteger hp
  obtain ⟨peerConfirmed, rfl⟩ := exists_flag hqb
  obtain ⟨createdAt, hc, -⟩ := SqlValue.exists_of_isInteger hc
  obtain ⟨updatedAt, hup, -⟩ := SqlValue.exists_of_isInteger hup
  obtain ⟨expiresAt, hx, -⟩ := SqlValue.exists_of_isInteger hx
  have hstatus : ∃ status : PairingAttemptStatus, r.status = .text status.text := by
    rcases hs with ((hs | hs) | hs) | hs
    · exact ⟨.pending, beq_iff_eq.mp hs⟩
    · exact ⟨.confirmed, beq_iff_eq.mp hs⟩
    · exact ⟨.cancelled, beq_iff_eq.mp hs⟩
    · exact ⟨.expired, beq_iff_eq.mp hs⟩
  obtain ⟨status, hs⟩ := hstatus
  refine ⟨⟨id, uuid, key, status, revision, localConfirmed, peerConfirmed, createdAt, updatedAt,
    expiresAt, []⟩, ?_⟩
  cases r
  simp_all [ofAttempt]

end AttemptRow

namespace TrustStore

/-- **What `bind_attempt` binds is the row of the attempt.** -/
theorem bindAttempt_eq_ok {a : PairingAttempt} {p : Params} (h : bindAttempt a = .ok p) :
    AttemptRow.ofParams p = .ofAttempt a := by
  unfold bindAttempt at h
  simp only [bind_eq_ok, Params.bindText_eq_ok, pure, Except.pure, Except.ok.injEq] at h
  obtain ⟨p₄, ⟨-, rfl⟩, rfl⟩ := h
  rfl

theorem readAttemptStatus_text (status : PairingAttemptStatus) :
    readAttemptStatus status.text = .ok status := by
  cases status <;> rfl

end TrustStore

/-! ## Permission rows -/

namespace PermissionRow

/-- The row of a permission. -/
def ofText (owner : TrustUuid) (permission : Bytes) : PermissionRow :=
  ⟨blobOf owner, .text permission⟩

/-- The permission of a row. -/
def text (r : PermissionRow) : Bytes :=
  match r.permission with
  | .text t => t
  | _ => []

theorem permission_eq_text {r : PermissionRow} (h : r.check = true) :
    r.permission = .text r.text := by
  obtain ⟨t, ht⟩ := SqlValue.exists_of_isText (Bool.and_eq_true _ _ ▸ h).2
  unfold text
  rw [ht]

/-- Reading the permission column of rows the constraints admit. -/
theorem mapM_toText {rows : List PermissionRow} (h : ∀ r ∈ rows, r.check = true) :
    (rows.map permission).mapM SqlValue.toText = .ok (rows.map text) := by
  induction rows with
  | nil => rfl
  | cons r rows ih =>
    rw [List.forall_mem_cons] at h
    rw [List.map_cons, List.mapM_cons, ih h.2, permission_eq_text h.1]
    rfl

end PermissionRow

/-- The permissions of one owner, in order. -/
def permissionsOf (rows : List PermissionRow) (owner : TrustUuid) : List Bytes :=
  ((rows.filter (fun r => decide (r.owner = blobOf owner))).map PermissionRow.text).mergeSort
    Bytes.le

/-- `Bytes.le` is the order of lists of bytes. -/
theorem Bytes.le_iff {a b : Bytes} : Bytes.le a b = true ↔ a ≤ b := by
  unfold Bytes.le
  rw [Bool.not_eq_true', decide_eq_false_iff_not, List.not_lt]

theorem permissionsOf_pairwise (rows : List PermissionRow) (owner : TrustUuid) :
    (permissionsOf rows owner).Pairwise (fun a b => Bytes.le a b = true) := by
  refine List.pairwise_mergeSort ?_ ?_ _
  · intro a b c
    simp only [Bytes.le_iff]
    exact List.le_trans
  · intro a b
    simp only [Bool.or_eq_true, Bytes.le_iff]
    exact List.le_total a b

/-- Permissions that are in order stay as they are. -/
theorem permissionsOf_mergeSort (rows : List PermissionRow) (owner : TrustUuid) :
    (permissionsOf rows owner).mergeSort Bytes.le = permissionsOf rows owner :=
  List.mergeSort_of_pairwise (permissionsOf_pairwise rows owner)

section Permissions

variable {rows : List PermissionRow} {owner other : TrustUuid}

/-- The permissions written for an owner that has none. -/
theorem permissionsOf_append_self (hnone : ∀ r ∈ rows, r.owner ≠ blobOf owner)
    (ps : List Bytes) :
    permissionsOf (rows ++ ps.map (PermissionRow.ofText owner)) owner
      = ps.mergeSort Bytes.le := by
  have hold : rows.filter (fun r => decide (r.owner = blobOf owner)) = [] := by
    rw [List.filter_eq_nil_iff]
    intro r hr
    simpa using hnone r hr
  have hnew : (ps.map (PermissionRow.ofText owner)).filter
      (fun r => decide (r.owner = blobOf owner)) = ps.map (PermissionRow.ofText owner) := by
    rw [List.filter_eq_self]
    intro r hr
    obtain ⟨t, -, rfl⟩ := List.mem_map.mp hr
    exact decide_eq_true rfl
  have htext : PermissionRow.text ∘ PermissionRow.ofText owner = id := rfl
  unfold permissionsOf
  rw [List.filter_append, hold, hnew, List.nil_append, List.map_map, htext, List.map_id]

/-- Another owner's permissions are as they were. -/
theorem permissionsOf_append_of_ne (hne : other ≠ owner) (ps : List Bytes) :
    permissionsOf (rows ++ ps.map (PermissionRow.ofText owner)) other
      = permissionsOf rows other := by
  have hnew : (ps.map (PermissionRow.ofText owner)).filter
      (fun r => decide (r.owner = blobOf other)) = [] := by
    rw [List.filter_eq_nil_iff]
    intro r hr
    obtain ⟨t, -, rfl⟩ := List.mem_map.mp hr
    simpa [PermissionRow.ofText] using hne.symm
  unfold permissionsOf
  rw [List.filter_append, hnew, List.append_nil]

/-- Deleting rows none of which is the owner's. -/
theorem permissionsOf_filter {keep : PermissionRow → Bool}
    (hkeep : ∀ r, r.owner = blobOf owner → keep r = true) :
    permissionsOf (rows.filter keep) owner = permissionsOf rows owner := by
  unfold permissionsOf
  rw [List.filter_filter]
  congr 2
  refine List.filter_congr (fun r _ => ?_)
  by_cases h : r.owner = blobOf owner
  · simp [h, hkeep r h]
  · simp [h]

end Permissions

/-! ## Reading permissions -/

namespace TrustStore

theorem readPermissions_attempt {db : Database}
    (h : ∀ r ∈ db.pairingAttemptPermissions, r.check = true) (id : TrustUuid) :
    readPermissions db id true = .ok (permissionsOf db.pairingAttemptPermissions id) := by
  have hvalues : permissionValues db id true = (db.pairingAttemptPermissions.filter
      (fun r => decide (r.owner = blobOf id))).map PermissionRow.permission := by
    simp [permissionValues]
  unfold readPermissions
  rw [hvalues, PermissionRow.mapM_toText (fun r hr => h r (List.mem_of_mem_filter hr))]
  rfl

/-- **The permissions of a device**: those it was granted while it is
active, and otherwise none. -/
theorem readPermissions_device {db : Database}
    (h : ∀ r ∈ db.devicePermissions, r.check = true)
    (huuid : (db.trustedDevices.map DeviceRow.uuid).Nodup) (id : TrustUuid) :
    readPermissions db id false = .ok
      (if (lookup DeviceRow.uuid db.trustedDevices (blobOf id)).any
          (fun r => decide (r.status = .text (ascii "ACTIVE")))
        then permissionsOf db.devicePermissions id else []) := by
  -- the join keeps the permission rows of `id`, once each if its row is active
  have hjoin : ∀ p : PermissionRow, (db.trustedDevices.filter (fun d => d.uuid.equals p.owner
      && d.uuid.equals (blobOf id) && d.status.equals (.text (ascii "ACTIVE"))))
      = ((lookup DeviceRow.uuid db.trustedDevices (blobOf id)).filter
          (fun d => decide (p.owner = blobOf id)
            && decide (d.status = .text (ascii "ACTIVE")))).toList := by
    intro p
    rw [← filter_lookup huuid]
    refine List.filter_congr (fun d _ => ?_)
    by_cases hd : d.uuid = blobOf id
    · have howner : d.uuid.equals p.owner = decide (p.owner = blobOf id) := by
        rw [hd]
        exact decide_eq_decide.mpr ⟨fun e => e.2.symm, fun e => ⟨by simp [blobOf], e.symm⟩⟩
      simp [hd ▸ howner, hd]
    · simp [hd]
  have hvalues : permissionValues db id false
      = (if (lookup DeviceRow.uuid db.trustedDevices (blobOf id)).any
            (fun r => decide (r.status = .text (ascii "ACTIVE")))
          then db.devicePermissions.filter (fun r => decide (r.owner = blobOf id)) else []).map
        PermissionRow.permission := by
    unfold permissionValues
    rw [if_neg Bool.false_ne_true]
    simp only [hjoin]
    cases lookup DeviceRow.uuid db.trustedDevices (blobOf id) with
    | none => simp
    | some r =>
      by_cases hactive : r.status = .text (ascii "ACTIVE")
      · rw [Option.any_some, if_pos (decide_eq_true hactive)]
        induction db.devicePermissions with
        | nil => rfl
        | cons p rows ih =>
          rw [List.flatMap_cons, List.filter_cons, ih]
          by_cases hp : p.owner = blobOf id
          · simp [hp, hactive, Option.filter]
          · simp [hp]
      · simp [hactive]
  unfold readPermissions
  rw [hvalues, PermissionRow.mapM_toText]
  · split
    · rfl
    · exact congrArg Except.ok List.mergeSort_nil
  · intro r hr
    split at hr
    · exact h r (List.mem_of_mem_filter hr)
    · cases hr

/-! ## Statements that succeed -/

end TrustStore

namespace Database

/-- An inserted device row passes its constraints, and neither of its keys
was there. -/
theorem insertDevice_eq_ok {db db' : Database} {p : Params} (h : db.insertDevice p = .ok db') :
    (DeviceRow.ofParams p).check = true
      ∧ (∀ r ∈ db.trustedDevices, r.uuid ≠ (DeviceRow.ofParams p).uuid)
      ∧ (∀ r ∈ db.trustedDevices, r.publicKey ≠ (DeviceRow.ofParams p).publicKey)
      ∧ db' = { db with trustedDevices := db.trustedDevices ++ [.ofParams p] } := by
  simp only [insertDevice] at h
  split at h
  · cases h
  split at h
  · cases h
  split at h
  · cases h
  rename_i hcheck hkey huuid
  simp only [Bool.not_eq_true', Bool.not_eq_false, List.any_eq_true, beq_iff_eq, not_exists,
    not_and] at hcheck hkey huuid
  exact ⟨hcheck, huuid, hkey, (Except.ok.inj h).symm⟩

/-- Every updated device row passes its constraints. -/
theorem updateDevices_eq_ok {db : Database} {cond : DeviceRow → Bool}
    {set : DeviceRow → DeviceRow} {result : Database × ℕ}
    (h : db.updateDevices cond set = .ok result) :
    (∀ r ∈ db.trustedDevices, cond r = true → (set r).check = true)
      ∧ result = ({ db with
          trustedDevices := db.trustedDevices.map (fun r => if cond r then set r else r) },
        db.trustedDevices.countP cond) := by
  unfold updateDevices at h
  split at h
  · rename_i hall
    rw [List.all_eq_true] at hall
    refine ⟨fun r hr hc => ?_, (Except.ok.inj h).symm⟩
    exact hall r (List.mem_filter.mpr ⟨hr, hc⟩)
  · cases h

/-- An inserted attempt row passes its constraints and is new. -/
theorem insertAttempt_eq_ok {db db' : Database} {p : Params}
    (h : db.insertAttempt p = .ok db') :
    (AttemptRow.ofParams p).check = true
      ∧ (∀ r ∈ db.pairingAttempts, r.attemptId ≠ (AttemptRow.ofParams p).attemptId)
      ∧ db' = { db with pairingAttempts := db.pairingAttempts ++ [.ofParams p] } := by
  simp only [insertAttempt] at h
  split at h
  · cases h
  split at h
  · cases h
  rename_i hcheck hid
  simp only [Bool.not_eq_true', Bool.not_eq_false, List.any_eq_true, beq_iff_eq, not_exists,
    not_and] at hcheck hid
  exact ⟨hcheck, hid, (Except.ok.inj h).symm⟩

/-- Every updated attempt row passes its constraints. -/
theorem updateAttempts_eq_ok {db : Database} {cond : AttemptRow → Bool}
    {set : AttemptRow → AttemptRow} {result : Database × ℕ}
    (h : db.updateAttempts cond set = .ok result) :
    (∀ r ∈ db.pairingAttempts, cond r = true → (set r).check = true)
      ∧ result = ({ db with
          pairingAttempts := db.pairingAttempts.map (fun r => if cond r then set r else r) },
        db.pairingAttempts.countP cond) := by
  unfold updateAttempts at h
  split at h
  · rename_i hall
    rw [List.all_eq_true] at hall
    refine ⟨fun r hr hc => ?_, (Except.ok.inj h).symm⟩
    exact hall r (List.mem_filter.mpr ⟨hr, hc⟩)
  · cases h

/-- A permission row is inserted where it passes its constraints, is new and
refers to a device. -/
theorem insertDevicePermission_eq_ok {db db' : Database} {p : Params} :
    db.insertDevicePermission p = .ok db' ↔
      (PermissionRow.ofParams p).check = true ∧ PermissionRow.ofParams p ∉ db.devicePermissions
        ∧ (∃ d ∈ db.trustedDevices, d.uuid = (PermissionRow.ofParams p).owner)
        ∧ db' = { db with devicePermissions := db.devicePermissions ++ [.ofParams p] } := by
  simp only [insertDevicePermission]
  split_ifs with hcheck hnew hany
  · simp_all
  · simp_all
  · simp_all
  · rw [Except.ok.injEq, @eq_comm _ _ db']
    simp_all

/-- A permission row is inserted where it passes its constraints, is new and
refers to an attempt. -/
theorem insertAttemptPermission_eq_ok {db db' : Database} {p : Params} :
    db.insertAttemptPermission p = .ok db' ↔
      (PermissionRow.ofParams p).check = true
        ∧ PermissionRow.ofParams p ∉ db.pairingAttemptPermissions
        ∧ (∃ a ∈ db.pairingAttempts, a.attemptId = (PermissionRow.ofParams p).owner)
        ∧ db' = { db with
          pairingAttemptPermissions := db.pairingAttemptPermissions ++ [.ofParams p] } := by
  simp only [insertAttemptPermission]
  split_ifs with hcheck hnew hany
  · simp_all
  · simp_all
  · simp_all
  · rw [Except.ok.injEq, @eq_comm _ _ db']
    simp_all

end Database

namespace TrustStore

/-! ## Writing permissions -/

/-- Permissions that can be written: at most 128, all different, and each of
them a text the schema admits. -/
structure Writable (ps : List Bytes) : Prop where
  count : ps.length ≤ 128
  nodup : ps.Nodup
  valid : ∀ t ∈ ps, Params.validText t = true
  admitted : ∀ t ∈ ps, (1 ≤ SqlValue.characters t ∧ SqlValue.characters t ≤ 64)

/-- The constraints of a permission row are the bounds on its text. -/
theorem ofText_check {id : TrustUuid} {t : Bytes} :
    (PermissionRow.ofText id t).check = true
      ↔ 1 ≤ SqlValue.characters t ∧ SqlValue.characters t ≤ 64 := by
  have hblob : (blobOf id).isBlob 16 = true := SqlValue.isBlob_iff.mpr ⟨id, rfl⟩
  simp [PermissionRow.check, PermissionRow.ofText, SqlValue.isText, hblob]

/-- **The loop of `write_permissions`** appends the rows of the permissions,
and does so where each of them is admitted and new and their owner is
there. -/
theorem writePermissionRows_eq_ok
    {insert : Database → Params → Except StoreError Database}
    (rowsOf : Database → List PermissionRow) (put : Database → List PermissionRow → Database)
    (Owner : Database → SqlValue → Prop)
    (hinsert : ∀ {db p db'}, insert db p = .ok db' ↔ (PermissionRow.ofParams p).check = true
      ∧ PermissionRow.ofParams p ∉ rowsOf db ∧ Owner db (PermissionRow.ofParams p).owner
      ∧ db' = put db [.ofParams p])
    (hrows : ∀ db xs, rowsOf (put db xs) = rowsOf db ++ xs)
    (howner : ∀ db xs k, Owner (put db xs) k ↔ Owner db k)
    (hnil : ∀ db, put db [] = db) (hput : ∀ db xs ys, put (put db xs) ys = put db (xs ++ ys))
    {id : TrustUuid} {ps : List Bytes} {db db' : Database} :
    writePermissionRows insert id ps db = .ok db' ↔
      (∀ t ∈ ps, Params.validText t = true ∧ (PermissionRow.ofText id t).check = true
        ∧ PermissionRow.ofText id t ∉ rowsOf db ∧ Owner db (blobOf id))
        ∧ ps.Nodup ∧ db' = put db (ps.map (PermissionRow.ofText id)) := by
  induction ps generalizing db with
  | nil =>
    rw [writePermissionRows, Except.ok.injEq, @eq_comm _ _ db']
    simp [hnil]
  | cons t ps ih =>
    have hrow : PermissionRow.ofParams ((Params.empty.bind 1 (blobOf id)).bind 2 (.text t))
        = PermissionRow.ofText id t := rfl
    have hne : ∀ t', PermissionRow.ofText id t' = PermissionRow.ofText id t ↔ t' = t := by
      simp [PermissionRow.ofText]
    have hself : (PermissionRow.ofText id t).owner = blobOf id := rfl
    simp only [writePermissionRows, bind_eq_ok, Params.bindText_eq_ok, hinsert]
    constructor
    · rintro ⟨p, ⟨hvalid, rfl⟩, mid, ⟨hcheck, hnew, hown, rfl⟩, hrest⟩
      rw [hrow] at hcheck hnew hown hrest
      obtain ⟨hall, hnodup, rfl⟩ := ih.mp hrest
      simp only [hrows, howner, List.mem_append, List.mem_singleton, hne, not_or] at hall
      refine ⟨List.forall_mem_cons.mpr ⟨⟨hvalid, hcheck, hnew, hown⟩, ?_⟩, ?_, hput ..⟩
      · exact fun x hx => ⟨(hall x hx).1, (hall x hx).2.1, (hall x hx).2.2.1.1, hown⟩
      · exact List.nodup_cons.mpr ⟨fun ht => (hall t ht).2.2.1.2 rfl, hnodup⟩
    · rintro ⟨hall, hnodup, rfl⟩
      obtain ⟨⟨hvalid, hcheck, hnew, hown⟩, hall⟩ := List.forall_mem_cons.mp hall
      obtain ⟨hfresh, hnodup⟩ := List.nodup_cons.mp hnodup
      refine ⟨_, ⟨hvalid, rfl⟩, _, ⟨hcheck, hnew, hown, rfl⟩, ih.mpr ⟨?_, hnodup, ?_⟩⟩
      · intro x hx
        obtain ⟨hv, hc, hn, ho⟩ := hall x hx
        refine ⟨hv, hc, ?_, (howner ..).mpr ho⟩
        rw [hrows, hrow, List.mem_append, List.mem_singleton, hne, not_or]
        exact ⟨hn, fun e => hfresh (e ▸ hx)⟩
      · rw [hput, hrow]
        rfl

/-- **When `write_permissions` succeeds for a device, and what it does.** -/
theorem writePermissions_device_iff {db db' : Database} {id : TrustUuid} {ps : List Bytes} :
    writePermissions db id ps false = .ok db' ↔
      Writable ps
        ∧ (∀ t ∈ ps, PermissionRow.ofText id t ∉ db.devicePermissions
          ∧ ∃ d ∈ db.trustedDevices, d.uuid = blobOf id)
        ∧ db' = { db with
          devicePermissions := db.devicePermissions ++ ps.map (PermissionRow.ofText id) } := by
  unfold writePermissions
  rw [require_bind_eq_ok, decide_eq_true_eq, if_neg Bool.false_ne_true,
    writePermissionRows_eq_ok Database.devicePermissions
      (fun db rows => { db with devicePermissions := db.devicePermissions ++ rows })
      (fun db k => ∃ d ∈ db.trustedDevices, d.uuid = k)
      Database.insertDevicePermission_eq_ok (fun _ _ => rfl) (fun _ _ _ => Iff.rfl)
      (fun db => by simp) (fun db xs ys => by simp)]
  constructor
  · rintro ⟨hcount, hall, hnodup, rfl⟩
    refine ⟨⟨hcount, hnodup, fun t ht => (hall t ht).1, fun t ht => ?_⟩, ?_, rfl⟩
    · exact ofText_check.mp (hall t ht).2.1
    · exact fun t ht => (hall t ht).2.2
  · rintro ⟨hw, hall, rfl⟩
    refine ⟨hw.count, fun t ht => ⟨hw.valid t ht, ?_, hall t ht⟩, hw.nodup, rfl⟩
    exact ofText_check.mpr (hw.admitted t ht)

/-- **When `write_permissions` succeeds for an attempt, and what it does.** -/
theorem writePermissions_attempt_iff {db db' : Database} {id : TrustUuid} {ps : List Bytes} :
    writePermissions db id ps true = .ok db' ↔
      Writable ps
        ∧ (∀ t ∈ ps, PermissionRow.ofText id t ∉ db.pairingAttemptPermissions
          ∧ ∃ a ∈ db.pairingAttempts, a.attemptId = blobOf id)
        ∧ db' = { db with
          pairingAttemptPermissions :=
            db.pairingAttemptPermissions ++ ps.map (PermissionRow.ofText id) } := by
  unfold writePermissions
  rw [require_bind_eq_ok, decide_eq_true_eq, if_pos rfl,
    writePermissionRows_eq_ok Database.pairingAttemptPermissions
      (fun db rows => { db with
        pairingAttemptPermissions := db.pairingAttemptPermissions ++ rows })
      (fun db k => ∃ a ∈ db.pairingAttempts, a.attemptId = k)
      Database.insertAttemptPermission_eq_ok (fun _ _ => rfl) (fun _ _ _ => Iff.rfl)
      (fun db => by simp) (fun db xs ys => by simp)]
  constructor
  · rintro ⟨hcount, hall, hnodup, rfl⟩
    refine ⟨⟨hcount, hnodup, fun t ht => (hall t ht).1, fun t ht => ?_⟩, ?_, rfl⟩
    · exact ofText_check.mp (hall t ht).2.1
    · exact fun t ht => (hall t ht).2.2
  · rintro ⟨hw, hall, rfl⟩
    refine ⟨hw.count, fun t ht => ⟨hw.valid t ht, ?_, hall t ht⟩, hw.nodup, rfl⟩
    exact ofText_check.mpr (hw.admitted t ht)

/-- The rows `write_permissions` appends for a device pass the constraints
and refer to it. -/
theorem writePermissions_device {db db' : Database} {id : TrustUuid} {ps : List Bytes}
    (h : writePermissions db id ps false = .ok db') :
    db' = { db with
        devicePermissions := db.devicePermissions ++ ps.map (PermissionRow.ofText id) }
      ∧ ∀ r ∈ ps.map (PermissionRow.ofText id),
        r.check = true ∧ ∃ d ∈ db.trustedDevices, d.uuid = r.owner := by
  obtain ⟨hw, hall, rfl⟩ := writePermissions_device_iff.mp h
  refine ⟨rfl, fun r hr => ?_⟩
  obtain ⟨t, ht, rfl⟩ := List.mem_map.mp hr
  exact ⟨ofText_check.mpr (hw.admitted t ht), (hall t ht).2⟩

/-- The rows `write_permissions` appends for an attempt pass the constraints
and refer to it. -/
theorem writePermissions_attempt {db db' : Database} {id : TrustUuid} {ps : List Bytes}
    (h : writePermissions db id ps true = .ok db') :
    db' = { db with
        pairingAttemptPermissions :=
          db.pairingAttemptPermissions ++ ps.map (PermissionRow.ofText id) }
      ∧ ∀ r ∈ ps.map (PermissionRow.ofText id),
        r.check = true ∧ ∃ a ∈ db.pairingAttempts, a.attemptId = r.owner := by
  obtain ⟨hw, hall, rfl⟩ := writePermissions_attempt_iff.mp h
  refine ⟨rfl, fun r hr => ?_⟩
  obtain ⟨t, ht, rfl⟩ := List.mem_map.mp hr
  exact ⟨ofText_check.mpr (hw.admitted t ht), (hall t ht).2⟩

end TrustStore

end Gasoline
