import Gasoline.Session

/-!
# Arbitration between duplicate connections

Several connections to one device may be authenticated at about the same
time, and the registry keeps one of them. Which one depends on the order in
which they are published only through their direction: it is the first one
that is preferred, or the first of all if none is (`elected`).

`DeviceRegistry.call` is a call of the registry as its users see it, with
the `RegistrationResult` it returns. What one call does to the owner of a
device is said once (`arbitrate_owner`), and the result about any sequence
of calls is read off that.
-/

namespace Gasoline

namespace DeviceRegistry

/-! ## One publication -/

/-- The entry of a device. -/
def owner (devices : List Device) (deviceId : Bytes) : Option Device :=
  devices.find? (fun d => decide (d.deviceId = deviceId))

section Arbitrate

variable {holds : ℕ → Bool} {published : Device} {devices devices' : List Device}
  {replaced : Option Device}

/-- The incumbent is kept: it is there, and does not give way. -/
def keeps (holds : ℕ → Bool) (existing published : Device) : Bool :=
  holds existing.sessionId && (existing.preferredConnection || !published.preferredConnection)

/-- **What the loop of `publish_authenticated_device` does to the owner**: a
device without an entry gets one; otherwise the incumbent is kept, or it is
replaced and returned. -/
theorem arbitrate_owner (holds : ℕ → Bool) (published : Device) (devices : List Device) :
    (owner devices published.deviceId = none
        ∧ arbitrate holds published devices = some (devices ++ [published], none))
      ∨ ∃ existing, owner devices published.deviceId = some existing
        ∧ ((keeps holds existing published = true ∧ arbitrate holds published devices = none)
          ∨ (keeps holds existing published = false ∧ ∃ before after,
            devices = before ++ existing :: after
              ∧ (∀ d ∈ before, d.deviceId ≠ published.deviceId)
              ∧ existing.deviceId = published.deviceId
              ∧ arbitrate holds published devices
                = some (before ++ published :: after, some existing))) := by
  induction devices with
  | nil => exact .inl ⟨rfl, rfl⟩
  | cons d rest ih =>
    by_cases hd : d.deviceId = published.deviceId
    · have howner : owner (d :: rest) published.deviceId = some d :=
        List.find?_cons_of_pos (decide_eq_true hd)
      refine .inr ⟨d, howner, ?_⟩
      cases hkeeps : keeps holds d published with
      | true =>
        refine .inl ⟨rfl, ?_⟩
        rw [arbitrate, if_neg (not_not.mpr hd)]
        exact if_pos hkeeps
      | false =>
        refine .inr ⟨rfl, [], rest, rfl, fun x hx => (by cases hx), hd, ?_⟩
        rw [arbitrate, if_neg (not_not.mpr hd)]
        exact if_neg (Bool.eq_false_iff.mp hkeeps)
    · have howner : owner (d :: rest) published.deviceId = owner rest published.deviceId :=
        List.find?_cons_of_neg (by simpa using hd)
      have harbitrate : arbitrate holds published (d :: rest)
          = (arbitrate holds published rest).map (fun r => (d :: r.1, r.2)) := if_pos hd
      rw [howner, harbitrate]
      rcases ih with ⟨hnone, hrest⟩ | ⟨existing, hexisting, hkept | hreplaced⟩
      · rw [hrest]
        exact .inl ⟨hnone, rfl⟩
      · obtain ⟨hkeeps, hrest⟩ := hkept
        rw [hrest]
        exact .inr ⟨existing, hexisting, .inl ⟨hkeeps, rfl⟩⟩
      · obtain ⟨hkeeps, before, after, rfl, hbefore, hid, hrest⟩ := hreplaced
        rw [hrest]
        exact .inr ⟨existing, hexisting, .inr ⟨hkeeps, d :: before, after, rfl,
          List.forall_mem_cons.mpr ⟨hd, hbefore⟩, hid, rfl⟩⟩

/-- Publishing leaves the owner of every other device alone, and makes the
device the owner of its own id. -/
theorem owner_of_arbitrate (h : arbitrate holds published devices = some (devices', replaced))
    (deviceId : Bytes) :
    owner devices' deviceId
      = if deviceId = published.deviceId then some published else owner devices deviceId := by
  have happend : ∀ xs ys : List Device,
      owner (xs ++ ys) deviceId = (owner xs deviceId).or (owner ys deviceId) :=
    fun xs ys => List.find?_append
  have hhead : ∀ (d : Device) (ds : List Device), owner (d :: ds) deviceId
      = if deviceId = d.deviceId then some d else owner ds deviceId := by
    intro d ds
    split
    · rename_i heq
      exact List.find?_cons_of_pos (decide_eq_true heq.symm)
    · rename_i hne
      exact List.find?_cons_of_neg (by simpa using fun heq : d.deviceId = deviceId => hne heq.symm)
  rcases arbitrate_owner holds published devices with
    ⟨hnone, heq⟩ | ⟨existing, -, ⟨-, heq⟩ | ⟨-, before, after, rfl, hbefore, hid, heq⟩⟩
  · obtain ⟨rfl, -⟩ := Prod.mk.inj (Option.some.inj (heq.symm.trans h))
    rw [happend, hhead]
    split
    · rename_i hself
      rw [hself, hnone]
      rfl
    · exact Option.or_none
  · rw [heq] at h
    cases h
  · obtain ⟨rfl, -⟩ := Prod.mk.inj (Option.some.inj (heq.symm.trans h))
    rw [happend, happend, hhead, hhead, hid]
    split
    · rename_i hself
      have hfree : owner before deviceId = none := by
        rw [hself]
        exact List.find?_eq_none.mpr (fun d hd => by simpa using hbefore d hd)
      rw [hfree]
      rfl
    · rfl

end Arbitrate

/-- `RegistrationResult`. -/
structure RegistrationResult where
  accepted : Bool
  replacedDevice : Option Device
  deriving DecidableEq

/-- The device is one the registry publishes on behalf of the peer. -/
def Authorized (device : Device) (authorization : AuthorizedPeer) : Prop :=
  device.deviceId = authorization.deviceId ∧ device.publicKey = authorization.publicKey
    ∧ device.trustRevision = authorization.revision
    ∧ device.permissions = authorization.permissions ∧ device.state = .authenticated

/-- A device once it is published. -/
def ready (device : Device) : Device := { device with state := .ready }

/-- The registry after a publication, and what that returned. -/
def publish (holds : ℕ → Bool) (devices : List Device) (device : Device)
    (authorization : AuthorizedPeer) : List Device × RegistrationResult :=
  match publishAuthenticatedDevice holds devices device authorization with
  | none => (devices, ⟨false, none⟩)
  | some (devices, replaced) => (devices, ⟨true, replaced⟩)

section Publish

variable {holds : ℕ → Bool} {devices : List Device} {device : Device}
  {authorization : AuthorizedPeer}

/-- The publication of a session that is there, on behalf of its peer, is
decided by the loop. -/
theorem publishAuthenticatedDevice_of_authorized (hheld : holds device.sessionId = true)
    (h : Authorized device authorization) :
    publishAuthenticatedDevice holds devices device authorization
      = arbitrate holds (ready device) devices := by
  obtain ⟨hid, hkey, hrevision, hpermissions, hstate⟩ := h
  exact if_neg (by simp [hheld, hid, hkey, hrevision, hpermissions, hstate])

/-- **What a publication does**, whatever it is on behalf of: it is
rejected and changes nothing, or the loop accepts it. -/
theorem publish_cases (holds : ℕ → Bool) (devices : List Device) (device : Device)
    (authorization : AuthorizedPeer) :
    publish holds devices device authorization = (devices, ⟨false, none⟩)
      ∨ ∃ devices' replaced, arbitrate holds (ready device) devices = some (devices', replaced)
        ∧ publish holds devices device authorization = (devices', ⟨true, replaced⟩) := by
  unfold publish publishAuthenticatedDevice
  split
  · exact .inl rfl
  · rename_i devices' replaced heq
    split at heq
    · cases heq
    · exact .inr ⟨devices', replaced, heq, rfl⟩

/-- The owner of a device after the publication of another is the same. -/
theorem owner_publish_of_ne {deviceId : Bytes} (hne : device.deviceId ≠ deviceId) :
    owner (publish holds devices device authorization).1 deviceId = owner devices deviceId := by
  rcases publish_cases holds devices device authorization with h | ⟨devices', replaced, harb, h⟩
  · rw [h]
  · rw [h]
    exact (owner_of_arbitrate harb deviceId).trans (if_neg (fun e => hne e.symm))

/-- **The publication of a device without an entry** is accepted. -/
theorem publish_of_owner_none (hheld : holds device.sessionId = true)
    (h : Authorized device authorization) (hnone : owner devices device.deviceId = none) :
    (publish holds devices device authorization).2 = ⟨true, none⟩
      ∧ owner (publish holds devices device authorization).1 device.deviceId
        = some (ready device) := by
  rcases arbitrate_owner holds (ready device) devices with ⟨-, harb⟩ | ⟨existing, hexisting, -⟩
  · have hpublish : publish holds devices device authorization
        = (devices ++ [ready device], ⟨true, none⟩) := by
      unfold publish
      rw [publishAuthenticatedDevice_of_authorized hheld h, harb]
    rw [hpublish]
    exact ⟨rfl, (owner_of_arbitrate harb _).trans (if_pos rfl)⟩
  · rw [show owner devices (ready device).deviceId = none from hnone] at hexisting
    cases hexisting

/-- **The publication of a device with an entry**: the incumbent is kept and
nothing changes, or it is replaced and returned. -/
theorem publish_of_owner_some (hheld : holds device.sessionId = true)
    (h : Authorized device authorization) {existing : Device}
    (hsome : owner devices device.deviceId = some existing) :
    (keeps holds existing device = true
        ∧ publish holds devices device authorization = (devices, ⟨false, none⟩))
      ∨ (keeps holds existing device = false
        ∧ (publish holds devices device authorization).2 = ⟨true, some existing⟩
        ∧ owner (publish holds devices device authorization).1 device.deviceId
          = some (ready device)) := by
  unfold publish
  rw [publishAuthenticatedDevice_of_authorized hheld h]
  rcases arbitrate_owner holds (ready device) devices with ⟨hnone, -⟩ | ⟨old, hold, hcases⟩
  · rw [show owner devices (ready device).deviceId = some existing from hsome] at hnone
    cases hnone
  · obtain rfl := Option.some.inj (hsome.symm.trans hold)
    rcases hcases with ⟨hkeeps, harb⟩ | ⟨hkeeps, before, after, -, -, -, harb⟩
    · rw [harb]
      exact .inl ⟨hkeeps, rfl⟩
    · have howner := (owner_of_arbitrate harb device.deviceId).trans (if_pos rfl)
      rw [harb]
      exact .inr ⟨hkeeps, rfl, howner⟩

end Publish

/-! ## Sequences of calls -/

/-- A call of the registry. `holds` is what is true of the sessions at the
moment of the call: which of them are there and not stopping. -/
inductive Call
  | publish (holds : ℕ → Bool) (device : Device) (authorization : AuthorizedPeer)
  | remove (sessionId : ℕ)

/-- The registry after a call, and what the call returned. -/
def call (devices : List Device) : Call → List Device × Option RegistrationResult
  | .publish holds device authorization =>
    ((publish holds devices device authorization).1,
      some (publish holds devices device authorization).2)
  | .remove sessionId => (removeDevice devices sessionId, none)

/-- The registry after calls in order. -/
def calls (devices : List Device) (cs : List Call) : List Device :=
  cs.foldl (fun devices c => (call devices c).1) devices

/-- The device a call publishes, if it is one with a given id. -/
def Call.candidate (deviceId : Bytes) : Call → Option Device
  | .publish _ device _ => if device.deviceId = deviceId then some device else none
  | .remove _ => none

/-- The devices published with an id, in order. -/
def candidates (deviceId : Bytes) (cs : List Call) : List Device :=
  cs.filterMap (Call.candidate deviceId)

/-- **The owner after publications**: the first that is preferred, or the
first of all. -/
def elected (ds : List Device) : Option Device :=
  ((ds.find? Device.preferredConnection).or ds.head?).map ready

/-- The owners of a device that a call displaced, in order: there was an
owner before the call, and it is not the owner behind it. -/
def displaced (deviceId : Bytes) : List Device → List Call → List Device
  | _, [] => []
  | devices, c :: cs =>
    ((owner devices deviceId).filter
        (fun o => decide (owner (call devices c).1 deviceId ≠ some o))).toList
      ++ displaced deviceId (call devices c).1 cs

/-- What the publications of a device returned as `replaced_device`, in
order. -/
def replacements (deviceId : Bytes) : List Device → List Call → List Device
  | _, [] => []
  | devices, c :: cs =>
    (if (c.candidate deviceId).isSome then
        (call devices c).2.bind RegistrationResult.replacedDevice else none).toList
      ++ replacements deviceId (call devices c).1 cs

/-- **Competing sessions of a device**: every publication with its id is on
behalf of its peer, all these sessions are different and are there and not
stopping throughout, and no call removes one of them. Calls about other
devices are free. -/
structure Competing (deviceId : Bytes) (cs : List Call) : Prop where
  authorized : ∀ holds device authorization, .publish holds device authorization ∈ cs →
    device.deviceId = deviceId → Authorized device authorization
  held : ∀ holds device authorization, .publish holds device authorization ∈ cs →
    device.deviceId = deviceId → ∀ d ∈ candidates deviceId cs, holds d.sessionId = true
  distinct : ((candidates deviceId cs).map Device.sessionId).Nodup
  kept : ∀ sessionId, .remove sessionId ∈ cs →
    ∀ d ∈ candidates deviceId cs, d.sessionId ≠ sessionId

section Calls

variable {deviceId : Bytes} {devices : List Device} {cs : List Call} {c : Call}

theorem calls_concat (devices : List Device) (cs : List Call) (c : Call) :
    calls devices (cs ++ [c]) = (call (calls devices cs) c).1 := by
  simp [calls]

theorem candidates_append (deviceId : Bytes) (cs cs' : List Call) :
    candidates deviceId (cs ++ cs') = candidates deviceId cs ++ candidates deviceId cs' :=
  List.filterMap_append

theorem displaced_concat (deviceId : Bytes) (devices : List Device) (cs : List Call) (c : Call) :
    displaced deviceId devices (cs ++ [c]) = displaced deviceId devices cs
      ++ ((owner (calls devices cs) deviceId).filter
        (fun o => decide (owner (calls devices (cs ++ [c])) deviceId ≠ some o))).toList := by
  induction cs generalizing devices with
  | nil =>
    simp only [List.nil_append, displaced, List.append_nil]
    rfl
  | cons b cs ih =>
    rw [List.cons_append, displaced, ih, displaced, List.append_assoc]
    rfl

theorem replacements_concat (deviceId : Bytes) (devices : List Device) (cs : List Call)
    (c : Call) :
    replacements deviceId devices (cs ++ [c]) = replacements deviceId devices cs
      ++ (if (c.candidate deviceId).isSome then
        (call (calls devices cs) c).2.bind RegistrationResult.replacedDevice
        else none).toList := by
  induction cs generalizing devices with
  | nil => simp [replacements, calls]
  | cons b cs ih =>
    rw [List.cons_append, replacements, ih, replacements, List.append_assoc]
    rfl

/-- Competing sessions are competing at every moment before. -/
theorem Competing.of_append {cs' : List Call} (h : Competing deviceId (cs ++ cs')) :
    Competing deviceId cs where
  authorized := fun holds device authorization hmem =>
    h.authorized holds device authorization (List.mem_append_left _ hmem)
  held := fun holds device authorization hmem hid d hd =>
    h.held holds device authorization (List.mem_append_left _ hmem) hid d
      (candidates_append deviceId cs cs' ▸ List.mem_append_left _ hd)
  distinct := by
    have hnodup := h.distinct
    rw [candidates_append, List.map_append] at hnodup
    exact hnodup.of_append_left
  kept := fun sessionId hmem d hd =>
    h.kept sessionId (List.mem_append_left _ hmem) d
      (candidates_append deviceId cs cs' ▸ List.mem_append_left _ hd)

/-- The session that is elected is one of those published, and is preferred
where one of them is. -/
theorem elected_eq_some {ds : List Device} {o : Device} (h : elected ds = some o) :
    (∃ d ∈ ds, o = ready d) ∧ (o.preferredConnection = ds.any Device.preferredConnection) := by
  unfold elected at h
  obtain ⟨d, hd, rfl⟩ := Option.map_eq_some_iff.mp h
  cases hfind : ds.find? Device.preferredConnection with
  | some p =>
    rw [hfind] at hd
    obtain rfl := Option.some.inj hd
    have hp := List.find?_some hfind
    have hmem := List.mem_of_find?_eq_some hfind
    refine ⟨⟨p, hmem, rfl⟩, ?_⟩
    show p.preferredConnection = _
    rw [hp, eq_comm, List.any_eq_true]
    exact ⟨p, hmem, hp⟩
  | none =>
    rw [hfind] at hd
    have hmem : d ∈ ds := List.mem_of_head? hd
    have hnone := List.find?_eq_none.mp hfind
    refine ⟨⟨d, hmem, rfl⟩, ?_⟩
    show d.preferredConnection = _
    rw [Bool.eq_false_iff.mpr (hnone d hmem), eq_comm, List.any_eq_false]
    exact hnone

/-- **One more publication**: the first is elected; after that the election
stands, unless it fell on a session that is not preferred and the new one
is. -/
theorem elected_concat (ds : List Device) (d : Device) :
    elected (ds ++ [d])
      = match elected ds with
        | none => some (ready d)
        | some o => if o.preferredConnection || !d.preferredConnection then some o
          else some (ready d) := by
  cases ho : elected ds with
  | none =>
    have hnil : ds = [] := by
      unfold elected at ho
      rw [Option.map_eq_none_iff, Option.or_eq_none_iff] at ho
      exact List.head?_eq_none_iff.mp ho.2
    subst hnil
    cases hd : d.preferredConnection with
    | true => simp [elected, hd]
    | false => simp [elected, hd]
  | some o =>
    have hpreferred := (elected_eq_some ho).2
    unfold elected at ho ⊢
    rw [List.find?_append]
    cases hfind : ds.find? Device.preferredConnection with
    | some p =>
      have hany : ds.any Device.preferredConnection = true :=
        List.any_eq_true.mpr ⟨p, List.mem_of_find?_eq_some hfind, List.find?_some hfind⟩
      rw [hfind] at ho
      simpa [hpreferred, hany] using ho
    | none =>
      have hany : ds.any Device.preferredConnection = false :=
        List.any_eq_false.mpr (List.find?_eq_none.mp hfind)
      rw [hfind, Option.none_or] at ho
      obtain ⟨x, hx, hxo⟩ := Option.map_eq_some_iff.mp ho
      show _ = if o.preferredConnection || !d.preferredConnection then some o else some (ready d)
      rw [hpreferred, hany]
      cases hd : d.preferredConnection with
      | true => simp [hd]
      | false =>
        have hhead : (ds ++ [d]).head? = some x := by
          rw [List.head?_append, hx]
          rfl
        simp [hd, hhead, hxo]

/-- A call about another device, or a removal of another session, leaves the
owner alone. -/
theorem owner_call_of_no_candidate (hnone : c.candidate deviceId = none)
    (hkept : ∀ sessionId, c = .remove sessionId →
      ∀ o, owner devices deviceId = some o → o.sessionId ≠ sessionId) :
    owner (call devices c).1 deviceId = owner devices deviceId := by
  cases c with
  | publish holds device authorization =>
    refine owner_publish_of_ne (fun hid => ?_)
    simp [Call.candidate, hid] at hnone
  | remove sessionId =>
    show owner (removeDevice devices sessionId) deviceId = _
    cases ho : owner devices deviceId with
    | none =>
      refine List.find?_eq_none.mpr (fun d hd => ?_)
      exact List.find?_eq_none.mp ho d (List.mem_of_mem_filter hd)
    | some o =>
      -- the first entry of the device is kept, and those before it are others'
      obtain ⟨hid, before, after, rfl, hbefore⟩ := List.find?_eq_some_iff_append.mp ho
      have hne := hkept sessionId rfl o ho
      have hhead : ∀ ds : List Device,
          (o :: ds).find? (fun d => decide (d.deviceId = deviceId)) = some o :=
        fun ds => List.find?_cons_of_pos hid
      unfold removeDevice owner
      rw [List.filter_append, List.filter_cons_of_pos (by simpa using hne),
        List.find?_append, hhead]
      have hfree : (before.filter (fun d => decide (d.sessionId ≠ sessionId))).find?
          (fun d => decide (d.deviceId = deviceId)) = none := by
        refine List.find?_eq_none.mpr (fun d hd => ?_)
        simpa using hbefore d (List.mem_of_mem_filter hd)
      rw [hfree]
      rfl

/-- **What one call does** where sessions of a device compete: the owner is
again the one that is elected, and a device is returned as replaced exactly
where the owner changes, and is the owner before. -/
theorem call_competing (h : Competing deviceId (cs ++ [c]))
    (howner : owner devices deviceId = elected (candidates deviceId cs)) :
    owner (call devices c).1 deviceId = elected (candidates deviceId (cs ++ [c]))
      ∧ (if (c.candidate deviceId).isSome then
          (call devices c).2.bind RegistrationResult.replacedDevice else none)
        = (owner devices deviceId).filter
          (fun o => decide (owner (call devices c).1 deviceId ≠ some o)) := by
  have hmem : c ∈ cs ++ [c] := List.mem_append_right _ (List.mem_singleton_self c)
  -- the owner, if there is one, is a competing session
  have hcompeting : ∀ o, owner devices deviceId = some o →
      ∃ d ∈ candidates deviceId cs, o = ready d :=
    fun o ho => (elected_eq_some (howner.symm.trans ho)).1
  have hold : ∀ d ∈ candidates deviceId cs, d ∈ candidates deviceId (cs ++ [c]) :=
    fun d hd => candidates_append deviceId cs [c] ▸ List.mem_append_left _ hd
  cases hcand : c.candidate deviceId with
  | none =>
    have hsame : owner (call devices c).1 deviceId = owner devices deviceId := by
      refine owner_call_of_no_candidate hcand (fun sessionId hc o ho => ?_)
      obtain ⟨d, hd, rfl⟩ := hcompeting o ho
      exact h.kept sessionId (hc ▸ hmem) d (hold d hd)
    refine ⟨?_, ?_⟩
    · rw [hsame, howner, candidates_append]
      simp [candidates, hcand]
    · rw [hsame]
      cases owner devices deviceId with
      | none => rfl
      | some o => exact (Option.filter_some_neg (by simp)).symm
  | some device =>
    cases c with
    | remove sessionId => cases hcand
    | publish holds pub authorization =>
      have hpub : pub = device ∧ device.deviceId = deviceId := by
        simp only [Call.candidate] at hcand
        split at hcand
        · obtain rfl := Option.some.inj hcand
          exact ⟨rfl, ‹_›⟩
        · cases hcand
      obtain ⟨rfl, rfl⟩ := hpub
      have hcands : candidates pub.deviceId (cs ++ [.publish holds pub authorization])
          = candidates pub.deviceId cs ++ [pub] := by
        rw [candidates_append]
        simp [candidates, hcand]
      have hheld := h.held holds pub authorization hmem rfl
      have hself : holds pub.sessionId = true := hheld pub (by rw [hcands]; simp)
      have hauthorized := h.authorized holds pub authorization hmem rfl
      rw [hcands, elected_concat, ← howner]
      show owner (publish holds devices pub authorization).1 pub.deviceId = _
        ∧ (publish holds devices pub authorization).2.replacedDevice = _
      cases ho : owner devices pub.deviceId with
      | none =>
        obtain ⟨hresult, hnew⟩ := publish_of_owner_none hself hauthorized ho
        rw [hresult]
        exact ⟨hnew, rfl⟩
      | some o =>
        obtain ⟨d, hd, hod⟩ := hcompeting o ho
        have hoheld : holds o.sessionId = true := by
          rw [hod]
          exact hheld d (hold d hd)
        have hkeepsEq : keeps holds o pub
            = (o.preferredConnection || !pub.preferredConnection) := by
          rw [keeps, hoheld, Bool.true_and]
        show _ = (if o.preferredConnection || !pub.preferredConnection then some o
            else some (ready pub))
          ∧ _ = Option.filter (fun x => decide (owner (publish holds devices pub authorization).1
            pub.deviceId ≠ some x)) (some o)
        rcases publish_of_owner_some hself hauthorized ho with
          ⟨hkeeps, hresult⟩ | ⟨hkeeps, hresult, hnew⟩
        · rw [hresult, ← hkeepsEq, hkeeps]
          exact ⟨ho, (Option.filter_some_neg (by simpa using ho)).symm⟩
        · -- the session is a new one, so the owner has changed
          have hne : pub.sessionId ≠ d.sessionId := by
            intro heq
            have hdistinct := h.distinct
            rw [hcands, List.map_append, List.nodup_append] at hdistinct
            exact hdistinct.2.2 _ (List.mem_map_of_mem hd) _ (List.mem_singleton_self _) heq.symm
          have hchanged : ready pub ≠ o := by
            intro heq
            refine hne ?_
            have := congrArg Device.sessionId (heq.trans hod)
            exact this
          rw [hresult, hnew, ← hkeepsEq, hkeeps]
          refine ⟨rfl, ?_⟩
          rw [Option.filter_some_pos (by simpa using hchanged)]

/-- **The owner of a device** after any calls between which its sessions
compete. -/
theorem owner_calls (hnone : owner devices deviceId = none) (h : Competing deviceId cs) :
    owner (calls devices cs) deviceId = elected (candidates deviceId cs) := by
  induction cs using List.reverseRecOn with
  | nil => exact hnone
  | append_singleton cs c ih =>
    rw [calls_concat]
    exact (call_competing h (ih h.of_append)).1

/-- **What is returned as replaced is what was displaced.** -/
theorem replacements_eq_displaced (hnone : owner devices deviceId = none)
    (h : Competing deviceId cs) :
    replacements deviceId devices cs = displaced deviceId devices cs := by
  induction cs using List.reverseRecOn with
  | nil => rfl
  | append_singleton cs c ih =>
    rw [replacements_concat, displaced_concat, ih h.of_append, calls_concat,
      (call_competing h (owner_calls hnone h.of_append)).2]

/-- An owner that is displaced was not preferred, and the new one is. -/
theorem elected_changes {ds : List Device} {d o : Device} (ho : elected ds = some o)
    (hne : elected (ds ++ [d]) ≠ some o) :
    o.preferredConnection = false ∧ d.preferredConnection = true
      ∧ elected (ds ++ [d]) = some (ready d) := by
  rw [elected_concat, ho] at hne ⊢
  cases hop : o.preferredConnection with
  | true => simp [hop] at hne
  | false =>
    cases hd : d.preferredConnection with
    | true => simp [hop]
    | false => simp [hop, hd] at hne

/-- **Ownership changes hands at most once**, and then the owner is
preferred. -/
theorem displaced_le_one (hnone : owner devices deviceId = none) (h : Competing deviceId cs) :
    (displaced deviceId devices cs).length ≤ 1
      ∧ (displaced deviceId devices cs ≠ [] →
        ∃ o, elected (candidates deviceId cs) = some o ∧ o.preferredConnection = true) := by
  induction cs using List.reverseRecOn with
  | nil => exact ⟨Nat.zero_le 1, fun hne => absurd rfl hne⟩
  | append_singleton cs c ih =>
    obtain ⟨hlength, hpreferred⟩ := ih h.of_append
    rw [displaced_concat, owner_calls hnone h, owner_calls hnone h.of_append, candidates_append]
    -- the owner before and the owner behind the call
    cases ho : elected (candidates deviceId cs) with
    | none =>
      have hempty : displaced deviceId devices cs = [] := by
        by_contra hne
        obtain ⟨o, ho', -⟩ := hpreferred hne
        rw [ho] at ho'
        cases ho'
      rw [hempty]
      exact ⟨Nat.zero_le 1, fun hne => absurd rfl hne⟩
    | some o =>
      by_cases hsame : elected (candidates deviceId cs ++ candidates deviceId [c]) = some o
      · rw [Option.filter_some_neg (by simpa using hsame), hsame]
        rw [Option.toList_none, List.append_nil]
        refine ⟨hlength, fun hne => ?_⟩
        obtain ⟨o', ho', hpref⟩ := hpreferred hne
        rw [ho] at ho'
        exact ⟨o', ho', hpref⟩
      · have hone : ∃ d, candidates deviceId [c] = [d] := by
          cases hc : c.candidate deviceId with
          | none =>
            have hnil : candidates deviceId [c] = [] := by simp [candidates, hc]
            rw [hnil, List.append_nil] at hsame
            exact absurd ho hsame
          | some d => exact ⟨d, by simp [candidates, hc]⟩
        obtain ⟨d, hd⟩ := hone
        rw [hd] at hsame ⊢
        obtain ⟨hop, hdp, hnew⟩ := elected_changes ho hsame
        have hempty : displaced deviceId devices cs = [] := by
          by_contra hne
          obtain ⟨o', ho', hpref⟩ := hpreferred hne
          rw [ho] at ho'
          obtain rfl := Option.some.inj ho'
          rw [hop] at hpref
          cases hpref
        rw [hempty, hnew, Option.filter_some_pos (by rw [← hnew]; simpa using hsame)]
        exact ⟨le_rfl, fun _ => ⟨ready d, rfl, hdp⟩⟩

/-- **Arbitration does not depend on the order of arrival beyond the
direction.** Of sessions of one device that compete, in any order and
between any other calls, the first preferred one owns the device in the end,
or the first of all if none is preferred; ownership changes hands at most
once, and `replaced_device` is returned for that change and is the displaced
owner. In any registry a held owner is displaced only if it is not preferred
and the candidate is, an owner that is gone or stopping always is, and a
candidate that is rejected changes nothing. -/
theorem arbitration_order :
    (∀ deviceId devices cs, owner devices deviceId = none → Competing deviceId cs →
      owner (calls devices cs) deviceId = elected (candidates deviceId cs)
        ∧ (displaced deviceId devices cs).length ≤ 1
        ∧ replacements deviceId devices cs = displaced deviceId devices cs)
      ∧ ∀ holds devices device authorization,
        (∀ o, owner devices device.deviceId = some o → holds o.sessionId = true →
          owner (publish holds devices device authorization).1 device.deviceId ≠ some o →
          o.preferredConnection = false ∧ device.preferredConnection = true)
        ∧ (∀ o, owner devices device.deviceId = some o → holds o.sessionId = false →
          holds device.sessionId = true → Authorized device authorization →
          (publish holds devices device authorization).2 = ⟨true, some o⟩
            ∧ owner (publish holds devices device authorization).1 device.deviceId
              = some (ready device))
        ∧ ((publish holds devices device authorization).2.accepted = false →
          (publish holds devices device authorization).1 = devices) := by
  refine ⟨fun deviceId devices cs hnone h => ⟨owner_calls hnone h, (displaced_le_one hnone h).1,
    replacements_eq_displaced hnone h⟩, fun holds devices device authorization => ⟨?_, ?_, ?_⟩⟩
  · intro o ho hheld hchanged
    rcases publish_cases holds devices device authorization with hp | ⟨devices', replaced, harb, hp⟩
    · rw [hp] at hchanged
      exact absurd ho hchanged
    · rcases arbitrate_owner holds (ready device) devices with
        ⟨hnone, -⟩ | ⟨existing, hexisting, ⟨-, hnone⟩ | ⟨hkeeps, -⟩⟩
      · rw [show owner devices (ready device).deviceId = some o from ho] at hnone
        cases hnone
      · rw [hnone] at harb
        cases harb
      · obtain rfl := Option.some.inj (ho.symm.trans hexisting)
        rw [keeps, hheld, Bool.true_and, Bool.or_eq_false_iff, Bool.not_eq_false'] at hkeeps
        exact hkeeps
  · intro o ho hgone hheld hauthorized
    rcases publish_of_owner_some hheld hauthorized ho with ⟨hkeeps, -⟩ | ⟨-, hresult, hnew⟩
    · rw [keeps, hgone] at hkeeps
      cases hkeeps
    · exact ⟨hresult, hnew⟩
  · intro hrejected
    rcases publish_cases holds devices device authorization with hp | ⟨devices', replaced, -, hp⟩
    · rw [hp]
    · rw [hp] at hrejected
      cases hrejected

end Calls

/-- A peer and its devices, for the run below. -/
def competitor (fill : UInt8) : AuthorizedPeer where
  uuid := List.Vector.replicate 16 fill
  publicKey := List.Vector.replicate 32 fill
  deviceId := trustUuidToString (List.Vector.replicate 16 fill)
  revision := 1
  permissions := []
  named := rfl

@[inherit_doc competitor]
def competitorCall (fill : UInt8) (sessionId : ℕ) (preferred : Bool) : Call :=
  .publish (fun _ => true)
    { deviceId := (competitor fill).deviceId
      deviceName := []
      deviceType := []
      sessionId := sessionId
      preferredConnection := preferred
      state := .authenticated
      publicKey := (competitor fill).publicKey
      trustRevision := 1
      permissions := [] }
    (competitor fill)

/-- Three sessions of one device, of which the second and the third are
preferred, and one of another device in between. -/
theorem arbitration_order_three :
    (owner (calls [] [competitorCall 1 1 false, competitorCall 2 2 true, competitorCall 1 3 true,
      .remove 2, competitorCall 1 4 true]) (competitor 1).deviceId).map Device.sessionId = some 3
      ∧ Competing (competitor 1).deviceId [competitorCall 1 1 false, competitorCall 2 2 true,
        competitorCall 1 3 true, .remove 2, competitorCall 1 4 true] := by
  have hcompeting : Competing (competitor 1).deviceId [competitorCall 1 1 false,
      competitorCall 2 2 true, competitorCall 1 3 true, .remove 2, competitorCall 1 4 true] := by
    refine ⟨?_, ?_, by decide +kernel, ?_⟩
    · intro holds device authorization hmem hid
      simp only [competitorCall, List.mem_cons, Call.publish.injEq, reduceCtorEq,
        List.not_mem_nil, or_false, false_or] at hmem
      rcases hmem with ⟨-, rfl, rfl⟩ | ⟨-, rfl, rfl⟩ | ⟨-, rfl, rfl⟩ | ⟨-, rfl, rfl⟩
      all_goals exact ⟨rfl, rfl, rfl, rfl, rfl⟩
    · intro holds device authorization hmem hid d hd
      simp only [competitorCall, List.mem_cons, Call.publish.injEq, reduceCtorEq,
        List.not_mem_nil, or_false, false_or] at hmem
      rcases hmem with ⟨rfl, -⟩ | ⟨rfl, -⟩ | ⟨rfl, -⟩ | ⟨rfl, -⟩
      all_goals rfl
    · intro sessionId hmem
      simp only [competitorCall, List.mem_cons, Call.remove.injEq, reduceCtorEq,
        List.not_mem_nil, or_false, false_or] at hmem
      subst hmem
      decide +kernel
  refine ⟨?_, hcompeting⟩
  rw [(arbitration_order.1 _ _ _ rfl hcompeting).1]
  decide +kernel

end DeviceRegistry

end Gasoline
