import Gasoline.IdentityFormats

/-!
# Rules for the identity program

Every process that calls `load_or_create` relies on the lock: while it holds
it, nobody else changes the files, although others may still sync the
directory, which they do before they ask for the lock. What it guarantees in
turn is an invariant of the directory and of the identities returned so far,
which is left open here (`Storage.actor`).

Under these terms each function of the program has its specification. While
a process holds the lock it knows the files, up to what has become durable
in the meantime (`Storage.At`).
-/

namespace Gasoline

namespace Storage

/-- What is to hold of the directory and of the identities returned, at all
times. -/
abbrev Invariant := Volume IdentityFile → List DeviceIdentity → Prop

/-- What becomes durable does not break the invariant. -/
def Invariant.Settled (inv : Invariant) : Prop :=
  ∀ v w returned, v.Settles w → inv v returned → inv w returned

/-- **A process**: it relies on the invariant, and on the files once it holds
the lock; it keeps the invariant, and the files while it does not. -/
def actor (inv : Invariant) (process : ℕ) : Actor Storage IdentityCall IdentityReply where
  step := step process
  Rely s t := (inv s.volume s.returned → inv t.volume t.returned)
    ∧ (s.holder = some process →
      t.holder = some process ∧ s.volume.Settles t.volume ∧ t.returned = s.returned)
    ∧ (s.holder ≠ some process → t.holder ≠ some process)
  Guarantee s t := (inv s.volume s.returned → inv t.volume t.returned)
    ∧ t.returned = s.returned
    ∧ ((s.holder = some process ∧ t.holder = some process)
      ∨ (s.volume.Settles t.volume
        ∧ (t.holder = s.holder ∨ (s.holder = none ∧ t.holder = some process))))
  rely_refl s := ⟨id, fun h => ⟨h, .refl _, rfl⟩, id⟩
  rely_trans := fun {s t u} h₁ h₂ => by
    refine ⟨h₂.1 ∘ h₁.1, fun h => ?_, fun h => h₂.2.2 (h₁.2.2 h)⟩
    obtain ⟨ht, hst, hrt⟩ := h₁.2.1 h
    obtain ⟨hu, htu, hru⟩ := h₂.2.1 ht
    exact ⟨hu, hst.trans htu, hru.trans hrt⟩

/-- The process does not hold the lock. -/
def Outside (inv : Invariant) (process : ℕ) (s : Storage) : Prop :=
  inv s.volume s.returned ∧ s.holder ≠ some process

/-- **The process holds the lock**, and the files are those of `v`. -/
def At (process : ℕ) (v : Volume IdentityFile) (returned : List DeviceIdentity)
    (s : Storage) : Prop :=
  s.holder = some process ∧ v.Settles s.volume ∧ s.returned = returned

/-- Calls that change nothing, whatever they reply. -/
def Idle (c : IdentityCall) : Prop :=
  ∀ process s r t, step process s c r = some t → t = s

section Rules

variable {inv : Invariant} {process : ℕ} {v : Volume IdentityFile}
  {returned : List DeviceIdentity}

/-- Not to hold the lock outlasts what others do. -/
theorem stable_outside : (actor inv process).Stable (Outside inv process) :=
  fun _ _ hs hrely => ⟨hrely.1 hs.1, hrely.2.2 hs.2⟩

/-- Holding the lock outlasts what others do. -/
theorem stable_at : (actor inv process).Stable (At process v returned) := by
  rintro s t ⟨hholder, hsettles, hreturned⟩ hrely
  obtain ⟨ht, hst, hrt⟩ := hrely.2.1 hholder
  exact ⟨ht, hsettles.trans hst, hrt.trans hreturned⟩

/-- A step that changes nothing keeps every guarantee. -/
theorem guarantee_refl (s : Storage) : (actor inv process).Guarantee s s :=
  ⟨id, rfl, .inr ⟨.refl _, .inl rfl⟩⟩

/-- **A call that changes nothing**, with what its reply says of the
files. -/
theorem call_idle {α : Type} {c : IdentityCall} {next : IdentityReply → IdentityProg α}
    {Q : α → Storage → Prop} (hidle : Idle c)
    (hnext : ∀ r, (∃ s, At process v returned s ∧ step process s c r = some s) →
      (actor inv process).Triple (At process v returned) (next r) Q) :
    (actor inv process).Triple (At process v returned) (.call c next) Q := by
  refine .call (M := fun r s => At process v returned s ∧ step process s c r = some s) stable_at
    (fun s r t hs hstep => ?_) (fun r s hs => hnext r ⟨s, hs⟩ s hs.1)
  obtain rfl := hidle process s r t hstep
  exact ⟨guarantee_refl _, hs, hstep⟩

/-- A call that changes nothing, and must succeed. -/
theorem perform_idle {c : IdentityCall} {message : String} (hidle : Idle c) :
    (actor inv process).Triple (At process v returned) (perform c message)
      (fun _ => At process v returned) := by
  refine call_idle hidle (fun r _ => ?_)
  split
  · exact .done stable_at (fun _ hs => hs)
  · exact .failed

/-- A call that changes nothing, by a process that does not hold the
lock. -/
theorem perform_outside {c : IdentityCall} {message : String} (hidle : Idle c) :
    (actor inv process).Triple (Outside inv process) (perform c message)
      (fun _ => Outside inv process) := by
  refine .call (M := fun _ => Outside inv process) stable_outside (fun s r t hs hstep => ?_)
    (fun r => ?_)
  · obtain rfl := hidle process s r t hstep
    exact ⟨guarantee_refl _, hs⟩
  · split
    · exact .done stable_outside (fun _ hs => hs)
    · exact .failed

/-- **A call that changes the files**, by the process that holds the lock:
what it does to the files it knows is what it does to the files there
are. -/
theorem perform_volume (op : Volume IdentityFile → Volume IdentityFile) {c : IdentityCall}
    {message : String} (hsettled : inv.Settled)
    (hstep : ∀ s r t, step process s c r = some t →
      (r = .error ∧ t = s) ∨ (r = .ok ∧ t = s.onVolume (op s.volume)))
    (hop : ∀ {w}, v.Settles w → (op v).Settles (op w)) (hinv : inv (op v) returned) :
    (actor inv process).Triple (At process v returned) (perform c message)
      (fun _ => At process (op v) returned) := by
  refine .call (M := fun r s => r = .ok → At process (op v) returned s) stable_at
    (fun s r t hs ht => ?_) (fun r => ?_)
  · obtain ⟨hholder, hsettles, hreturned⟩ := hs
    rcases hstep s r t ht with ⟨rfl, rfl⟩ | ⟨-, rfl⟩
    · exact ⟨guarantee_refl _, fun hr => by cases hr⟩
    · refine ⟨⟨fun _ => ?_, rfl, .inl ⟨hholder, hholder⟩⟩,
        fun _ => ⟨hholder, hop hsettles, hreturned⟩⟩
      show inv (op s.volume) s.returned
      rw [hreturned]
      exact hsettled _ _ _ (hop hsettles) hinv
  · split
    · rename_i hr
      exact (Actor.Triple.done stable_at (fun _ hs => hs)).weaken (fun _ hs => hs hr)
    · exact .failed

end Rules

/-! ## What the calls do -/

/-- The calls that change neither the files nor the lock. -/
def isIdle : IdentityCall → Bool
  | .syncDirectory => false
  | .lock => false
  | .openExclusive _ => false
  | .write _ _ => false
  | .syncFile _ => false
  | .rename _ _ => false
  | _ => true

theorem idle_of_isIdle {c : IdentityCall} (h : isIdle c = true) : Idle c := by
  intro process s r t ht
  -- a reply that the call does not give, or one that leaves the state as it was
  have hkept : ∀ {p : Prop} [Decidable p], (if p then some s else none) = some t → t = s := by
    intro p _ hif
    split at hif
    · exact (Option.some.inj hif).symm
    · cases hif
  cases c <;> first
    | exact absurd h Bool.false_ne_true
    | (cases r <;> first | exact (Option.some.inj ht).symm | exact hkept ht | cases ht)

/-- A call that changes the files, or fails. -/
theorem step_syncFile (process handle : ℕ) (s : Storage) (r : IdentityReply) (t : Storage)
    (h : step process s (.syncFile handle) r = some t) :
    (r = .error ∧ t = s) ∨ (r = .ok ∧ t = s.onVolume (s.volume.syncFile handle)) := by
  cases r with
  | error => exact .inl ⟨rfl, (Option.some.inj h).symm⟩
  | ok => exact .inr ⟨rfl, (Option.some.inj h).symm⟩
  | _ => cases h

@[inherit_doc step_syncFile]
theorem step_rename (process : ℕ) (source target : IdentityFile) (s : Storage)
    (r : IdentityReply) (t : Storage) (h : step process s (.rename source target) r = some t) :
    (r = .error ∧ t = s) ∨ (r = .ok ∧ t = s.onVolume (s.volume.rename source target)) := by
  cases r with
  | error => exact .inl ⟨rfl, (Option.some.inj h).symm⟩
  | ok => exact .inr ⟨rfl, (Option.some.inj h).symm⟩
  | _ => cases h

@[inherit_doc step_syncFile]
theorem step_syncDirectory (process : ℕ) (s : Storage) (r : IdentityReply) (t : Storage)
    (h : step process s .syncDirectory r = some t) :
    (r = .error ∧ t = s) ∨ (r = .ok ∧ t = s.onVolume s.volume.syncDirectory) := by
  cases r with
  | error => exact .inl ⟨rfl, (Option.some.inj h).symm⟩
  | ok => exact .inr ⟨rfl, (Option.some.inj h).symm⟩
  | _ => cases h

/-- A write may be short. -/
theorem step_write (process handle : ℕ) (bytes : Bytes) (s : Storage) (r : IdentityReply)
    (t : Storage) (h : step process s (.write handle bytes) r = some t) :
    (r = .error ∧ t = s) ∨ ∃ n, r = .count n ∧ n ≤ bytes.length
      ∧ t = s.onVolume (s.volume.append handle (bytes.take n)) := by
  cases r with
  | error => exact .inl ⟨rfl, (Option.some.inj h).symm⟩
  | count n =>
    change (if n ≤ bytes.length then some _ else none) = some t at h
    split at h
    · rename_i hn
      exact .inr ⟨n, rfl, hn, (Option.some.inj h).symm⟩
    · cases h
  | _ => cases h

theorem step_openExclusive (process : ℕ) (file : IdentityFile) (s : Storage)
    (r : IdentityReply) (t : Storage) (h : step process s (.openExclusive file) r = some t) :
    (r = .error ∧ t = s) ∨ (r = .handle s.volume.next ∧ s.volume.entry file = none
      ∧ t = s.onVolume (s.volume.create file)) := by
  cases r with
  | error => exact .inl ⟨rfl, (Option.some.inj h).symm⟩
  | handle handle =>
    change (if s.volume.entry file = none ∧ handle = s.volume.next then some _ else none)
      = some t at h
    split at h
    · rename_i hnew
      obtain ⟨hnone, rfl⟩ := hnew
      exact .inr ⟨rfl, hnone, (Option.some.inj h).symm⟩
    · cases h
  | _ => cases h

/-- The lock is taken where nobody holds it. -/
theorem step_lock (process : ℕ) (s : Storage) (r : IdentityReply) (t : Storage)
    (h : step process s .lock r = some t) :
    (r = .error ∧ t = s)
      ∨ (r = .ok ∧ s.holder = none ∧ t = { s with holder := some process }) := by
  cases r with
  | error => exact .inl ⟨rfl, (Option.some.inj h).symm⟩
  | ok =>
    change (if s.holder = none then some _ else none) = some t at h
    split at h
    · rename_i hnone
      exact .inr ⟨rfl, hnone, (Option.some.inj h).symm⟩
    · cases h
  | _ => cases h

/-! ## What the functions do -/

section Functions

variable {inv : Invariant} {process : ℕ} {v : Volume IdentityFile}
  {returned : List DeviceIdentity}

/-- `entry_exists` says whether the file exists. -/
theorem entryExists_triple (file : IdentityFile) :
    (actor inv process).Triple (At process v returned) (entryExists file)
      (fun found s => At process v returned s ∧ found = (v.entry file).isSome) := by
  refine call_idle (idle_of_isIdle rfl) (fun r hr => ?_)
  split
  · rename_i found
    obtain ⟨s, hs, hstep⟩ := hr
    have hfound : found = (v.entry file).isSome := by
      rw [← hs.2.1.entry]
      change (if found = (s.volume.entry file).isSome then some s else none) = some s at hstep
      split at hstep
      · assumption
      · cases hstep
    exact .done stable_at (fun _ hs => ⟨hs, hfound⟩)
  · exact .failed

/-- `open_private_file` opens the file there is. -/
theorem openExisting_triple (file : IdentityFile) :
    (actor inv process).Triple (At process v returned) (openPrivateFile (.openExisting file))
      (fun handle s => At process v returned s ∧ v.entry file = some handle) := by
  refine call_idle (idle_of_isIdle rfl) (fun r hr => ?_)
  split
  · rename_i handle
    obtain ⟨s, hs, hstep⟩ := hr
    have hentry : v.entry file = some handle := by
      rw [← hs.2.1.entry]
      change (if s.volume.entry file = some handle then some s else none) = some s at hstep
      split at hstep
      · assumption
      · cases hstep
    refine .bind (perform_idle (idle_of_isIdle rfl)) (fun _ => ?_)
    exact .done stable_at (fun _ hs => ⟨hs, hentry⟩)
  · exact .failed

theorem step_read {handle offset capacity : ℕ} {bytes : Bytes} {s : Storage}
    (h : step process s (.read handle offset capacity) (.data bytes) = some s) :
    bytes <+: (s.volume.content handle).drop offset ∧ bytes.length ≤ capacity
      ∧ (bytes = [] → (s.volume.content handle).length ≤ offset) := by
  change (if bytes.isPrefixOf ((s.volume.content handle).drop offset) ∧ bytes.length ≤ capacity
    ∧ (bytes = [] → (s.volume.content handle).drop offset = []) then some s else none) = some s at h
  split at h
  · rename_i hread
    rw [List.isPrefixOf_iff_prefix, List.drop_eq_nil_iff] at hread
    exact hread
  · cases h

/-- The loops of `read_file` return the whole file, if it fits. -/
theorem readLoop_triple {handle capacity : ℕ} (room : ℕ) (contents : Bytes)
    (hread : contents <+: v.content handle) (hroom : contents.length + room = capacity) :
    (actor inv process).Triple (At process v returned) (readLoop handle room contents)
      (fun bytes s => At process v returned s
        ∧ bytes = v.content handle ∧ bytes.length ≤ capacity) := by
  -- on the room left in the buffer; every read that returns bytes uses some of it
  induction room using Nat.strong_induction_on generalizing contents with
  | _ room ih =>
    have hend : ∀ s, At process v returned s → (s.volume.content handle).length ≤ contents.length →
        contents = v.content handle ∧ contents.length ≤ capacity := by
      intro s hs hle
      rw [hs.2.1.content] at hle
      exact ⟨hread.eq_of_length_le hle, by omega⟩
    cases room with
    | zero =>
      rw [readLoop]
      refine call_idle (idle_of_isIdle rfl) (fun r hr => ?_)
      split
      · obtain ⟨s, hs, hstep⟩ := hr
        have hdone := hend s hs ((step_read hstep).2.2 rfl)
        exact .done stable_at (fun _ hs => ⟨hs, hdone⟩)
      · exact .failed
    | succ room =>
      rw [readLoop]
      refine call_idle (idle_of_isIdle rfl) (fun r hr => ?_)
      split
      · obtain ⟨s, hs, hstep⟩ := hr
        have hdone := hend s hs ((step_read hstep).2.2 rfl)
        exact .done stable_at (fun _ hs => ⟨hs, hdone⟩)
      · rename_i b bytes
        obtain ⟨s, hs, hstep⟩ := hr
        obtain ⟨hpre, hlength, -⟩ := step_read hstep
        rw [hs.2.1.content] at hpre
        rw [List.length_cons] at hlength
        refine ih (room - bytes.length) (by omega) (contents ++ b :: bytes) ?_ ?_
        · obtain ⟨rest, hrest⟩ := hread
          rw [← hrest, List.drop_left] at hpre
          rw [← hrest]
          exact (List.prefix_append_right_inj contents).mpr hpre
        · rw [List.length_append, List.length_cons]
          omega
      · exact .failed

/-- **`read_file` returns the file**, and fails where it does not fit. -/
theorem readFile_triple {file : IdentityFile} {handle : ℕ} (hentry : v.entry file = some handle)
    (capacity : ℕ) :
    (actor inv process).Triple (At process v returned) (readFile file capacity)
      (fun bytes s => At process v returned s
        ∧ bytes = v.content handle ∧ bytes.length ≤ capacity) := by
  refine .bind (openExisting_triple file) (fun opened s hs => ?_)
  obtain ⟨hat, hopened⟩ := hs
  obtain rfl := Option.some.inj (hentry.symm.trans hopened)
  exact readLoop_triple capacity [] (List.nil_prefix) (by simp) s hat

/-- What an `atomic_write` from `v` must keep: the invariant holds of every
state it passes through. -/
structure Writable (inv : Invariant) (v : Volume IdentityFile) (returned : List DeviceIdentity)
    (file : IdentityFile) (data : Bytes) : Prop where
  write : ∀ bytes, inv ((v.create file.temporary).append v.next bytes) returned
  sync : inv (((v.create file.temporary).append v.next data).syncFile v.next) returned
  rename : inv (v.written file.temporary file data) returned

/-- The files after an `atomic_write`. -/
def afterWrite (v : Volume IdentityFile) (file : IdentityFile) (data : Bytes) :
    Volume IdentityFile :=
  (v.written file.temporary file data).syncDirectory

/-- The file that was written stands under its name. -/
theorem afterWrite_entry {file : IdentityFile} {data : Bytes} (h : file ≠ file.temporary) :
    (afterWrite v file data).entry file = some v.next :=
  Volume.written_entry_target h

section Write

variable (hsettled : inv.Settled)

include hsettled

/-- The loop of `atomic_write` appends the bytes. -/
theorem writeLoop_triple {handle : ℕ} (data done : Bytes)
    (hinv : ∀ bytes, inv (v.append handle bytes) returned) :
    (actor inv process).Triple (At process (v.append handle done) returned)
      (writeLoop handle data) (fun _ => At process (v.append handle (done ++ data)) returned) := by
  -- on the bytes still to be written
  induction hlength : data.length using Nat.strong_induction_on generalizing data done with
  | _ n ih =>
    cases data with
    | nil =>
      rw [writeLoop, List.append_nil]
      exact .done stable_at (fun _ hs => hs)
    | cons b rest =>
      rw [writeLoop]
      refine .call (M := fun r s => ∀ n, r = .count n →
        At process (v.append handle (done ++ (b :: rest).take n)) returned s) stable_at
        (fun s r t hs hstep => ?_) (fun r => ?_)
      · obtain ⟨hholder, hsettles, hreturned⟩ := hs
        rcases step_write _ _ _ _ _ _ hstep with ⟨rfl, rfl⟩ | ⟨n, rfl, -, rfl⟩
        · exact ⟨guarantee_refl _, fun n hn => by cases hn⟩
        · have happend := hsettles.append handle ((b :: rest).take n)
          rw [Volume.append_append] at happend
          refine ⟨⟨fun _ => ?_, rfl, .inl ⟨hholder, hholder⟩⟩, fun m hm => ?_⟩
          · show inv (s.volume.append handle _) s.returned
            rw [hreturned]
            exact hsettled _ _ _ happend (hinv _)
          · obtain rfl := IdentityReply.count.inj hm
            exact ⟨hholder, happend, hreturned⟩
      · split
        · rename_i n
          have hrest := ih (rest.drop n).length (by rw [← hlength]; simp) (rest.drop n)
            (done ++ b :: rest.take n) rfl
          rw [List.append_assoc, List.cons_append, List.take_append_drop] at hrest
          exact hrest.weaken (fun s hs => by simpa using hs (n + 1) rfl)
        · exact .failed

/-- `open_private_file` creates the temporary file. -/
theorem openExclusive_triple (file : IdentityFile) (hinv : inv (v.create file) returned) :
    (actor inv process).Triple (At process v returned) (openPrivateFile (.openExclusive file))
      (fun handle s => At process (v.create file) returned s ∧ handle = v.next) := by
  refine .call (M := fun r s => ∀ handle, r = .handle handle →
    At process (v.create file) returned s ∧ handle = v.next) stable_at
    (fun s r t hs hstep => ?_) (fun r => ?_)
  · obtain ⟨hholder, hsettles, hreturned⟩ := hs
    rcases step_openExclusive _ _ _ _ _ hstep with ⟨rfl, rfl⟩ | ⟨rfl, -, rfl⟩
    · exact ⟨guarantee_refl _, fun _ h => by cases h⟩
    · refine ⟨⟨fun _ => ?_, rfl, .inl ⟨hholder, hholder⟩⟩, fun handle hhandle => ?_⟩
      · show inv (s.volume.create file) s.returned
        rw [hreturned]
        exact hsettled _ _ _ (hsettles.create file) hinv
      · obtain rfl := IdentityReply.handle.inj hhandle
        exact ⟨⟨hholder, hsettles.create file, hreturned⟩, hsettles.next⟩
  · split
    · rename_i handle
      intro s hs
      obtain ⟨hat, hnext⟩ := hs handle rfl
      refine Actor.Triple.bind (perform_idle (idle_of_isIdle rfl)) (fun _ => ?_) s hat
      exact .done stable_at (fun _ hs => ⟨hs, hnext⟩)
    · exact .failed

/-- **`atomic_write` writes the file and gives it its name**, or fails. -/
theorem atomicWrite_triple {file : IdentityFile} {data : Bytes}
    (hwritable : Writable inv v returned file data) :
    (actor inv process).Triple (At process v returned) (atomicWrite file data)
      (fun _ => At process (afterWrite v file data) returned) := by
  obtain ⟨hwrite, hsync, hrename⟩ := hwritable
  have hcreate : inv (v.create file.temporary) returned := by
    have := hwrite []
    rwa [Volume.create_append_nil] at this
  refine .bind (openExclusive_triple hsettled _ hcreate) (fun handle s hs => ?_)
  obtain ⟨hat, rfl⟩ := hs
  have hloop : (actor inv process).Triple (At process (v.create file.temporary) returned)
      (writeLoop v.next data)
      (fun _ => At process ((v.create file.temporary).append v.next data) returned) := by
    have h : (actor inv process).Triple _ (writeLoop v.next data) _ :=
      writeLoop_triple hsettled data [] hwrite
    rwa [Volume.create_append_nil, List.nil_append] at h
  refine hloop.bind (fun _ => ?_) s hat
  refine .bind (perform_volume (·.syncFile v.next) hsettled (step_syncFile process v.next)
    (fun h => h.syncFile v.next) hsync) (fun _ => ?_)
  refine .bind (perform_idle (idle_of_isIdle rfl)) (fun _ => ?_)
  refine .bind (perform_volume (·.rename file.temporary file) hsettled
    (step_rename process file.temporary file) (fun h => h.rename _ _) hrename) (fun _ => ?_)
  exact perform_volume (·.syncDirectory) hsettled (step_syncDirectory process)
    (fun h => h.syncDirectory) (hsettled _ _ _ (Volume.settles_syncDirectory _) hrename)

/-- **The creation of an identity**: the marked identity file is written,
then the key record. `Good` is what is known of the UUID. -/
theorem createKeys_triple {uuid : Bytes} (Good : Bytes → Prop)
    (hgiven : uuid.isEmpty = false → Good uuid)
    (hgenerated : uuid.isEmpty = true → ∀ random, Good (generateUuid random))
    (hname : ∀ u, Good u → Writable inv v returned .name (manifest u))
    (hkeys : ∀ u publicKey privateKey, Good u → Writable inv (afterWrite v .name (manifest u))
      returned .keys (keyRecord u publicKey privateKey)) :
    (actor inv process).Triple (At process v returned) (createKeys uuid)
      (fun identity s => Good identity.deviceId
        ∧ At process (afterWrite (afterWrite v .name (manifest identity.deviceId)) .keys
          (keyRecord identity.deviceId identity.publicKey identity.privateKey)) returned s) := by
  have hchoose : (actor inv process).Triple (At process v returned) (chooseUuid uuid)
      (fun u s => At process v returned s ∧ Good u) := by
    unfold chooseUuid
    split
    · rename_i hempty
      refine call_idle (idle_of_isIdle rfl) (fun r _ => ?_)
      split
      · exact .done stable_at (fun _ hs => ⟨hs, hgenerated hempty _⟩)
      · exact .failed
    · rename_i hempty
      exact .done stable_at (fun _ hs => ⟨hs, hgiven (by simpa using hempty)⟩)
  refine hchoose.bind (fun u s hs => ?_)
  obtain ⟨hat, hgood⟩ := hs
  refine (atomicWrite_triple hsettled (hname u hgood)).bind (fun _ => ?_) s hat
  refine call_idle (idle_of_isIdle rfl) (fun r _hr => ?_)
  split
  · rename_i publicKey privateKey
    refine (atomicWrite_triple hsettled (hkeys u publicKey privateKey hgood)).bind (fun _ => ?_)
    exact .done stable_at (fun _ hs => ⟨hgood, hs⟩)
  · exact .failed

end Write

/-- What `load_or_create` found under the identity's name. -/
def Named (v : Volume IdentityFile) (uuid : Bytes) (keysRequired : Bool) : Prop :=
  (v.entry .name = none ∧ uuid = [] ∧ keysRequired = false)
    ∨ ∃ k, v.entry .name = some k ∧ parseIdentity (v.content k) = some (uuid, keysRequired)
      ∧ (v.content k).length ≤ 64

theorem readIdentity_triple :
    (actor inv process).Triple (At process v returned) readIdentity
      (fun parsed s => At process v returned s ∧ Named v parsed.1 parsed.2) := by
  refine (entryExists_triple .name).bind (fun found s hs => ?_)
  obtain ⟨hat, hfound⟩ := hs
  cases hentry : v.entry .name with
  | none =>
    rw [hentry] at hfound
    subst hfound
    exact Actor.Triple.done stable_at (fun _ hs => ⟨hs, .inl ⟨hentry, rfl, rfl⟩⟩) s hat
  | some k =>
    rw [hentry] at hfound
    subst hfound
    refine (readFile_triple hentry 64).bind (fun text s hs => ?_) s hat
    obtain ⟨hat, rfl, hlength⟩ := hs
    cases hparse : parseIdentity (v.content k) with
    | none => trivial
    | some parsed =>
      exact Actor.Triple.done stable_at
        (fun _ hs => ⟨hs, .inr ⟨k, hentry, hparse, hlength⟩⟩) s hat

theorem loadKeys_triple (sodium : Sodium) {uuid : Bytes} {k : ℕ}
    (hentry : v.entry .keys = some k) :
    (actor inv process).Triple (At process v returned) (loadKeys sodium uuid)
      (fun identity s => At process v returned s
        ∧ parseKeyRecord sodium uuid (v.content k) = .ok identity) := by
  refine (readFile_triple hentry keyFileSize).bind (fun record s hs => ?_)
  obtain ⟨hat, rfl, -⟩ := hs
  cases hparse : parseKeyRecord sodium uuid (v.content k) with
  | error message => trivial
  | ok identity => exact Actor.Triple.done stable_at (fun _ hs => ⟨hs, rfl⟩) s hat

/-- **`load_or_create` behind the lock**: where there is a temporary file, or
where the identity file and the key material do not fit, it fails; otherwise
it loads or it creates. -/
theorem loadLocked_triple (sodium : Sodium) {Q : DeviceIdentity → Storage → Prop}
    (hload : ∀ uuid, v.entry .nameTmp = none → v.entry .keysTmp = none → Named v uuid true →
      (v.entry .keys).isSome = true →
      (actor inv process).Triple (At process v returned) (loadKeys sodium uuid) Q)
    (hcreate : ∀ uuid, v.entry .nameTmp = none → v.entry .keysTmp = none → Named v uuid false →
      v.entry .keys = none →
      (actor inv process).Triple (At process v returned) (createKeys uuid) Q) :
    (actor inv process).Triple (At process v returned) (loadLocked sodium) Q := by
  refine (entryExists_triple .nameTmp).bind (fun found s hs => ?_)
  obtain ⟨hat, hnameTmp⟩ := hs
  cases found with
  | true => trivial
  | false =>
  refine (entryExists_triple .keysTmp).bind (fun found s hs => ?_) s hat
  obtain ⟨hat, hkeysTmp⟩ := hs
  cases found with
  | true => trivial
  | false =>
  refine readIdentity_triple.bind (fun parsed s hs => ?_) s hat
  obtain ⟨uuid, keysRequired⟩ := parsed
  obtain ⟨hat, hnamed⟩ := hs
  refine (entryExists_triple .keys).bind (fun found s hs => ?_) s hat
  obtain ⟨hat, hkeys⟩ := hs
  have hnameTmp : v.entry .nameTmp = none := by simpa using hnameTmp.symm
  have hkeysTmp : v.entry .keysTmp = none := by simpa using hkeysTmp.symm
  cases found <;> cases keysRequired
  · exact hcreate uuid hnameTmp hkeysTmp hnamed (by simpa using hkeys.symm) s hat
  · trivial
  · trivial
  · exact hload uuid hnameTmp hkeysTmp hnamed hkeys.symm s hat

theorem syncTree_triple (hsettled : inv.Settled) (above : ℕ) :
    ∀ sync, sync = .syncDirectory ∨ sync = .syncAncestor →
      (actor inv process).Triple (Outside inv process) (syncTree sync above)
        (fun _ => Outside inv process) := by
  have hsync : ∀ sync message, sync = .syncDirectory ∨ sync = .syncAncestor →
      (actor inv process).Triple (Outside inv process) (perform sync message)
        (fun _ => Outside inv process) := by
    rintro sync message (rfl | rfl)
    · refine .call (M := fun _ => Outside inv process) stable_outside (fun s r t hs hstep => ?_)
        (fun r => ?_)
      · rcases step_syncDirectory _ _ _ _ hstep with ⟨-, rfl⟩ | ⟨-, rfl⟩
        · exact ⟨guarantee_refl _, hs⟩
        · have hinv := hsettled _ _ s.returned (Volume.settles_syncDirectory s.volume)
          exact ⟨⟨hinv, rfl, .inr ⟨Volume.settles_syncDirectory _, .inl rfl⟩⟩, hinv hs.1, hs.2⟩
      · split
        · exact .done stable_outside (fun _ hs => hs)
        · exact .failed
    · exact perform_outside (idle_of_isIdle rfl)
  induction above with
  | zero =>
    intro sync h
    refine (hsync sync _ h).bind (fun _ => ?_)
    refine .bind (perform_outside (idle_of_isIdle rfl)) (fun _ => ?_)
    exact perform_outside (idle_of_isIdle rfl)
  | succ above ih =>
    intro sync h
    refine (hsync sync _ h).bind (fun _ => ?_)
    refine .bind (perform_outside (idle_of_isIdle rfl)) (fun _ => ?_)
    refine .bind (perform_outside (idle_of_isIdle rfl)) (fun _ => ?_)
    exact ih .syncAncestor (.inr rfl)

/-- **`load_or_create` is what it does behind the lock**: before it has the
lock it changes nothing. -/
theorem loadOrCreate_triple (hsettled : inv.Settled) (sodium : Sodium) (filename : Bytes)
    (above : ℕ) {Q : DeviceIdentity → Storage → Prop}
    (hlocked : ∀ v returned, inv v returned →
      (actor inv process).Triple (At process v returned) (loadLocked sodium) Q) :
    (actor inv process).Triple (Outside inv process) (loadOrCreate sodium filename above) Q := by
  have hidle : ∀ c message, isIdle c = true →
      (actor inv process).Triple (Outside inv process) (perform c message)
        (fun _ => Outside inv process) :=
    fun c message h => perform_outside (idle_of_isIdle h)
  refine (hidle _ _ rfl).bind (fun _ => ?_)
  split
  · exact .failed
  -- the directory
  have hopen : (actor inv process).Triple (Outside inv process) (openIdentityDirectory above)
      (fun _ => Outside inv process) := by
    refine (hidle _ _ rfl).bind (fun _ => ?_)
    refine (hidle _ _ rfl).bind (fun _ => ?_)
    refine (hidle _ _ rfl).bind (fun _ => ?_)
    refine (hidle _ _ rfl).bind (fun _ => ?_)
    refine (hidle _ _ rfl).bind (fun _ => ?_)
    exact syncTree_triple hsettled above .syncDirectory (.inl rfl)
  refine hopen.bind (fun _ => ?_)
  -- the lock
  have hlock : (actor inv process).Triple (Outside inv process) acquireLock
      (fun _ s => ∃ v returned, inv v returned ∧ At process v returned s) := by
    refine (hidle _ _ rfl).bind (fun _ => ?_)
    refine (hidle _ _ rfl).bind (fun _ => ?_)
    refine .call (M := fun r s => r = .ok → ∃ v returned, inv v returned ∧ At process v returned s)
      stable_outside (fun s r t hs hstep => ?_) (fun r => ?_)
    · rcases step_lock _ _ _ _ hstep with ⟨rfl, rfl⟩ | ⟨-, hnone, rfl⟩
      · exact ⟨guarantee_refl _, fun hr => by cases hr⟩
      · exact ⟨⟨id, rfl, .inr ⟨.refl _, .inr ⟨hnone, rfl⟩⟩⟩,
          fun _ => ⟨s.volume, s.returned, hs.1, rfl, .refl _, rfl⟩⟩
    · split
      · rename_i hr
        intro s hs
        obtain ⟨v, returned, hinv, hat⟩ := hs hr
        exact Actor.Triple.done stable_at (fun _ hs => ⟨v, returned, hinv, hs⟩) s hat
      · exact .failed
  refine hlock.bind (fun _ s hs => ?_)
  obtain ⟨v, returned, hinv, hat⟩ := hs
  exact hlocked v returned hinv s hat

end Functions

end Storage

end Gasoline
