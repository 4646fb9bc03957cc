import Gasoline.IdentityLoading

/-!
# One identity

Any number of processes call `load_or_create` on one directory, any number
of times and in any interleaving. A call may fail at every step, a process
may end at every point of its call, which releases the lock, and the power
may go at every point, which ends all processes and leaves of the files what
was synced and of the rest anything (`Processes.step`).

The directory has at first nothing or a UUID without keys. As long as no
marked identity file is sure to survive, there is no key record; and once
there is a key record, the marked file survives and every file that may be
found under either name says the same (`Storage.OneIdentity`). So all calls
that return return the same identity.
-/

namespace Gasoline

namespace Storage

/-! ## What the directory may hold -/

/-- **A directory without keys**: nothing, or a UUID and newlines under the
identity's name. -/
structure Unused (files : IdentityFile → Option Bytes) : Prop where
  nameTmp : files .nameTmp = none
  keysTmp : files .keysTmp = none
  keys : files .keys = none
  name : files .name = none ∨ ∃ uuid text, files .name = some text ∧ IsLegacy uuid text

/-- A UUID that the device may have: the one there was, if there was one. -/
def Origin (files : IdentityFile → Option Bytes) (uuid : Bytes) : Prop :=
  isValidUuid uuid = true ∧ ∀ text, files .name = some text → IsLegacy uuid text

/-- The file is on the disk with these contents; `none` is no file. -/
def Reads (v : Volume IdentityFile) (file : Option ℕ) (contents : Option Bytes) : Prop :=
  file.map v.content = contents ∧ ∀ k, file = some k → v.synced k = true

/-- There is no key record. Whatever the name may stand for after a power
loss is what it stood for at first, or a marked identity file. -/
structure Unmarked (files : IdentityFile → Option Bytes) (v : Volume IdentityFile) : Prop where
  name : ∀ file ∈ v.durable .name, Reads v file (files .name)
    ∨ ∃ uuid, Origin files uuid ∧ Reads v file (some (manifest uuid))
  keys : ∀ file ∈ v.durable .keys, file = none

/-- The identity is decided, whatever a power loss leaves: the marked file
survives, and there is no key record but one. -/
structure Marked (files : IdentityFile → Option Bytes) (v : Volume IdentityFile)
    (identity : DeviceIdentity) : Prop where
  origin : Origin files identity.deviceId
  name : ∀ file ∈ v.durable .name, Reads v file (some (manifest identity.deviceId))
  keys : ∀ file ∈ v.durable .keys, file = none
    ∨ Reads v file (some (keyRecord identity.deviceId identity.publicKey identity.privateKey))

/-- **At most one identity**: none was returned and there is no key record,
or all that were returned are the one that is decided. -/
def OneIdentity (files : IdentityFile → Option Bytes) : Invariant := fun v returned =>
  (Unmarked files v ∧ returned = [])
    ∨ ∃ identity, Marked files v identity ∧ ∀ other ∈ returned, other = identity

section Invariant

variable {files : IdentityFile → Option Bytes} {v w : Volume IdentityFile}

/-- What is on the disk stays there when the file does not change. -/
theorem Reads.congr {file : Option ℕ} {contents : Option Bytes}
    (hcontent : ∀ k, file = some k → w.content k = v.content k)
    (hsynced : ∀ k, file = some k → w.synced k = v.synced k) (h : Reads v file contents) :
    Reads w file contents := by
  obtain ⟨hread, hsync⟩ := h
  cases file with
  | none => exact ⟨hread, fun _ hk => by cases hk⟩
  | some k =>
    refine ⟨?_, fun j hj => ?_⟩
    · rw [← hread, Option.map_some, Option.map_some, hcontent k rfl]
    · rw [hsynced j hj]
      exact hsync j hj

/-- A file that may be found under a name is no new one. -/
theorem Reads.congr_of_lt {n : IdentityFile} {file : Option ℕ} {contents : Option Bytes}
    (hfile : file ∈ v.durable n) (hcontent : ∀ k < v.next, w.content k = v.content k)
    (hsynced : ∀ k < v.next, w.synced k = v.synced k) (h : Reads v file contents) :
    Reads w file contents := by
  have hlt : ∀ k, file = some k → k < v.next := by
    rintro k rfl
    exact v.fresh n k hfile
  exact h.congr (fun k hk => hcontent k (hlt k hk)) (fun k hk => hsynced k (hlt k hk))

/-- **What does not touch the files under the two names** keeps the
invariant. -/
theorem oneIdentity_congr {returned : List DeviceIdentity}
    (hname : ∀ file ∈ w.durable .name, file ∈ v.durable .name)
    (hkeys : ∀ file ∈ w.durable .keys, file ∈ v.durable .keys)
    (hcontent : ∀ k < v.next, w.content k = v.content k)
    (hsynced : ∀ k < v.next, w.synced k = v.synced k) (h : OneIdentity files v returned) :
    OneIdentity files w returned := by
  rcases h with ⟨hunmarked, hreturned⟩ | ⟨identity, hmarked, hreturned⟩
  · refine .inl ⟨⟨fun file hfile => ?_, fun file hfile => hunmarked.keys file (hkeys file hfile)⟩,
      hreturned⟩
    refine (hunmarked.name file (hname file hfile)).imp ?_ ?_
    · exact .congr_of_lt (hname file hfile) hcontent hsynced
    · rintro ⟨uuid, horigin, hread⟩
      exact ⟨uuid, horigin, hread.congr_of_lt (hname file hfile) hcontent hsynced⟩
  · refine .inr ⟨identity, ⟨hmarked.origin, fun file hfile => ?_, fun file hfile => ?_⟩, hreturned⟩
    · exact (hmarked.name file (hname file hfile)).congr_of_lt (hname file hfile) hcontent hsynced
    · exact (hmarked.keys file (hkeys file hfile)).imp_right
        (.congr_of_lt (hkeys file hfile) hcontent hsynced)

/-- What becomes durable keeps the invariant. -/
theorem settled_oneIdentity : (OneIdentity files).Settled := by
  intro v w returned hsettles h
  refine oneIdentity_congr (hsettles.durable .name) (hsettles.durable .keys) ?_ ?_ h
  · exact fun k _ => congrFun hsettles.content k
  · exact fun k _ => congrFun hsettles.synced k

/-- **A power loss keeps the invariant**: what it speaks of is synced. -/
theorem oneIdentity_reboot {returned : List DeviceIdentity} {choice : IdentityFile → Option ℕ}
    (hchoice : ∀ n, choice n ∈ v.durable n) (lost : ℕ → Bytes)
    (h : OneIdentity files v returned) :
    OneIdentity files (v.reboot choice hchoice lost) returned := by
  have hreads : ∀ {file contents}, Reads v file contents →
      Reads (v.reboot choice hchoice lost) file contents := by
    intro file contents h
    cases file with
    | none => exact ⟨h.1, fun _ hk => by cases hk⟩
    | some k =>
      refine ⟨?_, fun _ _ => rfl⟩
      rw [← h.1]
      show some (if v.synced k then v.content k else lost k) = some (v.content k)
      rw [if_pos (h.2 k rfl)]
  have hmem : ∀ {n file}, file ∈ (v.reboot choice hchoice lost).durable n → file ∈ v.durable n := by
    intro n file hfile
    obtain rfl := List.mem_singleton.mp hfile
    exact hchoice n
  rcases h with ⟨hunmarked, hreturned⟩ | ⟨identity, hmarked, hreturned⟩
  · refine .inl ⟨⟨fun file hfile => ?_, fun file hfile => hunmarked.keys file (hmem hfile)⟩,
      hreturned⟩
    refine (hunmarked.name file (hmem hfile)).imp hreads ?_
    exact fun ⟨uuid, horigin, hread⟩ => ⟨uuid, horigin, hreads hread⟩
  · exact .inr ⟨identity, ⟨hmarked.origin, fun file hfile => hreads (hmarked.name file (hmem hfile)),
      fun file hfile => (hmarked.keys file (hmem hfile)).imp_right hreads⟩, hreturned⟩

theorem oneIdentity_onDisk (hunused : Unused files) : OneIdentity files (onDisk files) [] := by
  refine .inl ⟨⟨fun file hfile => .inl ⟨?_, fun _ _ => rfl⟩, fun file hfile => ?_⟩, rfl⟩
  · obtain rfl := List.mem_singleton.mp hfile
    exact congrFun (view_onDisk files) .name
  · obtain rfl := List.mem_singleton.mp hfile
    rw [hunused.keys]
    rfl

/-! ## What a process keeps -/

/-- A file just written and renamed is on the disk. -/
theorem reads_written {temporary target : IdentityFile} {bytes : Bytes} :
    Reads (v.written temporary target bytes) (some v.next) (some bytes) :=
  ⟨congrArg some Volume.written_content_next,
    fun _ hk => Option.some.inj hk ▸ Volume.written_synced_next⟩

/-- The two steps of `atomic_write` before the rename concern a new file
only. -/
theorem writable_of_rename {returned : List DeviceIdentity} {file : IdentityFile} {data : Bytes}
    (hfile : file.temporary ≠ .name ∧ file.temporary ≠ .keys) (h : OneIdentity files v returned)
    (hrename : OneIdentity files (v.written file.temporary file data) returned) :
    Writable (OneIdentity files) v returned file data where
  write bytes := by
    refine oneIdentity_congr ?_ ?_ (fun k hk => ?_) (fun k hk => ?_) h
    · simp [Volume.append, Volume.create, Volume.setEntry, Volume.allocate, hfile.1.symm]
    · simp [Volume.append, Volume.create, Volume.setEntry, Volume.allocate, hfile.2.symm]
    · simp [Volume.append, Volume.create, Volume.setEntry, Volume.allocate, hk.ne]
    · simp [Volume.append, Volume.create, Volume.setEntry, Volume.allocate, hk.ne]
  sync := by
    refine oneIdentity_congr ?_ ?_ (fun k hk => ?_) (fun k hk => ?_) h
    · simp [Volume.syncFile, Volume.append, Volume.create, Volume.setEntry, Volume.allocate,
        hfile.1.symm]
    · simp [Volume.syncFile, Volume.append, Volume.create, Volume.setEntry, Volume.allocate,
        hfile.2.symm]
    · simp [Volume.syncFile, Volume.append, Volume.create, Volume.setEntry, Volume.allocate, hk.ne]
    · simp [Volume.syncFile, Volume.append, Volume.create, Volume.setEntry, Volume.allocate, hk.ne]
  rename := hrename

/-- The files that were there are as they were. -/
theorem reads_of_written {temporary target n : IdentityFile} {bytes : Bytes} {file : Option ℕ}
    {contents : Option Bytes} (hfile : file ∈ v.durable n) (h : Reads v file contents) :
    Reads (v.written temporary target bytes) file contents :=
  h.congr_of_lt hfile (fun _ hk => Volume.written_content_of_ne hk.ne)
    (fun _ hk => Volume.written_synced_of_ne hk.ne)

/-- **The marked identity file may be written** while there is no key
record. -/
theorem writable_name (hunmarked : Unmarked files v) {uuid : Bytes} (horigin : Origin files uuid) :
    Writable (OneIdentity files) v [] .name (manifest uuid) := by
  refine writable_of_rename (by decide) (.inl ⟨hunmarked, rfl⟩)
    (.inl ⟨⟨fun file hfile => ?_, fun file hfile => ?_⟩, rfl⟩)
  · rw [Volume.written_durable_target (by decide), List.mem_cons] at hfile
    rcases hfile with rfl | hfile
    · exact .inr ⟨uuid, horigin, reads_written⟩
    · refine (hunmarked.name file hfile).imp (reads_of_written hfile) ?_
      exact fun ⟨uuid, horigin, hread⟩ => ⟨uuid, horigin, reads_of_written hfile hread⟩
  · rw [Volume.written_durable_of_ne (by decide) (by decide)] at hfile
    exact hunmarked.keys file hfile

/-- Once it is written, the identity is decided up to its keys. -/
theorem marked_afterWrite_name {identity : DeviceIdentity} (hkeys : v.entry .keys = none)
    (horigin : Origin files identity.deviceId) :
    Marked files (afterWrite v .name (manifest identity.deviceId)) identity where
  origin := horigin
  name file hfile := by
    obtain rfl := List.mem_singleton.mp hfile
    rw [Volume.written_entry_target (by decide)]
    have hread : Reads (v.written IdentityFile.name.temporary .name (manifest identity.deviceId))
        (some v.next) (some (manifest identity.deviceId)) := reads_written
    exact hread
  keys file hfile := by
    obtain rfl := List.mem_singleton.mp hfile
    exact .inl ((Volume.written_entry_of_ne (by decide) (by decide)).trans hkeys)

/-- **The key record may be written** once the identity is decided. -/
theorem marked_written_keys {identity : DeviceIdentity} (hmarked : Marked files v identity) :
    Marked files (v.written IdentityFile.keys.temporary .keys
      (keyRecord identity.deviceId identity.publicKey identity.privateKey)) identity where
  origin := hmarked.origin
  name file hfile := by
    rw [Volume.written_durable_of_ne (by decide) (by decide)] at hfile
    exact reads_of_written hfile (hmarked.name file hfile)
  keys file hfile := by
    rw [Volume.written_durable_target (by decide), List.mem_cons] at hfile
    rcases hfile with rfl | hfile
    · exact .inr reads_written
    · exact (hmarked.keys file hfile).imp_right (reads_of_written hfile)

/-- A call that finds no marker finds an identity that is not decided, and
takes the UUID there is. -/
theorem unmarked_of_named {returned : List DeviceIdentity} {uuid : Bytes}
    (h : OneIdentity files v returned) (hnamed : Named v uuid false) :
    Unmarked files v ∧ returned = [] ∧ ((files .name = none ∧ uuid = []) ∨ Origin files uuid) := by
  -- a marked file under the name is not what was found
  have hmarked : ∀ {u}, isValidUuid u = true → ¬ Reads v (v.entry .name) (some (manifest u)) := by
    intro u hvalid hread
    obtain ⟨hname, -⟩ | ⟨k, hname, hparse, -⟩ := hnamed
    · rw [hname] at hread
      cases hread.1
    · rw [hname] at hread
      rw [Option.some.inj hread.1, parseIdentity_eq_marked.mpr ⟨rfl, hvalid⟩] at hparse
      cases hparse
  rcases h with ⟨hunmarked, hreturned⟩ | ⟨identity, hidentity, -⟩
  · refine ⟨hunmarked, hreturned, ?_⟩
    rcases hunmarked.name _ (v.current .name) with hread | ⟨u, horigin, hread⟩
    · obtain ⟨hname, huuid, -⟩ | ⟨k, hname, hparse, -⟩ := hnamed
      · rw [hname] at hread
        exact .inl ⟨hread.1.symm, huuid⟩
      · rw [hname] at hread
        have hlegacy := parseIdentity_eq_legacy.mp hparse
        refine .inr ⟨hlegacy.1, fun text htext => ?_⟩
        rw [← hread.1] at htext
        rwa [← Option.some.inj htext]
    · exact absurd hread (hmarked horigin.1)
  · exact absurd (hidentity.name _ (v.current .name)) (hmarked hidentity.origin.1)

/-- A call that finds a marker and a key record finds the identity that is
decided. -/
theorem marked_of_named {returned : List DeviceIdentity} {uuid : Bytes} {k : ℕ}
    {identity : DeviceIdentity} {sodium : Sodium} (h : OneIdentity files v returned)
    (hnamed : Named v uuid true) (hkeys : v.entry .keys = some k)
    (hparse : parseKeyRecord sodium uuid (v.content k) = .ok identity) :
    OneIdentity files v (returned ++ [identity]) := by
  rcases h with ⟨hunmarked, -⟩ | ⟨decided, hmarked, hreturned⟩
  · have := hunmarked.keys _ (v.current .keys)
    rw [hkeys] at this
    cases this
  obtain ⟨-, -, hfalse⟩ | ⟨j, hname, hparsed, -⟩ := hnamed
  · cases hfalse
  obtain ⟨hmanifest, hvalid⟩ := parseIdentity_eq_marked.mp hparsed
  obtain ⟨hrecord, hid, -⟩ := (parseKeyRecord_eq_ok (length_of_isValidUuid hvalid)).mp hparse
  have hread := (hmarked.name _ (v.current .name)).1
  rw [hname, Option.map_some, hmanifest] at hread
  have huuid : uuid = decided.deviceId := manifest_injective (Option.some.inj hread)
  have hreadKeys := (hmarked.keys _ (v.current .keys)).resolve_left (by rw [hkeys]; simp)
  have hrecords := hreadKeys.1
  rw [hkeys, Option.map_some, hrecord, huuid] at hrecords
  obtain ⟨hpublic, hprivate⟩ := keyRecord_injective (Option.some.inj hrecords)
  have hidentity : identity = decided := by
    obtain ⟨deviceId, publicKey, privateKey⟩ := identity
    obtain ⟨deviceId', publicKey', privateKey'⟩ := decided
    subst hid hpublic hprivate huuid
    rfl
  refine .inr ⟨decided, hmarked, fun other hother => ?_⟩
  rw [List.mem_append, List.mem_singleton] at hother
  exact hother.elim (hreturned other) (fun h => h.trans hidentity)

/-- **A process keeps the invariant**, and still does with what it
returns. -/
theorem loadOrCreate_oneIdentity (sodium : Sodium) (filename : Bytes) (above process : ℕ) :
    (actor (OneIdentity files) process).Triple (Outside (OneIdentity files) process)
      (loadOrCreate sodium filename above)
      (fun identity s => s.holder = some process
        ∧ OneIdentity files s.volume (s.returned ++ [identity])) := by
  refine loadOrCreate_triple settled_oneIdentity sodium filename above
    (fun v returned hinv => loadLocked_triple sodium ?_ ?_)
  · intro uuid _ _ hnamed hkeys
    obtain ⟨k, hk⟩ := Option.isSome_iff_exists.mp hkeys
    refine (loadKeys_triple sodium hk).consequence (fun _ hs => hs) ?_
    rintro identity s ⟨⟨hholder, hsettles, rfl⟩, hparse⟩
    exact ⟨hholder, settled_oneIdentity _ _ _ hsettles (marked_of_named hinv hnamed hk hparse)⟩
  · intro uuid _ _ hnamed hkeys
    obtain ⟨hunmarked, rfl, horigin⟩ := unmarked_of_named hinv hnamed
    have hwritable : ∀ u, Origin files u → ∀ publicKey privateKey,
        Writable (OneIdentity files) (afterWrite v .name (manifest u)) [] .keys
          (keyRecord u publicKey privateKey) := by
      intro u hu publicKey privateKey
      have hmarked : Marked files _ ⟨u, publicKey, privateKey⟩ := marked_afterWrite_name hkeys hu
      have hwritten := marked_written_keys hmarked
      exact writable_of_rename (by decide) (.inr ⟨_, hmarked, by simp⟩)
        (.inr ⟨_, hwritten, by simp⟩)
    refine (createKeys_triple settled_oneIdentity (Origin files) ?_ ?_
      (fun u hu => writable_name hunmarked hu)
      (fun u publicKey privateKey hu => hwritable u hu publicKey privateKey)).consequence
      (fun _ hs => hs) ?_
    · intro hempty
      refine horigin.resolve_left ?_
      rintro ⟨-, rfl⟩
      cases hempty
    · intro hempty random
      rcases horigin with ⟨hname, -⟩ | hu
      · refine ⟨isValidUuid_generateUuid random, fun text htext => ?_⟩
        rw [hname] at htext
        cases htext
      · have hlength := length_of_isValidUuid hu.1
        rw [List.isEmpty_iff.mp hempty] at hlength
        cases hlength
    · rintro identity s ⟨hu, hholder, hsettles, hreturned⟩
      rw [hreturned]
      refine ⟨hholder, settled_oneIdentity _ _ _ hsettles ?_⟩
      have hmarked : Marked files _ identity :=
        marked_written_keys (marked_afterWrite_name hkeys hu)
      exact settled_oneIdentity _ _ _ (Volume.settles_syncDirectory _)
        (.inr ⟨identity, hmarked, by simp⟩)

end Invariant

end Storage

/-! ## The system -/

/-- **The processes and their directory.** A process is what is left of the
call it is in. -/
structure Processes where
  storage : Storage
  process : ℕ → Option (IdentityProg DeviceIdentity)

/-- What may happen next. -/
inductive ProcessEvent
  /-- A process calls `load_or_create`. -/
  | start (process above : ℕ)
  /-- A call it made returns. -/
  | reply (process : ℕ) (r : IdentityReply)
  /-- `load_or_create` returns or throws. -/
  | finish (process : ℕ)
  /-- The process ends in the middle of the call. -/
  | crash (process : ℕ)
  /-- All processes end; `choice` is what is left of the names, and `lost`
  the contents that come back for what was not synced. -/
  | powerLoss (choice : IdentityFile → Option ℕ) (lost : ℕ → Bytes)

namespace Processes

/-- The lock is released when its file is closed. -/
def release (s : Storage) (process : ℕ) : Storage :=
  { s with holder := if s.holder = some process then none else s.holder }

/-- A process is now at `p`, or in no call. -/
def set (h : Processes) (storage : Storage) (process : ℕ)
    (p : Option (IdentityProg DeviceIdentity)) : Processes :=
  ⟨storage, Function.update h.process process p⟩

/-- What a power loss may leave of the names. -/
def survives (v : Volume IdentityFile) (choice : IdentityFile → Option ℕ) : Prop :=
  choice .name ∈ v.durable .name ∧ choice .keys ∈ v.durable .keys
    ∧ choice .nameTmp ∈ v.durable .nameTmp ∧ choice .keysTmp ∈ v.durable .keysTmp

instance (v : Volume IdentityFile) (choice : IdentityFile → Option ℕ) :
    Decidable (survives v choice) := inferInstanceAs (Decidable (_ ∧ _ ∧ _ ∧ _))

theorem mem_of_survives {v : Volume IdentityFile} {choice : IdentityFile → Option ℕ}
    (h : survives v choice) : ∀ file, choice file ∈ v.durable file
  | .name => h.1
  | .keys => h.2.1
  | .nameTmp => h.2.2.1
  | .keysTmp => h.2.2.2

/-- **One event.** -/
def step (sodium : Sodium) (filename : Bytes) (h : Processes) : ProcessEvent → Option Processes
  | .start i above =>
    match h.process i with
    | none => some (h.set h.storage i (some (loadOrCreate sodium filename above)))
    | some _ => none
  | .reply i r =>
    match h.process i with
    | some (.call c next) => (h.storage.step i c r).map (fun s => h.set s i (some (next r)))
    | _ => none
  | .finish i =>
    match h.process i with
    | some (.done identity) =>
      let s := release h.storage i
      some (h.set { s with returned := s.returned ++ [identity] } i none)
    | some (.failed _) => some (h.set (release h.storage i) i none)
    | _ => none
  | .crash i =>
    if (h.process i).isSome then some (h.set (release h.storage i) i none) else none
  | .powerLoss choice lost =>
    if hchoice : survives h.storage.volume choice then
      some ⟨⟨h.storage.volume.reboot choice (mem_of_survives hchoice) lost, none,
        h.storage.returned⟩, fun _ => none⟩
    else none

/-- No process is in a call. -/
def initial (files : IdentityFile → Option Bytes) : Processes :=
  ⟨⟨Storage.onDisk files, none, []⟩, fun _ => none⟩

/-- What a call of a process leaves. -/
def Returns (files : IdentityFile → Option Bytes) (process : ℕ) (identity : DeviceIdentity)
    (s : Storage) : Prop :=
  s.holder = some process ∧ Storage.OneIdentity files s.volume (s.returned ++ [identity])

/-- **The invariant of the system**: that of the directory, every process
meets its specification from where it is, and the lock is held by a process
in a call. -/
structure Inv (files : IdentityFile → Option Bytes) (h : Processes) : Prop where
  directory : Storage.OneIdentity files h.storage.volume h.storage.returned
  meets : ∀ i p, h.process i = some p →
    (Storage.actor (Storage.OneIdentity files) i).Meets (Returns files i) p h.storage
  holder : ∀ i, h.process i = none → h.storage.holder ≠ some i

section Invariant

variable {files : IdentityFile → Option Bytes} {h : Processes} {s : Storage} {i : ℕ}

/-- What a process guarantees is what the others rely on. -/
theorem rely_of_guarantee {inv : Storage.Invariant} {j : ℕ} {t : Storage} (hij : j ≠ i)
    (hguarantee : (Storage.actor inv i).Guarantee s t) : (Storage.actor inv j).Rely s t := by
  obtain ⟨hinv, hreturned, hheld | ⟨hsettles, hholder⟩⟩ := hguarantee
  · have hsome : some i ≠ some j := fun h => hij (Option.some.inj h).symm
    refine ⟨hinv, fun hj => ?_, fun _ => ?_⟩
    · rw [hheld.1] at hj
      exact absurd hj hsome
    · rw [hheld.2]
      exact hsome
  · refine ⟨hinv, fun hj => ⟨?_, hsettles, hreturned⟩, fun hj => ?_⟩
    · rcases hholder with hholder | ⟨hnone, -⟩
      · rw [hholder, hj]
      · rw [hnone] at hj
        cases hj
    · rcases hholder with hholder | ⟨-, hholder⟩
      · rwa [hholder]
      · rw [hholder]
        exact fun h => hij (Option.some.inj h).symm

/-- The others rely on no more than that a lock is released by the process
that holds it. -/
theorem rely_release {inv : Storage.Invariant} {j : ℕ} (hij : j ≠ i) :
    (Storage.actor inv j).Rely s (release s i) := by
  refine ⟨id, fun hj => ⟨?_, .refl _, rfl⟩, fun hj => ?_⟩
  · show (if s.holder = some i then none else s.holder) = some j
    rw [if_neg (by rw [hj]; exact fun h => hij (Option.some.inj h)), hj]
  · show (if s.holder = some i then none else s.holder) ≠ some j
    split
    · exact Option.some_ne_none j |>.symm
    · exact hj

/-- A process that released the lock does not hold it. -/
theorem release_holder : (release s i).holder ≠ some i := by
  show (if s.holder = some i then none else s.holder) ≠ some i
  split
  · exact Option.some_ne_none i |>.symm
  · assumption

/-- **A step of one process keeps the invariant**, if it keeps what the
others rely on. -/
theorem Inv.set {p : Option (IdentityProg DeviceIdentity)} (hinv : Inv files h)
    (hdirectory : Storage.OneIdentity files s.volume s.returned)
    (hrely : ∀ j ≠ i, (Storage.actor (Storage.OneIdentity files) j).Rely h.storage s)
    (hmeets : ∀ q, p = some q →
      (Storage.actor (Storage.OneIdentity files) i).Meets (Returns files i) q s)
    (hholder : p = none → s.holder ≠ some i) : Inv files (h.set s i p) where
  directory := hdirectory
  meets j q hj := by
    change Function.update h.process i p j = some q at hj
    by_cases hji : j = i
    · subst hji
      rw [Function.update_self] at hj
      exact hmeets q hj
    · rw [Function.update_of_ne hji] at hj
      exact (hinv.meets j q hj).interfere (hrely j hji)
  holder j hj := by
    change Function.update h.process i p j = none at hj
    by_cases hji : j = i
    · subst hji
      rw [Function.update_self] at hj
      exact hholder hj
    · rw [Function.update_of_ne hji] at hj
      exact (hrely j hji).2.2 (hinv.holder j hj)

/-- **Every event keeps the invariant.** -/
theorem inv_step (sodium : Sodium) (filename : Bytes) (h : Processes) (e : ProcessEvent)
    (h' : Processes) (hinv : Inv files h) (hstep : step sodium filename h e = some h') :
    Inv files h' := by
  cases e with
  | start i above =>
    simp only [step] at hstep
    split at hstep
    · rename_i hnone
      cases hstep
      refine hinv.set hinv.directory (fun j _ => (Storage.actor _ j).rely_refl _) ?_ (by simp)
      rintro q ⟨⟩
      exact Storage.loadOrCreate_oneIdentity sodium filename above i _
        ⟨hinv.directory, hinv.holder i hnone⟩
    · cases hstep
  | reply i r =>
    simp only [step] at hstep
    split at hstep
    · rename_i c next hcall
      obtain ⟨s, hs, rfl⟩ := Option.map_eq_some_iff.mp hstep
      obtain ⟨hguarantee, hrest⟩ := (hinv.meets i _ hcall).advance hs
      refine hinv.set (hguarantee.1 hinv.directory) (fun j hj => rely_of_guarantee hj hguarantee)
        ?_ (by simp)
      rintro q ⟨⟩
      exact hrest
    · cases hstep
  | finish i =>
    simp only [step] at hstep
    split at hstep
    · rename_i identity hdone
      cases hstep
      obtain ⟨hholder, hone⟩ := (hinv.meets i _ hdone).returned
      refine hinv.set hone (fun j hj => ⟨fun _ => hone, fun hj' => ?_, ?_⟩) (by simp)
        (fun _ => release_holder)
      · rw [hholder] at hj'
        exact absurd (Option.some.inj hj').symm hj
      · have hrelease : (Storage.actor (Storage.OneIdentity files) j).Rely h.storage _ :=
          rely_release hj
        exact hrelease.2.2
    · cases hstep
      exact hinv.set hinv.directory (fun j hj => rely_release hj) (by simp)
        (fun _ => release_holder)
    · cases hstep
  | crash i =>
    simp only [step] at hstep
    split at hstep
    · cases hstep
      exact hinv.set hinv.directory (fun j hj => rely_release hj) (by simp)
        (fun _ => release_holder)
    · cases hstep
  | powerLoss choice lost =>
    simp only [step] at hstep
    split at hstep
    · rename_i hchoice
      cases hstep
      exact ⟨Storage.oneIdentity_reboot (mem_of_survives hchoice) lost hinv.directory,
        by simp, by simp⟩
    · cases hstep

theorem inv_initial (hunused : Storage.Unused files) : Inv files (initial files) :=
  ⟨Storage.oneIdentity_onDisk hunused, by simp [initial], by simp [initial]⟩

end Invariant

/-- **A device never has two identities.** From a directory with nothing in
it or a UUID without keys, through every interleaving of calls, failures,
crashes and power losses, all calls that returned returned the same
identity; and where there was a UUID, it is that of the identity. -/
theorem one_identity {sodium : Sodium} {filename : Bytes} {files : IdentityFile → Option Bytes}
    {events : List ProcessEvent} {h : Processes} (hunused : Storage.Unused files)
    (hrun : runs (step sodium filename) (initial files) events = some h) :
    (∀ a ∈ h.storage.returned, ∀ b ∈ h.storage.returned, a = b)
      ∧ ∀ uuid text, files .name = some text → IsLegacy uuid text →
        ∀ a ∈ h.storage.returned, a.deviceId = uuid := by
  have hinv := runs_invariant (I := Inv files) (inv_step sodium filename) hrun
    (inv_initial hunused)
  rcases hinv.directory with ⟨-, hreturned⟩ | ⟨identity, hmarked, hreturned⟩
  · rw [hreturned]
    simp
  · refine ⟨fun a ha b hb => (hreturned a ha).trans (hreturned b hb).symm, ?_⟩
    intro uuid text htext hlegacy a ha
    rw [hreturned a ha, ← rdropWhile_legacy (hmarked.origin.2 text htext),
      rdropWhile_legacy hlegacy]

/-! ## Two processes -/

/-- A UUID and a newline. -/
def legacyFiles : IdentityFile → Option Bytes
  | .name => some (Storage.zeroIdentity.deviceId ++ [13, 10])
  | _ => none

/-- Two processes start, the first creates the keys and ends, and the second
loads them. -/
def twoProcesses : List ProcessEvent :=
  .start 0 0 :: .start 1 0 :: List.replicate 12 (.reply 0 .ok) ++ List.replicate 11 (.reply 1 .ok)
    ++ ([.found false, .found false, .found true, .handle 0, .ok,
        .data (Storage.zeroIdentity.deviceId ++ [13, 10]), .data [], .found false,
        .handle 4, .ok, .count 48, .ok, .ok, .ok, .ok,
        .keypair Storage.zeroPublicKey Storage.zeroPrivateKey,
        .handle 5, .ok, .count 100, .count 52, .ok, .ok, .ok, .ok]
      : List IdentityReply).map (.reply 0) ++ [.finish 0]
    ++ ([.ok, .found false, .found false, .found true, .handle 4, .ok,
        .data (manifest Storage.zeroIdentity.deviceId), .data [], .found true,
        .handle 5, .ok, .data ((Storage.zeroFiles .keys).getD []), .data []]
      : List IdentityReply).map (.reply 1) ++ [.finish 1]

/-- The hypotheses are met by a run in which both return. -/
theorem one_identity_twice :
    ∃ h, runs (step Storage.zeroSodium (ascii "device_id")) (initial legacyFiles) twoProcesses = some h
      ∧ h.storage.returned = [Storage.zeroIdentity, Storage.zeroIdentity]
      ∧ ∀ a ∈ h.storage.returned, a.deviceId = Storage.zeroIdentity.deviceId := by
  have hresult : (runs (step Storage.zeroSodium (ascii "device_id")) (initial legacyFiles)
        twoProcesses).map (fun h => h.storage.returned)
      = some [Storage.zeroIdentity, Storage.zeroIdentity] := by decide +kernel
  obtain ⟨h, hrun, hreturned⟩ := Option.map_eq_some_iff.mp hresult
  have hlegacy : IsLegacy Storage.zeroIdentity.deviceId (Storage.zeroIdentity.deviceId ++ [13, 10]) :=
    ⟨by decide, [13, 10], rfl, by decide +kernel⟩
  have hunused : Storage.Unused legacyFiles := ⟨rfl, rfl, rfl, .inr ⟨_, _, rfl, hlegacy⟩⟩
  exact ⟨h, hrun, hreturned, (one_identity hunused hrun).2 _ _ rfl hlegacy⟩

end Processes

end Gasoline
