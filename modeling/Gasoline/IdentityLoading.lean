import Gasoline.IdentityRules

/-!
# Loading fails closed

One call of `load_or_create` on files of any contents, with any replies.
It writes only where there is no key material, no temporary file, and
nothing under the identity's name but a UUID (`Storage.MayCreate`). Without
writing it returns an identity only where the files hold exactly that
identity (`Storage.Established`). In every other case it fails and the
files are as they were.

The calls that fail are replies like any other, so this is about every
error path too; and it is about every state the call passes through, so
about calls that never end.
-/

namespace Gasoline

namespace Storage

/-- Files with given contents, or none. -/
def onDisk (files : IdentityFile → Option Bytes) : Volume IdentityFile :=
  .ofFiles (fun | .name => 0 | .keys => 1 | .nameTmp => 2 | .keysTmp => 3) files 4
    (fun file => by cases file <;> decide)
    (fun
      | 0 => (files .name).getD []
      | 1 => (files .keys).getD []
      | 2 => (files .nameTmp).getD []
      | _ => (files .keysTmp).getD [])

theorem view_onDisk (files : IdentityFile → Option Bytes) : (onDisk files).view = files := by
  funext file
  cases file <;> cases h : files _ <;> simp [onDisk, Volume.view, Volume.ofFiles, h]

/-- What is known of the files is what is there. -/
theorem view_of_settles {v w : Volume IdentityFile} (h : v.Settles w) : w.view = v.view := by
  funext file
  show (w.entry file).map w.content = (v.entry file).map v.content
  rw [h.entry, h.content]

variable (sodium : Sodium)

/-- **Where a new identity may be created**: no key material, no temporary
file, and under the name nothing or a UUID followed by newlines. -/
structure MayCreate (files : IdentityFile → Option Bytes) : Prop where
  nameTmp : files .nameTmp = none
  keysTmp : files .keysTmp = none
  keys : files .keys = none
  name : files .name = none
    ∨ ∃ uuid text, files .name = some text ∧ IsLegacy uuid text ∧ text.length ≤ 64

/-- **Where an identity is established**: no temporary file, the marked
identity file, and the key record of the identity, whose pair is the one
libsodium derives from the seed of its private key. -/
structure Established (files : IdentityFile → Option Bytes) (identity : DeviceIdentity) :
    Prop where
  nameTmp : files .nameTmp = none
  keysTmp : files .keysTmp = none
  uuid : isValidUuid identity.deviceId = true
  name : files .name = some (identity.deviceId ++ identityMarker)
  keys : files .keys = some (keyMagic ++ identity.deviceId ++ identity.publicKey.toList
    ++ identity.privateKey.toList)
  derived : sodium.derive identity.privateKey = some (identity.publicKey, identity.privateKey)

/-- The record of an established identity has 152 bytes. -/
theorem Established.size {sodium : Sodium} {files : IdentityFile → Option Bytes}
    {identity : DeviceIdentity} (h : Established sodium files identity) :
    ∃ record, files .keys = some record ∧ record.length = 152 :=
  ⟨_, h.keys, length_keyRecord (length_of_isValidUuid h.uuid) _ _⟩

/-- What one call keeps: it leaves the files as they were, unless it may
create an identity. -/
def Untouched (files : IdentityFile → Option Bytes) : Invariant :=
  fun v _ => v.view = files ∨ MayCreate files

theorem settled_untouched (files : IdentityFile → Option Bytes) : (Untouched files).Settled := by
  intro v w _ hsettles h
  exact h.imp_left (fun hview => (view_of_settles hsettles).trans hview)

/-- The files a call finds when it decides to create. -/
theorem mayCreate_of_named {v : Volume IdentityFile} {uuid : Bytes}
    (hnameTmp : v.entry .nameTmp = none) (hkeysTmp : v.entry .keysTmp = none)
    (hnamed : Named v uuid false) (hkeys : v.entry .keys = none) : MayCreate v.view where
  nameTmp := congrArg (Option.map v.content) hnameTmp
  keysTmp := congrArg (Option.map v.content) hkeysTmp
  keys := congrArg (Option.map v.content) hkeys
  name := by
    obtain ⟨hname, -⟩ | ⟨k, hname, hparse, hlength⟩ := hnamed
    · exact .inl (congrArg (Option.map v.content) hname)
    · exact .inr ⟨uuid, v.content k, congrArg (Option.map v.content) hname,
        parseIdentity_eq_legacy.mp hparse, hlength⟩

/-- The files a call finds when it loads an identity. -/
theorem established_of_named {v : Volume IdentityFile} {uuid : Bytes} {k : ℕ}
    {identity : DeviceIdentity} (hnameTmp : v.entry .nameTmp = none)
    (hkeysTmp : v.entry .keysTmp = none) (hnamed : Named v uuid true)
    (hkeys : v.entry .keys = some k)
    (hparse : parseKeyRecord sodium uuid (v.content k) = .ok identity) :
    Established sodium v.view identity := by
  obtain ⟨-, -, hfalse⟩ | ⟨j, hname, hparsed, -⟩ := hnamed
  · cases hfalse
  obtain ⟨hmanifest, hvalid⟩ := parseIdentity_eq_marked.mp hparsed
  obtain ⟨hrecord, hid, hderived⟩ :=
    (parseKeyRecord_eq_ok (length_of_isValidUuid hvalid)).mp hparse
  subst hid
  exact {
    nameTmp := congrArg (Option.map v.content) hnameTmp
    keysTmp := congrArg (Option.map v.content) hkeysTmp
    uuid := hvalid
    name := by
      show (v.entry .name).map v.content = _
      rw [hname, Option.map_some, hmanifest]
      rfl
    keys := by
      show (v.entry .keys).map v.content = _
      rw [hkeys, Option.map_some, hrecord]
      rfl
    derived := hderived }

/-- The whole call: it keeps the files unless it may create, and what it
returns without having changed them is what they hold. -/
theorem loadOrCreate_untouched (filename : Bytes) (above : ℕ)
    (files : IdentityFile → Option Bytes) :
    (actor (Untouched files) 0).Triple (Outside (Untouched files) 0)
      (loadOrCreate sodium filename above)
      (fun identity s => s.volume.view = files → Established sodium files identity) := by
  refine loadOrCreate_triple (settled_untouched files) sodium filename above
    (fun v returned hinv => loadLocked_triple sodium ?_ ?_)
  · intro uuid hnameTmp hkeysTmp hnamed hkeys
    obtain ⟨k, hk⟩ := Option.isSome_iff_exists.mp hkeys
    refine (loadKeys_triple sodium hk).consequence (fun _ hs => hs) (fun identity s hs hview => ?_)
    have hestablished := established_of_named sodium hnameTmp hkeysTmp hnamed hk hs.2
    rwa [← view_of_settles hs.1.2.1, hview] at hestablished
  · intro uuid hnameTmp hkeysTmp hnamed hkeys
    have hmay : MayCreate files := by
      rcases hinv with rfl | hmay
      · exact mayCreate_of_named hnameTmp hkeysTmp hnamed hkeys
      · exact hmay
    -- from here on the invariant asks for nothing
    have hwritable : ∀ w file data, Writable (Untouched files) w returned file data :=
      fun _ _ _ => ⟨fun _ => .inr hmay, .inr hmay, .inr hmay⟩
    refine (createKeys_triple (settled_untouched files) (fun _ => True) (fun _ => trivial)
      (fun _ _ => trivial) (fun _ _ => hwritable _ _ _)
      (fun _ _ _ _ => hwritable _ _ _)).consequence (fun _ hs => hs) ?_
    intro identity s hs hview
    have hentry : s.volume.entry .keys ≠ none := by
      rw [hs.2.2.1.entry, afterWrite_entry (by decide)]
      exact Option.some_ne_none _
    have hnone : s.volume.view .keys = none := by
      rw [hview]
      exact hmay.keys
    exact absurd (Option.map_eq_none_iff.mp hnone) hentry

/-- A call can always be answered, so a program that cannot go on has
returned or failed. -/
theorem ended_of_answer {p : IdentityProg DeviceIdentity} {s : Storage} {process : ℕ}
    (h : ∀ r, Prog.answer (step process) (p, s) r = none) :
    (∃ identity, p = .done identity) ∨ ∃ message, p = .failed message := by
  cases p with
  | done identity => exact .inl ⟨identity, rfl⟩
  | failed message => exact .inr ⟨message, rfl⟩
  | call c next =>
    have hnone : ∀ r, step process s c r = none := fun r => Option.map_eq_none_iff.mp (h r)
    by_cases hrandom : c = .randomBytes
    · subst hrandom
      cases hnone (.random (List.Vector.replicate 16 0))
    · have herror : step process s c .error = some s := by
        cases c <;> first | rfl | exact absurd rfl hrandom
      rw [hnone] at herror
      cases herror

/-- **Loading fails closed.** Whatever the four files hold and whatever the
calls reply, at every point of the call: the files differ from what they
were only where a new identity may be created; an identity returned with
the files as they were is the one they hold; in every other case the files
are as they were, and the call ends and fails; and an existing key record or
marked identity file is never changed. -/
theorem loadOrCreate_fails_closed {filename : Bytes} {above : ℕ}
    {files : IdentityFile → Option Bytes} {replies : List IdentityReply}
    {p : IdentityProg DeviceIdentity} {s : Storage}
    (hrun : runs (Prog.answer (step 0)) (loadOrCreate sodium filename above, ⟨onDisk files, none, []⟩)
      replies = some (p, s)) :
    (s.volume.view ≠ files → MayCreate files)
      ∧ (∀ identity, p = .done identity → s.volume.view = files →
        Established sodium files identity)
      ∧ (¬ MayCreate files → (∀ identity, ¬ Established sodium files identity) →
        s.volume.view = files
          ∧ ((∀ r, Prog.answer (step 0) (p, s) r = none) → ∃ message, p = .failed message))
      ∧ Acc (fun y x => ∃ r, Prog.answer (step 0) x r = some y) (p, s)
      ∧ (∀ record, files .keys = some record → s.volume.view .keys = some record)
      ∧ ∀ text, files .name = some (text ++ identityMarker) →
        s.volume.view .name = some (text ++ identityMarker) := by
  obtain ⟨hinv, hmeets⟩ := (loadOrCreate_untouched sodium filename above files).alone
    (J := fun s => Untouched files s.volume s.returned) (fun _ _ hs hg => hg.1 hs)
    (s := ⟨onDisk files, none, []⟩) ⟨.inl (view_onDisk files), by simp⟩
    (.inl (view_onDisk files)) hrun
  have hreturn : ∀ identity, p = .done identity → s.volume.view = files →
      Established sodium files identity := by
    rintro identity rfl
    exact hmeets.returned
  refine ⟨fun hne => hinv.resolve_left hne, hreturn, ?_, Prog.acc_answer _ _ _, ?_, ?_⟩
  · intro hmay hestablished
    have hview := hinv.resolve_right hmay
    refine ⟨hview, fun hended => ?_⟩
    rcases ended_of_answer hended with ⟨identity, hp⟩ | hfailed
    · exact absurd (hreturn identity hp hview) (hestablished identity)
    · exact hfailed
  · intro record hrecord
    rcases hinv with hview | hmay
    · rw [hview, hrecord]
    · rw [hmay.keys] at hrecord
      cases hrecord
  · intro text htext
    rcases hinv with hview | hmay
    · rw [hview, htext]
    · rcases hmay.name with hname | ⟨uuid, legacy, hname, hlegacy, -⟩
      · rw [hname] at htext
        cases htext
      · rw [hname] at htext
        exact absurd (Option.some.inj htext) (legacy_ne_marked hlegacy)

/-! ## A call that loads -/

/-- The seed of 32 zero bytes, and its Ed25519 public key. -/
def zeroSeed : List.Vector UInt8 32 := List.Vector.replicate 32 0

def zeroPublicKey : PublicKey :=
  ⟨[0x3b, 0x6a, 0x27, 0xbc, 0xce, 0xb6, 0xa4, 0x2d, 0x62, 0xa3, 0xa8, 0xd0, 0x2a, 0x6f, 0x0d, 0x73,
    0x65, 0x32, 0x15, 0x77, 0x1d, 0xe2, 0x43, 0xa6, 0x3a, 0xc0, 0x48, 0xa1, 0x8b, 0x59, 0xda, 0x29],
    rfl⟩

/-- A private key is its seed and its public key. -/
def zeroPrivateKey : PrivateKey := ⟨zeroSeed.toList ++ zeroPublicKey.toList, rfl⟩

/-- libsodium, of that seed. -/
def zeroSodium : Sodium where
  skToSeed privateKey := some (copyN 32 0 privateKey.toList)
  seedKeypair seed :=
    if seed = zeroSeed then some (zeroPublicKey, zeroPrivateKey) else none

def zeroIdentity : DeviceIdentity :=
  ⟨ascii "00112233-4455-4677-8899-AABBCCDDEEFF", zeroPublicKey, zeroPrivateKey⟩

/-- Its two files. -/
def zeroFiles : IdentityFile → Option Bytes
  | .name => some (manifest zeroIdentity.deviceId)
  | .keys => some (keyRecord zeroIdentity.deviceId zeroIdentity.publicKey zeroIdentity.privateKey)
  | _ => none

/-- The replies to a call that loads it, the key record in two reads. -/
def zeroReplies : List IdentityReply :=
  List.replicate 12 .ok
    ++ [.found false, .found false, .found true, .handle 0, .ok,
      .data (manifest zeroIdentity.deviceId), .data [], .found true, .handle 1, .ok,
      .data ((zeroFiles .keys).getD [] |>.take 100), .data ((zeroFiles .keys).getD [] |>.drop 100),
      .data []]

/-- The identity a program returned. -/
def resultOf (x : IdentityProg DeviceIdentity × Storage) : Option DeviceIdentity :=
  match x.1 with
  | .done identity => some identity
  | _ => none

/-- The hypothesis is met by a call that loads an identity. -/
theorem loadOrCreate_fails_closed_load :
    ∃ p s, runs (Prog.answer (step 0))
        (loadOrCreate zeroSodium (ascii "device_id") 0, ⟨onDisk zeroFiles, none, []⟩) zeroReplies
        = some (p, s)
      ∧ resultOf (p, s) = some zeroIdentity
      ∧ s.volume.view .keys = zeroFiles .keys := by
  have hloads : (runs (Prog.answer (step 0))
      (loadOrCreate zeroSodium (ascii "device_id") 0, ⟨onDisk zeroFiles, none, []⟩)
      zeroReplies).bind resultOf = some zeroIdentity := by decide +kernel
  obtain ⟨⟨p, s⟩, hrun, hresult⟩ := Option.bind_eq_some_iff.mp hloads
  obtain ⟨-, -, -, -, hkeys, -⟩ := loadOrCreate_fails_closed zeroSodium hrun
  exact ⟨p, s, hrun, hresult, hkeys _ rfl⟩

end Storage

end Gasoline
