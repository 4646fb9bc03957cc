import Mathlib.Data.List.DropRight
import Gasoline.Interaction
import Gasoline.Volume

/-!
# The device identity

`DeviceIdentity::load_or_create` as a program over the calls it makes: the
directory and lock it opens, the entries it inspects, the files it reads
and writes, and the random bytes and key pairs it asks libsodium for. The
functions of the source keep their names, and each failed check is a
failure of the program with the message of the source, less the file names
and system messages it puts in.

Calls that the source repeats after `EINTR`, and the `flock` it repeats
until its deadline, are one call here: a repetition changes nothing and is
not a step. A call that fails changes nothing either; `write` and `read`
may do a part of what they were asked for.

`Storage.step` is the system: the identity directory with its four files,
and the lock. The lock file itself is never written.
-/

namespace Gasoline

/-- The files of an identity: `name`, `name.keys`, and the temporary file of
each. -/
inductive IdentityFile
  | name
  | keys
  | nameTmp
  | keysTmp
  deriving DecidableEq, Repr

/-- The suffix `.tmp` that `atomic_write` adds. -/
def IdentityFile.temporary : IdentityFile → IdentityFile
  | .name => .nameTmp
  | .keys => .keysTmp
  | file => file

/-- `crypto_sign_SECRETKEYBYTES` bytes. -/
abbrev PrivateKey := List.Vector UInt8 64

/-- `crypto_sign_PUBLICKEYBYTES` bytes. -/
abbrev PublicKey := List.Vector UInt8 32

/-- `DeviceIdentity`. -/
structure DeviceIdentity where
  deviceId : Bytes
  publicKey : PublicKey
  privateKey : PrivateKey
  deriving DecidableEq

/-- What the source takes from libsodium to check a stored key pair. -/
structure Sodium where
  /-- `crypto_sign_ed25519_sk_to_seed`. -/
  skToSeed : PrivateKey → Option (List.Vector UInt8 32)
  /-- `crypto_sign_seed_keypair`. -/
  seedKeypair : List.Vector UInt8 32 → Option (PublicKey × PrivateKey)

/-- The pair libsodium derives from the seed of a private key. -/
def Sodium.derive (sodium : Sodium) (privateKey : PrivateKey) : Option (PublicKey × PrivateKey) :=
  (sodium.skToSeed privateKey).bind sodium.seedKeypair

/-! ## Formats -/

/-- `IDENTITY_MARKER`. -/
def identityMarker : Bytes := ascii "\ned25519-v1\n"

/-- `KEY_MAGIC`. -/
def keyMagic : Bytes := ascii "GASOLINE-ED25519-V1\n"

/-- `UUID_SIZE`. -/
def uuidSize : ℕ := 36

/-- `KEY_FILE_SIZE`. -/
def keyFileSize : ℕ := keyMagic.length + uuidSize + 32 + 64

/-- A hexadecimal digit, of either case. -/
def isHexDigit (b : UInt8) : Bool :=
  (decide (48 ≤ b) && decide (b ≤ 57)) || (decide (97 ≤ b) && decide (b ≤ 102))
    || (decide (65 ≤ b) && decide (b ≤ 70))

/-- `is_valid_uuid`. -/
def isValidUuid (value : Bytes) : Bool :=
  value.length == uuidSize && (List.range uuidSize).all (fun i =>
    if i = 8 ∨ i = 13 ∨ i = 18 ∨ i = 23 then value.getD i 0 == 45
    else isHexDigit (value.getD i 0))

/-- The digits of `generate_uuid`. -/
def hexDigit (n : UInt8) : UInt8 := (ascii "0123456789abcdef").getD n.toNat 0

/-- `generate_uuid`, of the random bytes. -/
def generateUuid (random : List.Vector UInt8 16) : Bytes :=
  let bytes : Bytes := random.toList.zipIdx.map (fun p =>
    if p.2 = 6 then (p.1 &&& 0x0F) ||| 0x40
    else if p.2 = 8 then (p.1 &&& 0x3F) ||| 0x80 else p.1)
  bytes.zipIdx.flatMap (fun (p : UInt8 × ℕ) =>
    (if p.2 = 4 ∨ p.2 = 6 ∨ p.2 = 8 ∨ p.2 = 10 then [45] else [] : Bytes)
      ++ [hexDigit (p.1 >>> 4), hexDigit (p.1 &&& 0x0F)])

/-- A carriage return or a line feed. -/
def isNewline (b : UInt8) : Bool := b == 10 || b == 13

/-- What the identity file says: the UUID, and whether key material must
exist. A marked file has the marker behind the UUID, and any other one may
have trailing newlines only. -/
def parseIdentity (text : Bytes) : Option (Bytes × Bool) :=
  let parsed : Bytes × Bool :=
    if text.length == uuidSize + identityMarker.length && text.drop uuidSize == identityMarker then
      (text.take uuidSize, true)
    else (text.rdropWhile isNewline, false)
  if isValidUuid parsed.1 then some parsed else none

/-- The marked identity file. -/
def manifest (uuid : Bytes) : Bytes := uuid ++ identityMarker

/-- The key record. -/
def keyRecord (uuid : Bytes) (publicKey : PublicKey) (privateKey : PrivateKey) : Bytes :=
  keyMagic ++ uuid ++ publicKey.toList ++ privateKey.toList

/-- `std::copy_n` out of the record buffer. -/
def copyN (n offset : ℕ) (record : Bytes) : List.Vector UInt8 n :=
  List.Vector.ofFn (fun i => record.getD (offset + i) 0)

/-- The checks of a key record that was read, and the identity it holds. -/
def parseKeyRecord (sodium : Sodium) (uuid record : Bytes) : Except String DeviceIdentity :=
  if record.length ≠ keyFileSize ∨ record.take keyMagic.length ≠ keyMagic
      ∨ (record.drop keyMagic.length).take uuidSize ≠ uuid then
    .error "invalid key record format, length, or UUID binding"
  else
    let publicKey := copyN 32 (keyMagic.length + uuidSize) record
    let privateKey := copyN 64 (keyMagic.length + uuidSize + 32) record
    if sodium.derive privateKey = some (publicKey, privateKey) then
      .ok ⟨uuid, publicKey, privateKey⟩
    else .error "corrupt or inconsistent Ed25519 key material"

/-! ## Calls -/

/-- The calls of the program. A file is named by its number once it is
open. -/
inductive IdentityCall
  /-- `sodium_init`. -/
  | initializeSodium
  /-- `create_directories`, and `open`, `fstat`, `fchmod` and `F_DUPFD` of the
  identity directory. -/
  | createDirectories
  | openDirectory
  | statDirectory
  | chmodDirectory
  | duplicateDirectory
  /-- `fsync` of the identity directory. -/
  | syncDirectory
  /-- `fsync` of a directory above it. -/
  | syncAncestor
  | openAncestor
  | statAncestor
  /-- `openat` and `fstat` of the lock file. -/
  | openLock
  | statLock
  /-- `flock`, until it succeeds or its deadline passes. -/
  | lock
  /-- `fstatat`. -/
  | entryExists (file : IdentityFile)
  /-- `openat` with `O_RDONLY`. -/
  | openExisting (file : IdentityFile)
  /-- `openat` with `O_WRONLY | O_CREAT | O_EXCL`. -/
  | openExclusive (file : IdentityFile)
  /-- The check of `open_private_file`. -/
  | statFile (handle : ℕ)
  | read (handle offset capacity : ℕ)
  | write (handle : ℕ) (bytes : Bytes)
  | syncFile (handle : ℕ)
  | closeFile (handle : ℕ)
  | rename (source target : IdentityFile)
  /-- `randombytes_buf`. -/
  | randomBytes
  /-- `crypto_sign_keypair`. -/
  | signKeypair
  deriving DecidableEq, Repr

/-- What a call returns. -/
inductive IdentityReply
  | ok
  | error
  | found (found : Bool)
  | handle (file : ℕ)
  | data (bytes : Bytes)
  | count (n : ℕ)
  | random (bytes : List.Vector UInt8 16)
  | keypair (publicKey : PublicKey) (privateKey : PrivateKey)
  deriving DecidableEq

/-- A computation over the calls. -/
abbrev IdentityProg := Prog IdentityCall IdentityReply

/-- A call that returns nothing but whether it succeeded. -/
def perform (c : IdentityCall) (message : String) : IdentityProg Unit :=
  .call c (fun r => if r = .ok then .done () else .failed message)

/-- The loop of `sync_directory_tree`, over the directories above the one it
is at. -/
def syncTree (sync : IdentityCall) : ℕ → IdentityProg Unit
  | 0 => do
    perform sync "failed to flush identity storage"
    perform .openAncestor "unable to inspect identity directory's ancestor"
    perform .statAncestor "unable to inspect identity directory's ancestor"
  | above + 1 => do
    perform sync "failed to flush identity storage"
    perform .openAncestor "unable to inspect identity directory's ancestor"
    perform .statAncestor "unable to inspect identity directory's ancestor"
    syncTree .syncAncestor above

/-- `sync_directory_tree`. -/
def syncDirectoryTree (above : ℕ) : IdentityProg Unit := do
  perform .duplicateDirectory "unable to duplicate identity directory handle"
  syncTree .syncDirectory above

/-- `open_identity_directory`. -/
def openIdentityDirectory (above : ℕ) : IdentityProg Unit := do
  perform .createDirectories "failed to create identity directory"
  perform .openDirectory
    "identity directory is inaccessible, symlinked, or not owned by this user"
  perform .statDirectory
    "identity directory is inaccessible, symlinked, or not owned by this user"
  perform .chmodDirectory "failed to secure identity directory permissions"
  syncDirectoryTree above

/-- `entry_exists`. -/
def entryExists (file : IdentityFile) : IdentityProg Bool :=
  .call (.entryExists file) (fun
    | .found found => .done found
    | _ => .failed "unable to inspect")

/-- `open_private_file`. -/
def openPrivateFile (open_ : IdentityCall) : IdentityProg ℕ :=
  .call open_ (fun
    | .handle handle => do
      perform (.statFile handle)
        "must be a regular, user-owned 0600 file without additional hard links"
      return handle
    | _ => .failed "unable to access")

/-- `acquire_lock`. -/
def acquireLock : IdentityProg Unit := do
  perform .openLock "unable to access"
  perform .statLock "must be a regular, user-owned 0600 file without additional hard links"
  perform .lock "timed out waiting for identity storage lock"

/-- The loops of `read_file`: fill the buffer, then look for one more
byte. -/
def readLoop (handle : ℕ) (room : ℕ) (contents : Bytes) : IdentityProg Bytes :=
  match room with
  | 0 => .call (.read handle contents.length 1) (fun
    | .data [] => .done contents
    | _ => .failed "invalid size or read failure in")
  | room + 1 => .call (.read handle contents.length (room + 1)) (fun
    | .data [] => .done contents
    | .data (b :: bytes) => readLoop handle (room - bytes.length) (contents ++ b :: bytes)
    | _ => .failed "failed to read")
  termination_by room

/-- `read_file`. -/
def readFile (file : IdentityFile) (capacity : ℕ) : IdentityProg Bytes := do
  let handle ← openPrivateFile (.openExisting file)
  readLoop handle capacity []

/-- The loop of `atomic_write`. -/
def writeLoop (handle : ℕ) (data : Bytes) : IdentityProg Unit :=
  match data with
  | [] => .done ()
  | b :: rest => .call (.write handle (b :: rest)) (fun
    | .count (n + 1) => writeLoop handle (rest.drop n)
    | _ => .failed "failed to write")
  termination_by data.length
  decreasing_by
    rw [List.length_drop, List.length_cons]
    omega

/-- `atomic_write`. -/
def atomicWrite (file : IdentityFile) (data : Bytes) : IdentityProg Unit := do
  let handle ← openPrivateFile (.openExclusive file.temporary)
  writeLoop handle data
  perform (.syncFile handle) "failed to flush identity storage"
  perform (.closeFile handle) "failed to close persisted identity file"
  perform (.rename file.temporary file) "failed to publish"
  perform .syncDirectory "failed to flush identity storage"

/-- The end of `load_or_create` where key material is required: load it. -/
def loadKeys (sodium : Sodium) (uuid : Bytes) : IdentityProg DeviceIdentity := do
  let record ← readFile .keys keyFileSize
  match parseKeyRecord sodium uuid record with
  | .ok identity => return identity
  | .error message => .failed message

/-- The UUID of a new identity: the one there is, or a new one. -/
def chooseUuid (uuid : Bytes) : IdentityProg Bytes :=
  if uuid.isEmpty then
    .call .randomBytes (fun
      | .random bytes => .done (generateUuid bytes)
      | _ => .failed "")
  else .done uuid

/-- The end of `load_or_create` where there is no key material: commit the
marker, then generate and write the keys. -/
def createKeys (uuid : Bytes) : IdentityProg DeviceIdentity := do
  let uuid ← chooseUuid uuid
  atomicWrite .name (manifest uuid)
  .call .signKeypair (fun
    | .keypair publicKey privateKey => do
      atomicWrite .keys (keyRecord uuid publicKey privateKey)
      return ⟨uuid, publicKey, privateKey⟩
    | _ => .failed "Ed25519 key generation failed")

/-- What `load_or_create` finds under the identity's name. -/
def readIdentity : IdentityProg (Bytes × Bool) := do
  if ← entryExists .name then
    let text ← readFile .name 64
    match parseIdentity text with
    | some parsed => return parsed
    | none => .failed "invalid UUID or identity format"
  else
    return ([], false)

/-- `load_or_create` behind the lock. -/
def loadLocked (sodium : Sodium) : IdentityProg DeviceIdentity := do
  if ← entryExists .nameTmp then
    .failed "interrupted identity initialization; restore the complete identity before retrying"
  else if ← entryExists .keysTmp then
    .failed "interrupted identity initialization; restore the complete identity before retrying"
  else
    let (uuid, keysRequired) ← readIdentity
    let keysExist ← entryExists .keys
    if keysExist != keysRequired then
      .failed (if keysRequired then
        "established key material is missing; identity will not be regenerated"
        else "key material has no matching versioned UUID identity")
    else if keysRequired then loadKeys sodium uuid
    else createKeys uuid

/-- **`load_or_create`**, of a file name in a directory with `above`
directories above it. -/
def loadOrCreate (sodium : Sodium) (filename : Bytes) (above : ℕ) :
    IdentityProg DeviceIdentity := do
  perform .initializeSodium "libsodium initialization failed"
  if filename.isEmpty || filename == ascii "." || filename == ascii ".." then
    .failed "invalid identity filename"
  else
    openIdentityDirectory above
    acquireLock
    loadLocked sodium

/-! ## The system -/

/-- The identity directory, its lock, and the identities that calls have
returned. -/
structure Storage where
  volume : Volume IdentityFile
  /-- The process that holds the lock. -/
  holder : Option ℕ
  returned : List DeviceIdentity

namespace Storage

/-- A change of the files. -/
def onVolume (s : Storage) (volume : Volume IdentityFile) : Storage := { s with volume := volume }

/-- **How the system answers a call of a process**: the state it leaves, or
`none` where the reply is not one it gives. -/
def step (process : ℕ) (s : Storage) (c : IdentityCall) (r : IdentityReply) : Option Storage :=
  match c, r with
  | .randomBytes, .random _ => some s
  | .randomBytes, _ => none
  -- any other call may fail, and then changes nothing
  | _, .error => some s
  | .syncDirectory, .ok => some (s.onVolume s.volume.syncDirectory)
  | .lock, .ok => if s.holder = none then some { s with holder := some process } else none
  | .entryExists file, .found found =>
    if found = (s.volume.entry file).isSome then some s else none
  | .openExisting file, .handle handle =>
    if s.volume.entry file = some handle then some s else none
  | .openExclusive file, .handle handle =>
    if s.volume.entry file = none ∧ handle = s.volume.next then
      some (s.onVolume (s.volume.create file))
    else none
  -- at least one byte where there is one, at most what was asked for
  | .read handle offset capacity, .data bytes =>
    let rest := (s.volume.content handle).drop offset
    if bytes.isPrefixOf rest ∧ bytes.length ≤ capacity ∧ (bytes = [] → rest = []) then some s
    else none
  | .write handle bytes, .count n =>
    if n ≤ bytes.length then some (s.onVolume (s.volume.append handle (bytes.take n))) else none
  | .syncFile handle, .ok => some (s.onVolume (s.volume.syncFile handle))
  | .rename source target, .ok => some (s.onVolume (s.volume.rename source target))
  | .signKeypair, .keypair _ _ => some s
  | .initializeSodium, .ok => some s
  | .createDirectories, .ok => some s
  | .openDirectory, .ok => some s
  | .statDirectory, .ok => some s
  | .chmodDirectory, .ok => some s
  | .duplicateDirectory, .ok => some s
  | .syncAncestor, .ok => some s
  | .openAncestor, .ok => some s
  | .statAncestor, .ok => some s
  | .openLock, .ok => some s
  | .statLock, .ok => some s
  | .statFile _, .ok => some s
  | .closeFile _, .ok => some s
  | _, _ => none

end Storage

end Gasoline
