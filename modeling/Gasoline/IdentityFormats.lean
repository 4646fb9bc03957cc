import Gasoline.Identity

/-!
# The formats of an identity

What the two parsers of `load_or_create` accept, exactly: the identity file
is a UUID with the marker or with trailing newlines (`parseIdentity`), the
key record is the one that `create` writes with a pair that libsodium
derives again (`parseKeyRecord`). The UUIDs that are generated are valid.
-/

namespace Gasoline

/-! ## UUIDs -/

/-- A UUID has 36 characters. -/
theorem length_of_isValidUuid {u : Bytes} (h : isValidUuid u = true) : u.length = uuidSize := by
  rw [isValidUuid, Bool.and_eq_true, beq_iff_eq] at h
  exact h.1

/-- Every character of a UUID is a dash or a digit. -/
theorem char_of_isValidUuid {u : Bytes} (h : isValidUuid u = true) {i : ℕ} (hi : i < uuidSize) :
    if i = 8 ∨ i = 13 ∨ i = 18 ∨ i = 23 then u.getD i 0 = 45
    else isHexDigit (u.getD i 0) = true := by
  rw [isValidUuid, Bool.and_eq_true, List.all_eq_true] at h
  have hchar := h.2 i (List.mem_range.mpr hi)
  split at hchar
  · rename_i hdash
    rw [if_pos hdash]
    exact beq_iff_eq.mp hchar
  · rename_i hdash
    rw [if_neg hdash]
    exact hchar

/-- Neither a dash nor a digit is a newline. -/
theorem not_isNewline_of_isHexDigit {b : UInt8} (h : isHexDigit b = true) :
    isNewline b = false := by
  by_contra hnl
  rw [Bool.not_eq_false, isNewline, Bool.or_eq_true, beq_iff_eq, beq_iff_eq] at hnl
  rcases hnl with rfl | rfl <;> exact absurd h (by decide)

theorem not_isNewline_of_mem {u : Bytes} (h : isValidUuid u = true) {b : UInt8} (hb : b ∈ u) :
    isNewline b = false := by
  obtain ⟨i, hi, rfl⟩ := List.mem_iff_getElem.mp hb
  have hchar := char_of_isValidUuid h (length_of_isValidUuid h ▸ hi)
  have hget : u.getD i 0 = u[i] := by simp [List.getD, hi]
  rw [hget] at hchar
  split at hchar
  · rw [hchar]
    rfl
  · exact not_isNewline_of_isHexDigit hchar

theorem isHexDigit_hexDigit {n : UInt8} (h : n.toNat < 16) : isHexDigit (hexDigit n) = true := by
  unfold hexDigit
  generalize n.toNat = m at h
  interval_cases m <;> decide

theorem isHexDigit_high (b : UInt8) : isHexDigit (hexDigit (b >>> 4)) = true := by
  refine isHexDigit_hexDigit ?_
  have hb : b.toNat < 256 := b.toNat_lt
  have hshift : (b >>> 4).toNat = b.toNat / 16 := by
    simp [UInt8.toNat_shiftRight, Nat.shiftRight_eq_div_pow]
  omega

theorem isHexDigit_low (b : UInt8) : isHexDigit (hexDigit (b &&& 0x0F)) = true := by
  refine isHexDigit_hexDigit ?_
  have hle : b.toNat &&& 15 ≤ 15 := Nat.and_le_right
  rw [UInt8.toNat_and]
  exact Nat.lt_succ_of_le hle

theorem isValidUuid_generateUuid (random : List.Vector UInt8 16) :
    isValidUuid (generateUuid random) = true := by
  obtain ⟨bytes, hlength⟩ := random
  match bytes, hlength with
  | [b₀, b₁, b₂, b₃, b₄, b₅, b₆, b₇, b₈, b₉, b₁₀, b₁₁, b₁₂, b₁₃, b₁₄, b₁₅], _ =>
    simp [isValidUuid, generateUuid, uuidSize, List.Vector.toList, List.range, List.range.loop,
      isHexDigit_high, isHexDigit_low]

/-! ## The identity file -/

/-- A text that is a UUID and newlines, as releases before the marker wrote
it. -/
def IsLegacy (uuid text : Bytes) : Prop :=
  isValidUuid uuid = true ∧ ∃ newlines, text = uuid ++ newlines ∧ ∀ b ∈ newlines, isNewline b = true

/-- Stripping the newlines leaves the UUID. -/
theorem rdropWhile_legacy {uuid text : Bytes} (h : IsLegacy uuid text) :
    text.rdropWhile isNewline = uuid := by
  obtain ⟨hvalid, newlines, rfl, hnewlines⟩ := h
  induction newlines using List.reverseRecOn with
  | nil =>
    rw [List.append_nil, List.rdropWhile_eq_self_iff]
    intro hne
    rw [not_isNewline_of_mem hvalid (List.getLast_mem hne)]
    exact Bool.false_ne_true
  | append_singleton newlines b ih =>
    rw [← List.append_assoc, List.rdropWhile_concat_pos _ _ _ (hnewlines b (by simp))]
    exact ih (fun c hc => hnewlines c (List.mem_append_left _ hc))

/-- The marker is no run of newlines. -/
theorem legacy_ne_marked {u uuid text : Bytes} (h : IsLegacy uuid text) :
    text ≠ u ++ identityMarker := by
  intro heq
  have hstrip := rdropWhile_legacy h
  have hmarker : u ++ identityMarker = (u ++ ascii "\ned25519-v") ++ [49] ++ [10] := by
    simp [identityMarker, ascii]
  rw [heq, hmarker, List.rdropWhile_concat_pos _ _ _ rfl,
    List.rdropWhile_concat_neg _ _ _ (by decide)] at hstrip
  have hmem : (10 : UInt8) ∈ uuid := by
    rw [← hstrip]
    simp [ascii]
  exact absurd (not_isNewline_of_mem h.1 hmem) (by decide)

/-- **A marked identity file** is the UUID and the marker. -/
theorem parseIdentity_eq_marked {text uuid : Bytes} :
    parseIdentity text = some (uuid, true) ↔ text = manifest uuid ∧ isValidUuid uuid = true := by
  constructor
  · intro h
    simp only [parseIdentity] at h
    split at h
    · rename_i hmarked
      split at h
      · rename_i hvalid
        obtain ⟨rfl, -⟩ := Prod.mk.inj (Option.some.inj h)
        rw [Bool.and_eq_true, beq_iff_eq, beq_iff_eq] at hmarked
        refine ⟨?_, hvalid⟩
        rw [manifest, ← hmarked.2, List.take_append_drop]
      · cases h
    · split at h <;> cases h
  · rintro ⟨rfl, hvalid⟩
    have hlength := length_of_isValidUuid hvalid
    have hdrop : (manifest uuid).drop uuidSize = identityMarker := List.drop_left' hlength
    have htake : (manifest uuid).take uuidSize = uuid := List.take_left' hlength
    have hsize : (manifest uuid).length = uuidSize + identityMarker.length := by
      rw [manifest, List.length_append, hlength]
    simp [parseIdentity, hdrop, htake, hsize, hvalid]

/-- **An identity file without the marker** is the UUID and newlines. -/
theorem parseIdentity_eq_legacy {text uuid : Bytes} :
    parseIdentity text = some (uuid, false) ↔ IsLegacy uuid text := by
  constructor
  · intro h
    simp only [parseIdentity] at h
    split at h
    · split at h <;> cases h
    · split at h
      · rename_i hvalid
        obtain ⟨rfl, -⟩ := Prod.mk.inj (Option.some.inj h)
        refine ⟨hvalid, text.rtakeWhile isNewline,
          List.rdropWhile_append_rtakeWhile.symm, ?_⟩
        exact fun b hb => List.mem_rtakeWhile_imp hb
      · cases h
  · intro h
    have hmarked : (text.length == uuidSize + identityMarker.length
        && text.drop uuidSize == identityMarker) = false := by
      rw [Bool.eq_false_iff]
      intro hmarked
      rw [Bool.and_eq_true, beq_iff_eq, beq_iff_eq] at hmarked
      refine legacy_ne_marked (u := text.take uuidSize) h ?_
      rw [← hmarked.2, List.take_append_drop]
    simp [parseIdentity, hmarked, rdropWhile_legacy h, h.1]

/-- The UUID of a marked file is read back. -/
theorem manifest_injective {u v : Bytes} (h : manifest u = manifest v) : u = v :=
  List.append_cancel_right h

/-! ## The key record -/

theorem length_keyRecord {uuid : Bytes} (hlength : uuid.length = uuidSize) (publicKey : PublicKey)
    (privateKey : PrivateKey) : (keyRecord uuid publicKey privateKey).length = keyFileSize := by
  simp only [keyRecord, keyFileSize, List.length_append, hlength, List.Vector.toList_length]

/-- The bytes that are copied are those of the record. -/
theorem toList_copyN {n offset : ℕ} {record : Bytes} (h : offset + n ≤ record.length) :
    (copyN n offset record).toList = (record.drop offset).take n := by
  rw [copyN, List.Vector.toList_ofFn]
  refine List.ext_getElem (by simp; omega) (fun i h₁ h₂ => ?_)
  have hi : offset + i < record.length := by
    rw [List.length_ofFn] at h₁
    omega
  simp [List.getD, hi]

/-- A field that stands in a record is copied out of it. -/
theorem copyN_append {n : ℕ} (before : Bytes) (field : List.Vector UInt8 n) (after : Bytes) :
    copyN n before.length (before ++ field.toList ++ after) = field := by
  refine List.Vector.toList_injective ?_
  rw [toList_copyN (by simp), List.append_assoc, List.drop_left,
    List.take_left' (List.Vector.toList_length field)]

/-- A record of the right size is its fields. -/
theorem eq_fields {record : Bytes} (hsize : record.length = keyFileSize) :
    record = record.take keyMagic.length ++ (record.drop keyMagic.length).take uuidSize
      ++ (copyN 32 (keyMagic.length + uuidSize) record).toList
      ++ (copyN 64 (keyMagic.length + uuidSize + 32) record).toList := by
  have hsize' : record.length = keyMagic.length + uuidSize + 32 + 64 := hsize
  rw [toList_copyN (by omega), toList_copyN (by omega)]
  have hrest : ((record.drop (keyMagic.length + uuidSize + 32)).take 64)
      = record.drop (keyMagic.length + uuidSize + 32) :=
    List.take_of_length_le (by rw [List.length_drop]; omega)
  rw [hrest, ← List.take_add, ← List.take_add, List.take_append_drop]

/-- **A key record that passes its checks** is the record of the identity,
and its pair is one that libsodium derives again. -/
theorem parseKeyRecord_eq_ok {sodium : Sodium} {uuid record : Bytes} {identity : DeviceIdentity}
    (hlength : uuid.length = uuidSize) :
    parseKeyRecord sodium uuid record = .ok identity ↔
      record = keyRecord uuid identity.publicKey identity.privateKey
        ∧ identity.deviceId = uuid
        ∧ sodium.derive identity.privateKey = some (identity.publicKey, identity.privateKey) := by
  constructor
  · intro h
    simp only [parseKeyRecord] at h
    split at h
    · cases h
    rename_i hformat
    simp only [not_or, not_not] at hformat
    obtain ⟨hsize, hmagic, huuid⟩ := hformat
    split at h
    · rename_i hderive
      obtain rfl := Except.ok.inj h
      refine ⟨?_, rfl, hderive⟩
      have hfields := eq_fields hsize
      rwa [hmagic, huuid] at hfields
    · cases h
  · rintro ⟨rfl, rfl, hderive⟩
    obtain ⟨uuid, pk, sk⟩ := identity
    have hsize := length_keyRecord hlength pk sk
    have hmagic : (keyRecord uuid pk sk).take keyMagic.length = keyMagic := by
      simp only [keyRecord, List.append_assoc, List.take_left]
    have huuid : ((keyRecord uuid pk sk).drop keyMagic.length).take uuidSize = uuid := by
      simp only [keyRecord, List.append_assoc, List.drop_left]
      exact List.take_left' hlength
    have hpk : copyN 32 (keyMagic.length + uuidSize) (keyRecord uuid pk sk) = pk := by
      rw [← hlength, ← List.length_append]
      exact copyN_append ..
    have hsk : copyN 64 (keyMagic.length + uuidSize + 32) (keyRecord uuid pk sk) = sk := by
      have hbefore : (keyMagic ++ uuid ++ pk.toList).length = keyMagic.length + uuidSize + 32 := by
        simp only [List.length_append, hlength, List.Vector.toList_length]
      have hcopy := copyN_append (keyMagic ++ uuid ++ pk.toList) sk []
      rwa [hbefore, List.append_nil] at hcopy
    simp only [parseKeyRecord, hsize, hmagic, huuid, hpk, hsk, ne_eq, not_true_eq_false, or_self,
      if_false]
    exact if_pos hderive

theorem keyRecord_injective {uuid : Bytes} {pk pk' : PublicKey} {sk sk' : PrivateKey}
    (h : keyRecord uuid pk sk = keyRecord uuid pk' sk') : pk = pk' ∧ sk = sk' := by
  simp only [keyRecord, List.append_assoc] at h
  have hkeys := List.append_cancel_left (List.append_cancel_left h)
  have hpk := List.append_inj_left hkeys (by simp)
  have hsk := List.append_inj_right hkeys (by simp)
  exact ⟨List.Vector.toList_injective hpk, List.Vector.toList_injective hsk⟩

end Gasoline
