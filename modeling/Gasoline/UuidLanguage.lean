import Gasoline.UuidOrder

/-!
# One UUID language

Three parts of the program decide on their own whether a text is a UUID:
the identity file and the discovery client walk along the characters and
know where the separators stand, while the trust store walks along the
sixteen bytes and moves a cursor over the text. Two others write UUIDs. The
texts go from one to the other, so they had better agree.

They do. `Spells` is what the trust store's loop looks for and
`isValidUuid` what the others do; `isValidUuid_of_spells` and
`spells_of_readUuid` close the circle that `spells_of_isValidUuid` and
`readUuid_of_spells` began. Along the way it is seen that the cursor never
leaves the text, which the loop itself does not check.
-/

namespace Gasoline

namespace DiscoveryClient

/-- `is_hex_digit` of the discovery client. -/
def isHexDigit (value : UInt8) : Bool :=
  (decide (48 ≤ value) && decide (value ≤ 57)) || (decide (97 ≤ value) && decide (value ≤ 102))
    || (decide (65 ≤ value) && decide (value ≤ 70))

/-- `is_valid_uuid` of the discovery client. -/
def isValidUuid (value : Bytes) : Bool :=
  if value.length ≠ 36 then false
  else value.zipIdx.all (fun p =>
    if p.2 = 8 ∨ p.2 = 13 ∨ p.2 = 18 ∨ p.2 = 23 then p.1 == 45 else isHexDigit p.1)

end DiscoveryClient

/-! ## Accesses to the text -/

/-- `value[k]`, where an access outside the text is an error of its own. -/
def checkedAt (value : Bytes) (k : ℕ) : Except (Option StoreError) UInt8 :=
  match value[k]? with
  | some c => .ok c
  | none => .error none

/-- The loop of `trust_uuid_from_string`, with every access checked. -/
def readUuidChecked (value : Bytes) (i input : ℕ) :
    (n : ℕ) → Except (Option StoreError) (List.Vector UInt8 n)
  | 0 => .ok .nil
  | n + 1 => do
    let input ←
      if isSeparated i then do
        let separator ← checkedAt value input
        (require (separator == 45) "invalid UUID separator").mapError some
        pure (input + 1)
      else pure input
    let high ← checkedAt value input
    let high ← (hexValue high).mapError some
    let low ← checkedAt value (input + 1)
    let low ← (hexValue low).mapError some
    let rest ← readUuidChecked value (i + 1) (input + 2) n
    return ((high <<< 4) ||| low) ::ᵥ rest

/-- `trust_uuid_from_string`, with every access checked. -/
def trustUuidFromStringChecked (value : Bytes) : Except (Option StoreError) TrustUuid := do
  (require (value.length == 36) "UUID must have 36 characters").mapError some
  readUuidChecked value 0 0 16

/-- How long the text of `n` bytes is, from byte `i` on. -/
def uuidLength (i : ℕ) : ℕ → ℕ
  | 0 => 0
  | n + 1 => (if isSeparated i then 1 else 0) + 2 + uuidLength (i + 1) n

theorem checkedAt_of_lt {value : Bytes} {k : ℕ} (h : k < value.length) :
    checkedAt value k = .ok (value.getD k 0) := by
  simp [checkedAt, List.getD_eq_getElem?_getD, h]

theorem mapError_bind {ε δ α β : Type} (g : ε → δ) (x : Except ε α) (f : α → Except ε β) :
    (x >>= f).mapError g = x.mapError g >>= fun a => (f a).mapError g := by
  cases x <;> rfl

/-- **The cursor stays in the text**: the checks make no difference. -/
theorem readUuidChecked_eq {value : Bytes} {i input n : ℕ}
    (h : input + uuidLength i n ≤ value.length) :
    readUuidChecked value i input n = (readUuid value i input n).mapError some := by
  induction n generalizing i input with
  | zero => rfl
  | succ n ih =>
    rw [uuidLength] at h
    cases hseparated : isSeparated i with
    | true =>
      rw [hseparated, if_pos rfl] at h
      simp only [readUuidChecked, readUuid, hseparated, if_true, mapError_bind,
        checkedAt_of_lt (show input < value.length by omega),
        checkedAt_of_lt (show input + 1 < value.length by omega),
        checkedAt_of_lt (show input + 1 + 1 < value.length by omega),
        ih (show input + 1 + 2 + uuidLength (i + 1) n ≤ value.length by omega), ok_bind, pure_bind]
      rfl
    | false =>
      rw [hseparated] at h
      simp only [Bool.false_eq_true, if_false] at h
      simp only [readUuidChecked, readUuid, hseparated, Bool.false_eq_true, if_false, mapError_bind,
        checkedAt_of_lt (show input < value.length by omega),
        checkedAt_of_lt (show input + 1 < value.length by omega),
        ih (show input + 2 + uuidLength (i + 1) n ≤ value.length by omega), ok_bind, pure_bind]
      rfl

/-- **`trust_uuid_from_string` never reads outside its argument.** -/
theorem trustUuidFromStringChecked_eq (value : Bytes) :
    trustUuidFromStringChecked value = (trustUuidFromString value).mapError some := by
  unfold trustUuidFromStringChecked trustUuidFromString
  rw [mapError_bind]
  by_cases hlength : value.length = 36
  · have hread : readUuidChecked value 0 0 16 = (readUuid value 0 0 16).mapError some :=
      readUuidChecked_eq (by rw [hlength]; decide)
    rw [hread]
  · have hrefused : (value.length == 36) = false := by simpa using hlength
    rw [hrefused]
    rfl

/-! ## What the validators accept -/

/-- **The two validators that walk along the characters agree.** -/
theorem discovery_isValidUuid_eq (value : Bytes) :
    DiscoveryClient.isValidUuid value = isValidUuid value := by
  unfold DiscoveryClient.isValidUuid isValidUuid uuidSize
  by_cases hlength : value.length = 36
  · rw [if_neg (not_not.mpr hlength), hlength, BEq.rfl, Bool.true_and, Bool.eq_iff_iff,
      List.all_eq_true, List.all_eq_true]
    constructor
    · intro h i hi
      have hget : value[i]? = some (value.getD i 0) := by
        simp [List.getD, hlength, List.mem_range.mp hi]
      exact h (value.getD i 0, i) (List.mem_zipIdx_iff_getElem?.mpr hget)
    · intro h p hp
      have hget : value[p.2]? = some p.1 := List.mem_zipIdx_iff_getElem?.mp hp
      have hlt : p.2 < 36 := hlength ▸ (List.getElem?_eq_some_iff.mp hget).1
      have hchar := h p.2 (List.mem_range.mpr hlt)
      rw [List.getD_eq_getElem?_getD, hget] at hchar
      exact hchar
  · rw [if_pos hlength, beq_false_of_ne hlength]
    rfl

theorem isHexDigit_of_hexValue {c x : UInt8} (h : hexValue c = .ok x) : isHexDigit c = true := by
  unfold hexValue at h
  unfold isHexDigit
  split at h
  · simp_all
  split at h
  · simp_all
  split at h
  · simp_all
  · cases h

/-- **What the trust store's loop accepts spells bytes.** -/
theorem spells_of_readUuid {value : Bytes} {i input n : ℕ} {v : List.Vector UInt8 n}
    (h : readUuid value i input n = .ok v) (hlength : value.length = input + uuidLength i n) :
    Spells i n (value.drop input) := by
  have hcons : ∀ {k}, k < value.length → value.drop k = value.getD k 0 :: value.drop (k + 1) := by
    intro k hk
    rw [List.drop_eq_getElem_cons hk]
    simp [List.getD, hk]
  induction n generalizing i input with
  | zero => exact List.drop_eq_nil_of_le (by rw [hlength]; exact le_rfl)
  | succ n ih =>
    rw [uuidLength] at hlength
    unfold readUuid at h
    cases hseparated : isSeparated i with
    | true =>
      simp only [hseparated, if_true, pure_bind] at h hlength
      obtain ⟨hdash, h⟩ := require_bind_eq_ok.mp h
      obtain ⟨high, hhigh, h⟩ := bind_eq_ok.mp h
      obtain ⟨low, hlow, h⟩ := bind_eq_ok.mp h
      obtain ⟨rest, hrest, -⟩ := bind_eq_ok.mp h
      refine ⟨_, _, _, isHexDigit_of_hexValue hhigh, isHexDigit_of_hexValue hlow, ?_,
        ih hrest (by omega)⟩
      rw [hcons (by omega), hcons (by omega), hcons (by omega), eq_of_beq hdash, hseparated]
      rfl
    | false =>
      simp only [hseparated, Bool.false_eq_true, if_false, pure_bind] at h hlength
      obtain ⟨high, hhigh, h⟩ := bind_eq_ok.mp h
      obtain ⟨low, hlow, h⟩ := bind_eq_ok.mp h
      obtain ⟨rest, hrest, -⟩ := bind_eq_ok.mp h
      refine ⟨_, _, _, isHexDigit_of_hexValue hhigh, isHexDigit_of_hexValue hlow, ?_,
        ih hrest (by omega)⟩
      rw [hcons (by omega), hcons (by omega), hseparated]
      rfl

/-- Where separators and digits stand in a text that spells bytes. -/
theorem char_of_spells {n i : ℕ} {text : Bytes} (h : Spells i n text) (hi : i + n ≤ 16) :
    uuidPosition i + text.length = uuidPosition (i + n)
      ∧ ∀ j < text.length,
        if uuidPosition i + j = 8 ∨ uuidPosition i + j = 13 ∨ uuidPosition i + j = 18
          ∨ uuidPosition i + j = 23 then text.getD j 0 = 45
        else isHexDigit (text.getD j 0) = true := by
  induction n generalizing i text with
  | zero =>
    obtain rfl : text = [] := h
    exact ⟨rfl, fun j hj => absurd hj (Nat.not_lt_zero j)⟩
  | succ n ih =>
    obtain ⟨high, low, rest, hhigh, hlow, rfl, hrest⟩ := h
    obtain ⟨hlen, hchars⟩ := ih hrest (by omega)
    have hposition := uuidPosition_succ (show i < 16 by omega)
    simp only at hposition
    split at hposition
    · rename_i hseparated
      obtain ⟨h₀, h₁, h₂, hnext, -⟩ := hposition
      rw [if_pos hseparated]
      refine ⟨?_, fun j hj => ?_⟩
      · rw [show i + (n + 1) = i + 1 + n from by omega, ← hlen, hnext]
        simp only [List.length_append, List.length_cons, List.length_nil]
        omega
      · match j with
        | 0 => rw [Nat.add_zero, if_pos (not_not.mp h₀)]; rfl
        | 1 => rw [if_neg h₁]; exact hhigh
        | 2 => rw [if_neg h₂]; exact hlow
        | j + 3 =>
          have hchar := hchars j (by simpa using hj)
          rw [hnext, show uuidPosition i + 3 + j = uuidPosition i + (j + 3) from by omega] at hchar
          exact hchar
    · rename_i hseparated
      obtain ⟨h₀, h₁, hnext, -⟩ := hposition
      rw [if_neg hseparated, List.nil_append]
      refine ⟨?_, fun j hj => ?_⟩
      · rw [show i + (n + 1) = i + 1 + n from by omega, ← hlen, hnext]
        simp only [List.length_cons]
        omega
      · match j with
        | 0 => rw [Nat.add_zero, if_neg h₀]; exact hhigh
        | 1 => rw [if_neg h₁]; exact hlow
        | j + 2 =>
          have hchar := hchars j (by simpa using hj)
          rw [hnext, show uuidPosition i + 2 + j = uuidPosition i + (j + 2) from by omega] at hchar
          exact hchar

/-- A text that spells sixteen bytes is a UUID. -/
theorem isValidUuid_of_spells {value : Bytes} (h : Spells 0 16 value) :
    isValidUuid value = true := by
  obtain ⟨hlength, hchars⟩ := char_of_spells h le_rfl
  have hlength : value.length = 36 := by simpa [uuidPosition] using hlength
  unfold isValidUuid
  rw [Bool.and_eq_true, List.all_eq_true]
  refine ⟨beq_iff_eq.mpr hlength, fun i hi => ?_⟩
  have hchar := hchars i (hlength ▸ List.mem_range.mp hi)
  simp only [show uuidPosition 0 = 0 from rfl, Nat.zero_add] at hchar
  split at hchar
  · rename_i hdash
    rw [if_pos hdash, hchar]
    rfl
  · rename_i hdash
    rw [if_neg hdash]
    exact hchar

/-- **The trust store accepts exactly what the others accept.** -/
theorem trustUuidFromString_isOk_iff (value : Bytes) :
    (∃ uuid, trustUuidFromString value = .ok uuid) ↔ isValidUuid value = true := by
  constructor
  · rintro ⟨uuid, h⟩
    obtain ⟨hlength, hread⟩ := require_bind_eq_ok.mp h
    have hlength : value.length = 36 := by simpa using hlength
    exact isValidUuid_of_spells (spells_of_readUuid hread hlength)
  · intro h
    obtain ⟨uuid, huuid, -⟩ := trustUuidToString_fromString h
    exact ⟨uuid, huuid⟩

/-! ## The canonical form -/

/-- The lower case of a letter. -/
def lowerLetter (c : UInt8) : UInt8 := if 65 ≤ c ∧ c ≤ 90 then c + 32 else c

/-- In a UUID every letter is a digit. -/
theorem lowerDigit_eq_lowerLetter {c : UInt8} (h : isHexDigit c = true ∨ c = 45) :
    lowerDigit c = lowerLetter c := by
  have hall : ∀ n : Fin 256, isHexDigit (UInt8.ofNat n) = true ∨ UInt8.ofNat n = 45 →
      lowerDigit (UInt8.ofNat n) = lowerLetter (UInt8.ofNat n) := by decide +kernel
  have hc := hall ⟨c.toNat, c.toNat_lt⟩
  simp only [UInt8.ofNat_toNat] at hc
  exact hc h

theorem map_lowerDigit_eq {value : Bytes} (h : isValidUuid value = true) :
    value.map lowerDigit = value.map lowerLetter := by
  refine List.map_congr_left (fun c hc => lowerDigit_eq_lowerLetter ?_)
  obtain ⟨i, hi, rfl⟩ := List.getElem_of_mem hc
  have hchar := char_of_isValidUuid h (length_of_isValidUuid h ▸ hi)
  rw [show value.getD i 0 = value[i] from by simp [List.getD, hi]] at hchar
  split at hchar
  · exact .inr hchar
  · exact .inl hchar

/-- **Reading and writing a text is lower-casing it.** -/
theorem trustUuidToString_of_fromString {value : Bytes} {uuid : TrustUuid}
    (h : trustUuidFromString value = .ok uuid) :
    trustUuidToString uuid = value.map lowerLetter := by
  have hvalid := (trustUuidFromString_isOk_iff value).mp ⟨uuid, h⟩
  obtain ⟨uuid', huuid', hwrite⟩ := trustUuidToString_fromString hvalid
  rw [h] at huuid'
  cases huuid'
  rw [hwrite, map_lowerDigit_eq hvalid]

/-- What the trust store writes spells bytes, in lower case. -/
theorem spells_writeUuid (bytes : Bytes) (i : ℕ) : Spells i bytes.length (writeUuid i bytes) := by
  induction bytes generalizing i with
  | nil => rfl
  | cons b bytes ih =>
    refine ⟨_, _, _, isHexDigit_high b, isHexDigit_low b, ?_, ih (i + 1)⟩
    rw [writeUuid, writeByte, List.append_assoc]
    rfl

/-- A digit that is written is in lower case. -/
theorem lowerDigit_hexDigit (b : UInt8) :
    lowerDigit (hexDigit (b >>> 4)) = hexDigit (b >>> 4)
      ∧ lowerDigit (hexDigit (b &&& 15)) = hexDigit (b &&& 15) := by
  have hall : ∀ n : Fin 256, lowerDigit (hexDigit (UInt8.ofNat n >>> 4)) = hexDigit (UInt8.ofNat n >>> 4)
      ∧ lowerDigit (hexDigit (UInt8.ofNat n &&& 15)) = hexDigit (UInt8.ofNat n &&& 15) := by
    decide +kernel
  have hb := hall ⟨b.toNat, b.toNat_lt⟩
  simp only [UInt8.ofNat_toNat] at hb
  exact hb

theorem map_lowerDigit_writeUuid (bytes : Bytes) (i : ℕ) :
    (writeUuid i bytes).map lowerDigit = writeUuid i bytes := by
  induction bytes generalizing i with
  | nil => rfl
  | cons b bytes ih =>
    obtain ⟨hhigh, hlow⟩ := lowerDigit_hexDigit b
    rw [writeUuid, List.map_append, ih, writeByte, List.map_append, List.map_cons, List.map_cons,
      hhigh, hlow]
    split <;> rfl

/-- **What the trust store writes, it reads back.** -/
theorem trustUuidFromString_toString (uuid : TrustUuid) :
    trustUuidFromString (trustUuidToString uuid) = .ok uuid := by
  have hspells : Spells 0 16 (trustUuidToString uuid) := by
    have h := spells_writeUuid uuid.toList 0
    rwa [uuid.toList_length] at h
  obtain ⟨uuid', hread, hwrite⟩ := trustUuidToString_fromString (isValidUuid_of_spells hspells)
  rw [show (trustUuidToString uuid).map lowerDigit = trustUuidToString uuid from
    map_lowerDigit_writeUuid uuid.toList 0] at hwrite
  rw [hread, trustUuidToString_injective hwrite]

/-! ## Generated UUIDs -/

/-- The random bytes with the version and the variant set. -/
def stampUuid (random : List.Vector UInt8 16) : TrustUuid :=
  (random.set 6 ((random.get 6 &&& 0x0F) ||| 0x40)).set 8 ((random.get 8 &&& 0x3F) ||| 0x80)

/-- **A generated UUID is the canonical text of stamped bytes.** -/
theorem generateUuid_eq (random : List.Vector UInt8 16) :
    generateUuid random = trustUuidToString (stampUuid random) := by
  obtain ⟨bytes, hlength⟩ := random
  match bytes, hlength with
  | [b₀, b₁, b₂, b₃, b₄, b₅, b₆, b₇, b₈, b₉, b₁₀, b₁₁, b₁₂, b₁₃, b₁₄, b₁₅], _ => rfl

/-- The version and the variant of the stamped bytes. -/
theorem stampUuid_version (random : List.Vector UInt8 16) :
    (stampUuid random).get 6 >>> 4 = 4 ∧ (stampUuid random).get 8 >>> 6 = 2 := by
  have hall : ∀ n : Fin 256, ((UInt8.ofNat n &&& 0x0F) ||| 0x40) >>> 4 = 4
      ∧ ((UInt8.ofNat n &&& 0x3F) ||| 0x80) >>> 6 = 2 := by decide +kernel
  have hbyte : ∀ b : UInt8, ((b &&& 0x0F) ||| 0x40) >>> 4 = 4 ∧ ((b &&& 0x3F) ||| 0x80) >>> 6 = 2 := by
    intro b
    have hb := hall ⟨b.toNat, b.toNat_lt⟩
    simp only [UInt8.ofNat_toNat] at hb
    exact hb
  unfold stampUuid
  rw [List.Vector.get_set_same, List.Vector.get_set_of_ne (by decide), List.Vector.get_set_same]
  exact ⟨(hbyte _).1, (hbyte _).2⟩

/-- **One UUID language, one canonical form.** -/
theorem uuid_language :
    (∀ s, ((∃ uuid, trustUuidFromString s = .ok uuid) ↔ isValidUuid s = true)
        ∧ (isValidUuid s = true ↔ DiscoveryClient.isValidUuid s = true)
        ∧ trustUuidFromStringChecked s = (trustUuidFromString s).mapError some)
      ∧ (∀ b, trustUuidFromString (trustUuidToString b) = .ok b)
      ∧ (∀ s uuid, trustUuidFromString s = .ok uuid → trustUuidToString uuid = s.map lowerLetter)
      ∧ (∀ s s' uuid uuid', trustUuidFromString s = .ok uuid → trustUuidFromString s' = .ok uuid' →
          (uuid = uuid' ↔ s.map lowerLetter = s'.map lowerLetter))
      ∧ ∀ random, ∃ uuid, trustUuidFromString (generateUuid random) = .ok uuid
          ∧ trustUuidToString uuid = generateUuid random
          ∧ uuid.get 6 >>> 4 = 4 ∧ uuid.get 8 >>> 6 = 2 := by
  refine ⟨fun s => ⟨trustUuidFromString_isOk_iff s, ?_, trustUuidFromStringChecked_eq s⟩,
    trustUuidFromString_toString, fun s uuid h => trustUuidToString_of_fromString h, ?_, ?_⟩
  · rw [discovery_isValidUuid_eq]
  · intro s s' uuid uuid' h h'
    rw [← trustUuidToString_of_fromString h, ← trustUuidToString_of_fromString h']
    exact trustUuidToString_injective.eq_iff.symm
  · intro random
    refine ⟨stampUuid random, ?_, (generateUuid_eq random).symm, stampUuid_version random⟩
    rw [generateUuid_eq, trustUuidFromString_toString]

/-- Two spellings of one UUID. -/
theorem uuid_language_spellings :
    ∃ uuid uuid',
      trustUuidFromString (ascii "0F8FAD5B-D9CB-469F-A165-70867728950E") = .ok uuid
      ∧ trustUuidFromString (ascii "0f8fad5b-d9cb-469f-a165-70867728950e") = .ok uuid'
      ∧ uuid = uuid' := by
  obtain ⟨hlanguage, -, -, hsame, -⟩ := uuid_language
  obtain ⟨uuid, huuid⟩ :=
    (hlanguage (ascii "0F8FAD5B-D9CB-469F-A165-70867728950E")).1.mpr (by decide +kernel)
  obtain ⟨uuid', huuid'⟩ :=
    (hlanguage (ascii "0f8fad5b-d9cb-469f-a165-70867728950e")).1.mpr (by decide +kernel)
  exact ⟨uuid, uuid', huuid, huuid', (hsame _ _ _ _ huuid huuid').mpr (by decide +kernel)⟩

end Gasoline
