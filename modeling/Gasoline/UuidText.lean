import Gasoline.IdentityFormats
import Gasoline.TrustRecords

/-!
# UUIDs as text

The trust store keeps a UUID as sixteen bytes and writes it in lower case;
a device keeps its own as the text it was given, of either case. Reading a
text and writing it again is lower-casing it
(`trustUuidToString_fromString`), so a peer's UUID is always seen in lower
case, whatever the peer's own file says.
-/

namespace Gasoline

/-- The lambda `hex` of `trust_uuid_from_string`. -/
def hexValue (c : UInt8) : Except StoreError UInt8 :=
  if 48 ≤ c ∧ c ≤ 57 then .ok (c - 48)
  else if 97 ≤ c ∧ c ≤ 102 then .ok (c - 97 + 10)
  else if 65 ≤ c ∧ c ≤ 70 then .ok (c - 65 + 10)
  else .error (.rejected "invalid UUID hex digit")

/-- The bytes in front of which a UUID has a separator. -/
def isSeparated (i : ℕ) : Bool := i == 4 || i == 6 || i == 8 || i == 10

/-- The loop of `trust_uuid_from_string`, from byte `i` and position `input`
on, over the `n` bytes left. -/
def readUuid (value : Bytes) (i input : ℕ) : (n : ℕ) → Except StoreError (List.Vector UInt8 n)
  | 0 => .ok .nil
  | n + 1 => do
    let input ←
      if isSeparated i then do
        require (value.getD input 0 == 45) "invalid UUID separator"
        pure (input + 1)
      else pure input
    let high ← hexValue (value.getD input 0)
    let low ← hexValue (value.getD (input + 1) 0)
    let rest ← readUuid value (i + 1) (input + 2) n
    return ((high <<< 4) ||| low) ::ᵥ rest

/-- `trust_uuid_from_string`. -/
def trustUuidFromString (value : Bytes) : Except StoreError TrustUuid := do
  require (value.length == 36) "UUID must have 36 characters"
  readUuid value 0 0 16

/-- The text of one byte of a UUID. -/
def writeByte (i : ℕ) (b : UInt8) : Bytes :=
  (if isSeparated i then [45] else [] : Bytes) ++ [hexDigit (b >>> 4), hexDigit (b &&& 15)]

/-- The loop of `trust_uuid_to_string`, from byte `i` on. -/
def writeUuid (i : ℕ) : Bytes → Bytes
  | [] => []
  | b :: rest => writeByte i b ++ writeUuid (i + 1) rest

/-- `trust_uuid_to_string`. -/
def trustUuidToString (value : TrustUuid) : Bytes := writeUuid 0 value.toList

/-! ## Reading and writing -/

/-- The lower case of a digit. -/
def lowerDigit (c : UInt8) : UInt8 := if 65 ≤ c ∧ c ≤ 70 then c + 32 else c

/-- A hexadecimal digit has a value, and the digit of it is in lower case. -/
theorem hexValue_of_isHexDigit {c : UInt8} (h : isHexDigit c = true) :
    ∃ x : Fin 16, hexValue c = .ok (UInt8.ofNat x) ∧ hexDigit (UInt8.ofNat x) = lowerDigit c := by
  have hall : ∀ n : Fin 256, isHexDigit (UInt8.ofNat n) = true → ∃ x : Fin 16,
      (hexValue (UInt8.ofNat n)).toOption = some (UInt8.ofNat x)
      ∧ hexDigit (UInt8.ofNat x) = lowerDigit (UInt8.ofNat n) := by decide +kernel
  have hc : UInt8.ofNat c.toNat = c := UInt8.ofNat_toNat
  have hcase := hall ⟨c.toNat, c.toNat_lt⟩
  simp only [hc] at hcase
  obtain ⟨x, hx, hdigit⟩ := hcase h
  refine ⟨x, ?_, hdigit⟩
  cases hvalue : hexValue c with
  | error e =>
    rw [hvalue] at hx
    cases hx
  | ok v =>
    rw [hvalue] at hx
    exact congrArg _ (Option.some.inj hx)

/-- The two digits of a byte are found again. -/
theorem digits_of_byte (x y : Fin 16) :
    ((UInt8.ofNat x <<< 4) ||| UInt8.ofNat y) >>> 4 = UInt8.ofNat x
      ∧ ((UInt8.ofNat x <<< 4) ||| UInt8.ofNat y) &&& 15 = UInt8.ofNat y := by
  revert x y
  decide +kernel

/-- The text, from byte `i` on, spells `n` bytes. -/
def Spells (i : ℕ) : ℕ → Bytes → Prop
  | 0, text => text = []
  | n + 1, text => ∃ high low rest, isHexDigit high = true ∧ isHexDigit low = true
    ∧ text = (if isSeparated i then [45] else []) ++ high :: low :: rest ∧ Spells (i + 1) n rest

/-- Where the text of byte `i` of a UUID begins. -/
def uuidPosition (i : ℕ) : ℕ := 2 * i + [4, 6, 8, 10].countP (fun j => decide (j < i))

/-- A separator and two digits, or two digits, stand there. -/
theorem uuidPosition_succ {i : ℕ} (hi : i < 16) :
    let k := uuidPosition i
    let digit := fun k => ¬ (k = 8 ∨ k = 13 ∨ k = 18 ∨ k = 23)
    if isSeparated i then
      ¬ digit k ∧ digit (k + 1) ∧ digit (k + 2) ∧ uuidPosition (i + 1) = k + 3 ∧ k + 2 < 36
    else digit k ∧ digit (k + 1) ∧ uuidPosition (i + 1) = k + 2 ∧ k + 1 < 36 := by
  interval_cases i <;> decide

theorem spells_of_isValidUuid {value : Bytes} (h : isValidUuid value = true) :
    Spells 0 16 value := by
  have hlength : value.length = 36 := length_of_isValidUuid h
  have hchar : ∀ {k}, k < 36 → _ := fun {k} hk => char_of_isValidUuid (i := k) h hk
  have hcons : ∀ {k}, k < 36 → value.drop k = value.getD k 0 :: value.drop (k + 1) := by
    intro k hk
    rw [List.drop_eq_getElem_cons (hlength ▸ hk)]
    simp [List.getD, hlength, hk]
  -- from the last byte to the first
  have hall : ∀ n i, i + n = 16 → Spells i n (value.drop (uuidPosition i)) := by
    intro n
    induction n with
    | zero =>
      rintro i rfl
      exact List.drop_eq_nil_of_le (by rw [hlength]; decide)
    | succ n ih =>
      intro i hi
      have hrest := ih (i + 1) (by omega)
      have hposition := uuidPosition_succ (show i < 16 by omega)
      simp only at hposition
      split at hposition
      · rename_i hseparated
        obtain ⟨h₀, h₁, h₂, hnext, hlt⟩ := hposition
        have c₀ := hchar (show uuidPosition i < 36 by omega)
        have c₁ := hchar (show uuidPosition i + 1 < 36 by omega)
        have c₂ := hchar hlt
        rw [if_pos (not_not.mp h₀)] at c₀
        rw [if_neg h₁] at c₁
        rw [if_neg h₂] at c₂
        refine ⟨_, _, _, c₁, c₂, ?_, hnext ▸ hrest⟩
        rw [hcons (by omega), hcons (by omega), hcons (by omega), c₀, hseparated]
        rfl
      · rename_i hseparated
        obtain ⟨h₀, h₁, hnext, hlt⟩ := hposition
        have c₀ := hchar (show uuidPosition i < 36 by omega)
        have c₁ := hchar hlt
        rw [if_neg h₀] at c₀
        rw [if_neg h₁] at c₁
        refine ⟨_, _, _, c₀, c₁, ?_, hnext ▸ hrest⟩
        rw [hcons (by omega), hcons (by omega), if_neg hseparated]
        rfl
  exact hall 16 0 rfl

/-- Reading a text and writing it again lower-cases it. -/
theorem readUuid_of_spells {value : Bytes} {i input n : ℕ} (h : Spells i n (value.drop input)) :
    ∃ v, readUuid value i input n = .ok v
      ∧ writeUuid i v.toList = (value.drop input).map lowerDigit := by
  induction n generalizing i input with
  | zero => exact ⟨.nil, rfl, by rw [show value.drop input = [] from h]; rfl⟩
  | succ n ih =>
    obtain ⟨high, low, rest, hhigh, hlow, htext, hrest⟩ := h
    obtain ⟨x, hx, hxdigit⟩ := hexValue_of_isHexDigit hhigh
    obtain ⟨y, hy, hydigit⟩ := hexValue_of_isHexDigit hlow
    obtain ⟨hxy, hyx⟩ := digits_of_byte x y
    have hget : ∀ k, value.getD (input + k) 0 = (value.drop input).getD k 0 := by
      intro k
      simp [List.getD_eq_getElem?_getD]
    have hdrop : ∀ k, value.drop (input + k) = (value.drop input).drop k := by
      intro k
      rw [List.drop_drop]
    cases hseparated : isSeparated i with
    | true =>
      rw [hseparated, if_pos rfl] at htext
      have hnext : value.drop (input + 1 + 2) = rest := by
        rw [Nat.add_assoc, hdrop, htext]
        rfl
      have hspells : Spells (i + 1) n (value.drop (input + 1 + 2)) := hnext ▸ hrest
      obtain ⟨v, hv, hwrite⟩ := ih hspells
      refine ⟨((UInt8.ofNat x <<< 4) ||| UInt8.ofNat y) ::ᵥ v, ?_, ?_⟩
      · have h₀ : value.getD input 0 = 45 := (hget 0).trans (by rw [htext]; rfl)
        have h₁ : value.getD (input + 1) 0 = high := (hget 1).trans (by rw [htext]; rfl)
        have h₂ : value.getD (input + 1 + 1) 0 = low := (hget 2).trans (by rw [htext]; rfl)
        simp only [readUuid, hseparated, if_true, h₀, BEq.rfl, require, ok_bind, pure_bind, h₁, h₂,
          hx, hy, hv]
        rfl
      · rw [htext, List.Vector.toList_cons, writeUuid, writeByte, hseparated, hxy, hyx, hxdigit,
          hydigit, hwrite, hnext]
        rfl
    | false =>
      rw [hseparated] at htext
      have hnext : value.drop (input + 2) = rest := by
        rw [hdrop, htext]
        rfl
      have hspells : Spells (i + 1) n (value.drop (input + 2)) := hnext ▸ hrest
      obtain ⟨v, hv, hwrite⟩ := ih hspells
      refine ⟨((UInt8.ofNat x <<< 4) ||| UInt8.ofNat y) ::ᵥ v, ?_, ?_⟩
      · have h₀ : value.getD input 0 = high := (hget 0).trans (by rw [htext]; rfl)
        have h₁ : value.getD (input + 1) 0 = low := (hget 1).trans (by rw [htext]; rfl)
        simp only [readUuid, hseparated, Bool.false_eq_true, if_false, pure_bind, ok_bind, h₀, h₁,
          hx, hy, hv]
        rfl
      · rw [htext, List.Vector.toList_cons, writeUuid, writeByte, hseparated, hxy, hyx, hxdigit,
          hydigit, hwrite, hnext]
        rfl

/-- **A device is seen by its peer in lower case.** -/
theorem trustUuidToString_fromString {value : Bytes} (h : isValidUuid value = true) :
    ∃ uuid, trustUuidFromString value = .ok uuid
      ∧ trustUuidToString uuid = value.map lowerDigit := by
  have hspells : Spells 0 16 (value.drop 0) := spells_of_isValidUuid h
  obtain ⟨uuid, hread, hwrite⟩ := readUuid_of_spells hspells
  refine ⟨uuid, ?_, hwrite⟩
  have hlength : value.length = 36 := length_of_isValidUuid h
  simp only [trustUuidFromString, hlength]
  exact hread

theorem byte_of_digits {b c : UInt8} (hhigh : hexDigit (b >>> 4) = hexDigit (c >>> 4))
    (hlow : hexDigit (b &&& 15) = hexDigit (c &&& 15)) : b = c := by
  let value : UInt8 → UInt8 → UInt8 := fun high low =>
    ((hexValue high).toOption.getD 0 <<< 4) ||| (hexValue low).toOption.getD 0
  have hall : ∀ n : Fin 256, value (hexDigit (UInt8.ofNat n >>> 4)) (hexDigit (UInt8.ofNat n &&& 15))
      = UInt8.ofNat n := by decide +kernel
  have hvalue : ∀ b : UInt8, value (hexDigit (b >>> 4)) (hexDigit (b &&& 15)) = b := by
    intro b
    have hb := hall ⟨b.toNat, b.toNat_lt⟩
    simp only [UInt8.ofNat_toNat] at hb
    exact hb
  rw [← hvalue b, ← hvalue c, hhigh, hlow]

theorem writeUuid_injective {i : ℕ} {xs ys : Bytes} (hlength : xs.length = ys.length)
    (h : writeUuid i xs = writeUuid i ys) : xs = ys := by
  induction xs generalizing i ys with
  | nil => exact (List.length_eq_zero_iff.mp hlength.symm).symm
  | cons x xs ih =>
    obtain ⟨y, ys, rfl⟩ := List.exists_cons_of_length_eq_add_one hlength.symm
    simp only [writeUuid, writeByte, List.append_assoc, List.append_cancel_left_eq] at h
    obtain ⟨hhigh, h⟩ := List.cons.inj h
    obtain ⟨hlow, hrest⟩ := List.cons.inj h
    rw [byte_of_digits hhigh hlow, ih (Nat.succ.inj hlength) hrest]

theorem trustUuidToString_injective : Function.Injective trustUuidToString :=
  fun u v h => List.Vector.toList_injective
    (writeUuid_injective (u.toList_length.trans v.toList_length.symm) h)

end Gasoline
