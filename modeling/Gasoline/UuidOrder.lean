import Gasoline.UuidText

/-!
# Comparing UUIDs as text

A device compares the text of its own UUID, as it is on its disk, with the
text of its peer's, which is in lower case. In ASCII the letters in upper
case come between the decimal digits and the letters in lower case, so the
outcome depends on the case of the text and not on the UUID alone.

The smaller of two UUIDs is found to be smaller in either case
(`lt_lower_of_lower_lt`). The larger one is found to be larger exactly where
its text shows it (`lt_lower_iff`).
-/

namespace Gasoline

/-- A digit in upper case. -/
def isUpperDigit (c : UInt8) : Bool := decide (65 ≤ c) && decide (c ≤ 70)

/-- A decimal digit. -/
def isDecimalDigit (c : UInt8) : Bool := decide (48 ≤ c) && decide (c ≤ 57)

/-- **The larger UUID shows that it is larger**: as far as the two texts
agree but for case, it has no letter in upper case; and where they first
differ it has one only where the other has a decimal digit. -/
def Telling (larger smaller : Bytes) : Prop :=
  ∀ i, (∀ j < i, lowerDigit (larger.getD j 0) = lowerDigit (smaller.getD j 0)) →
    isUpperDigit (larger.getD i 0) = true → isDecimalDigit (smaller.getD i 0) = true

/-- The two characters are digits, or dashes. -/
def Aligned (x y : UInt8) : Prop :=
  (isHexDigit x = true ∧ isHexDigit y = true) ∨ (x = 45 ∧ y = 45)

theorem lowerDigit_of_upper {x : UInt8} (h : isUpperDigit x = true) :
    65 ≤ x.toNat ∧ x.toNat ≤ 70 ∧ (lowerDigit x).toNat = x.toNat + 32 := by
  rw [isUpperDigit, Bool.and_eq_true, decide_eq_true_eq, decide_eq_true_eq, UInt8.le_iff_toNat_le,
    UInt8.le_iff_toNat_le] at h
  have h₁ : 65 ≤ x.toNat := h.1
  have h₂ : x.toNat ≤ 70 := h.2
  refine ⟨h₁, h₂, ?_⟩
  rw [lowerDigit, if_pos ⟨UInt8.le_iff_toNat_le.mpr h₁, UInt8.le_iff_toNat_le.mpr h₂⟩,
    UInt8.toNat_add]
  show (x.toNat + 32) % 256 = _
  omega

/-- Any other character is its own lower case. -/
theorem lowerDigit_of_not_upper {x : UInt8} (h : isUpperDigit x = false) : lowerDigit x = x := by
  rw [lowerDigit, if_neg]
  rintro ⟨h₁, h₂⟩
  rw [isUpperDigit, decide_eq_true h₁, decide_eq_true h₂] at h
  cases h

theorem lowerDigit_lowerDigit (c : UInt8) : lowerDigit (lowerDigit c) = lowerDigit c := by
  cases hupper : isUpperDigit c with
  | false => rw [lowerDigit_of_not_upper hupper, lowerDigit_of_not_upper hupper]
  | true =>
    obtain ⟨hc, -, hlower⟩ := lowerDigit_of_upper hupper
    refine lowerDigit_of_not_upper (Bool.eq_false_iff.mpr (fun hagain => ?_))
    have hle := (lowerDigit_of_upper hagain).2.1
    omega

/-- A hexadecimal digit is a decimal digit or, in lower case, a letter. -/
theorem letter_of_isHexDigit {y : UInt8} (h : isHexDigit y = true)
    (hdecimal : isDecimalDigit y = false) : 97 ≤ (lowerDigit y).toNat := by
  cases hupper : isUpperDigit y with
  | true =>
    obtain ⟨h₁, -, h₂⟩ := lowerDigit_of_upper hupper
    omega
  | false =>
    rw [lowerDigit_of_not_upper hupper]
    simp only [isHexDigit, isUpperDigit, isDecimalDigit, Bool.or_eq_true, Bool.and_eq_true,
      decide_eq_true_eq, Bool.and_eq_false_iff, decide_eq_false_iff_not] at h hupper hdecimal
    simp only [UInt8.le_iff_toNat_le, UInt8.reduceToNat] at h hupper hdecimal
    omega

theorem decimal_toNat {y : UInt8} (h : isDecimalDigit y = true) :
    y.toNat ≤ 57 ∧ lowerDigit y = y := by
  rw [isDecimalDigit, Bool.and_eq_true, decide_eq_true_eq, decide_eq_true_eq,
    UInt8.le_iff_toNat_le, UInt8.le_iff_toNat_le] at h
  have h₂ : y.toNat ≤ 57 := h.2
  refine ⟨h₂, lowerDigit_of_not_upper ?_⟩
  cases hupper : isUpperDigit y with
  | false => rfl
  | true =>
    have := (lowerDigit_of_upper hupper).1
    omega

theorem lt_or_gt_of_ne {xs ys : Bytes} (h : xs ≠ ys) : xs < ys ∨ ys < xs := by
  by_contra hnot
  obtain ⟨hxs, hys⟩ := not_or.mp hnot
  exact h (List.le_antisymm hys hxs)

/-- The first characters, and the others where these agree. -/
theorem telling_cons {x y : UInt8} {xs ys : Bytes} :
    Telling (x :: xs) (y :: ys) ↔ (isUpperDigit x = true → isDecimalDigit y = true)
      ∧ (lowerDigit x = lowerDigit y → Telling xs ys) := by
  constructor
  · intro h
    refine ⟨h 0 (by simp), fun heq i hi => h (i + 1) ?_⟩
    rintro (_ | j) hj
    · exact heq
    · exact hi j (by omega)
  · rintro ⟨hhead, htail⟩ (_ | i) hi
    · exact hhead
    · exact htail (hi 0 (by omega)) i (fun j hj => hi (j + 1) (by omega))

/-- The smaller UUID is smaller than the other in lower case, whatever its own
case. -/
theorem lt_lower_of_lower_lt {xs ys : Bytes} (halign : List.Forall₂ Aligned xs ys)
    (h : xs.map lowerDigit < ys.map lowerDigit) : xs < ys.map lowerDigit := by
  induction halign with
  | nil => exact absurd h (List.lt_irrefl _)
  | @cons x y xs ys hxy _ ih =>
    rw [List.map_cons, List.map_cons, List.cons_lt_cons_iff] at h
    rw [List.map_cons, List.cons_lt_cons_iff]
    cases hupper : isUpperDigit x with
    | true =>
      obtain ⟨-, -, hlower⟩ := lowerDigit_of_upper hupper
      left
      rcases h with h | ⟨h, -⟩
      · rw [UInt8.lt_iff_toNat_lt] at h ⊢
        omega
      · rw [← h, UInt8.lt_iff_toNat_lt]
        omega
    | false =>
      rw [lowerDigit_of_not_upper hupper] at h
      exact h.imp id (fun h => ⟨h.1, ih h.2⟩)

/-- **The larger UUID is not smaller than the other in lower case exactly
where it shows that it is larger.** -/
theorem lt_lower_iff {xs ys : Bytes} (halign : List.Forall₂ Aligned xs ys)
    (h : ys.map lowerDigit < xs.map lowerDigit) : xs < ys.map lowerDigit ↔ ¬ Telling xs ys := by
  induction halign with
  | nil => exact absurd h (List.lt_irrefl _)
  | @cons x y xs ys hxy _ ih =>
    rw [List.map_cons, List.map_cons, List.cons_lt_cons_iff] at h
    rw [List.map_cons, List.cons_lt_cons_iff, telling_cons]
    cases hupper : isUpperDigit x with
    | true =>
      obtain ⟨hx, hx', hlower⟩ := lowerDigit_of_upper hupper
      cases hdecimal : isDecimalDigit y with
      | true =>
        -- an upper-case letter is larger than a decimal digit
        obtain ⟨hy, hsame⟩ := decimal_toNat hdecimal
        have hne : lowerDigit x ≠ lowerDigit y := by
          intro heq
          have := congrArg UInt8.toNat heq
          rw [hsame] at this
          omega
        rw [hsame, UInt8.lt_iff_toNat_lt]
        constructor
        · rintro (hlt | ⟨rfl, -⟩)
          · omega
          · omega
        · intro hnot
          exact absurd ⟨fun _ => rfl, fun heq => absurd (heq.trans hsame.symm) hne⟩ hnot
      | false =>
        -- and smaller than a letter in lower case
        refine ⟨fun _ htelling => ?_, fun _ => .inl ?_⟩
        · cases htelling.1 rfl
        · have hy : 97 ≤ (lowerDigit y).toNat := by
            rcases hxy with ⟨-, hy⟩ | ⟨rfl, -⟩
            · exact letter_of_isHexDigit hy hdecimal
            · cases hupper
          rw [UInt8.lt_iff_toNat_lt]
          omega
    | false =>
      rw [lowerDigit_of_not_upper hupper] at h ⊢
      rcases h with h | ⟨h, htail⟩
      · constructor
        · rintro (hlt | ⟨rfl, -⟩)
          · exact absurd hlt (UInt8.lt_asymm h)
          · exact absurd h (UInt8.lt_irrefl _)
        · intro hnot
          refine absurd ⟨fun hfalse => (by cases hfalse), fun heq => ?_⟩ hnot
          rw [heq] at h
          exact absurd h (UInt8.lt_irrefl _)
      · rw [h]
        constructor
        · rintro (hlt | ⟨-, hlt⟩) ⟨-, htelling⟩
          · exact absurd hlt (UInt8.lt_irrefl _)
          · exact (ih htail).mp hlt (htelling rfl)
        · intro hnot
          refine .inr ⟨rfl, (ih htail).mpr (fun htelling => hnot ⟨fun hfalse => (by cases hfalse),
            fun _ => htelling⟩)⟩

/-- Two UUIDs have their dashes at the same places. -/
theorem aligned_of_isValidUuid {u v : Bytes} (hu : isValidUuid u = true)
    (hv : isValidUuid v = true) : List.Forall₂ Aligned u v := by
  have hulength := length_of_isValidUuid hu
  have hvlength := length_of_isValidUuid hv
  refine List.forall₂_iff_get.mpr ⟨hulength.trans hvlength.symm, fun i hi hi' => ?_⟩
  have hcharu := char_of_isValidUuid hu (hulength ▸ hi)
  have hcharv := char_of_isValidUuid hv (hulength ▸ hi)
  have hgetu : u.getD i 0 = u.get ⟨i, hi⟩ := by simp [List.getD, hi]
  have hgetv : v.getD i 0 = v.get ⟨i, hi'⟩ := by simp [List.getD, hi']
  rw [hgetu] at hcharu
  rw [hgetv] at hcharv
  split at hcharu
  · rename_i hdash
    rw [if_pos hdash] at hcharv
    exact .inr ⟨hcharu, hcharv⟩
  · rename_i hdash
    rw [if_neg hdash] at hcharv
    exact .inl ⟨hcharu, hcharv⟩

end Gasoline
