import Mathlib.Tactic

/-!
# Ranges of addresses

An address is a machine word, and a buffer is given by the address it starts
at and by its length. Adding up addresses is adding up words: behind the last
address comes the first one, so that a range may wrap around, and the bytes
it covers are then at both ends of the address space.

Two ranges are apart when no byte belongs to both. That is decided by looking
at their starts alone (`apart_iff`), and where no range wraps around it is
the usual comparison of ends and starts (`apart_iff_of_not_wraps`).
-/

namespace Gasoline

/-- A range of addresses. -/
structure AddressRange where
  start : UInt64
  length : UInt64
  deriving DecidableEq, Repr

namespace AddressRange

variable {r s : AddressRange}

/-- A byte of the range has this address. -/
def Covers (r : AddressRange) (x : UInt64) : Prop := ∃ i < r.length, x = r.start + i

/-- **No byte belongs to both ranges.** -/
def Apart (r s : AddressRange) : Prop := ∀ x, r.Covers x → ¬ s.Covers x

/-- The address behind the range is none. -/
def Wraps (r : AddressRange) : Prop := 2 ^ 64 ≤ r.start.toNat + r.length.toNat

/-- A range that is not empty is somewhere, and does not wrap around. -/
def Placed (r : AddressRange) : Prop := r.length ≠ 0 → r.start ≠ 0 ∧ ¬ r.Wraps

instance : Decidable r.Wraps := inferInstanceAs (Decidable (_ ≤ _))

instance : Decidable r.Placed := inferInstanceAs (Decidable (_ → _))

theorem covers_iff {x : UInt64} : r.Covers x ↔ x - r.start < r.length := by
  constructor
  · rintro ⟨i, hi, rfl⟩
    rwa [UInt64.add_comm, UInt64.add_sub_cancel]
  · intro h
    exact ⟨x - r.start, h, by rw [UInt64.add_comm, UInt64.sub_add_cancel]⟩

theorem Apart.symm (h : r.Apart s) : s.Apart r := fun x hs hr => h x hr hs

theorem covers_start (h : r.length ≠ 0) : r.Covers r.start := by
  rw [covers_iff, UInt64.sub_self]
  exact UInt64.pos_iff_ne_zero.mpr h

/-- **Ranges that meet do so at the start of one of them**, unless one is
empty. -/
theorem apart_iff : r.Apart s ↔ r.length = 0 ∨ s.length = 0
    ∨ ¬ r.Covers s.start ∧ ¬ s.Covers r.start := by
  constructor
  · intro h
    by_cases hr : r.length = 0
    · exact .inl hr
    by_cases hs : s.length = 0
    · exact .inr (.inl hs)
    exact .inr (.inr ⟨fun h' => h _ h' (covers_start hs), h _ (covers_start hr)⟩)
  · rintro (hr | hs | ⟨hrs, hsr⟩) x hxr hxs
    · rw [covers_iff, hr] at hxr
      exact absurd hxr (UInt64.not_lt_zero)
    · rw [covers_iff, hs] at hxs
      exact absurd hxs (UInt64.not_lt_zero)
    · rw [covers_iff] at hrs hsr hxr hxs
      rw [UInt64.lt_iff_toNat_lt, UInt64.toNat_sub] at hrs hsr hxr hxs
      have := r.start.toNat_lt
      have := s.start.toNat_lt
      have := x.toNat_lt
      omega

instance {x : UInt64} : Decidable (r.Covers x) := decidable_of_iff _ covers_iff.symm

instance : Decidable (r.Apart s) := decidable_of_iff _ apart_iff.symm

/-- **Where no range wraps around**, one of them ends before the other one
starts. -/
theorem apart_iff_of_not_wraps (hr : ¬ r.Wraps) (hs : ¬ s.Wraps) (hrlen : r.length ≠ 0)
    (hslen : s.length ≠ 0) :
    r.Apart s ↔ ¬ (r.start < s.start + s.length ∧ s.start < r.start + r.length) := by
  unfold Wraps at hr hs
  rw [apart_iff, covers_iff, covers_iff]
  simp only [hrlen, hslen, false_or, UInt64.lt_iff_toNat_lt, UInt64.toNat_sub, UInt64.toNat_add]
  have := r.start.toNat_lt
  have := s.start.toNat_lt
  have hrpos : 0 < r.length.toNat := by
    simpa [UInt64.lt_iff_toNat_lt] using UInt64.pos_iff_ne_zero.mpr hrlen
  have hspos : 0 < s.length.toNat := by
    simpa [UInt64.lt_iff_toNat_lt] using UInt64.pos_iff_ne_zero.mpr hslen
  omega

end AddressRange

end Gasoline
