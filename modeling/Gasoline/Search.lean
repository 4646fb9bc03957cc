import Mathlib.Data.List.TakeDrop
import Mathlib.Data.List.Infix
import Mathlib.Tactic

/-!
# Searching a list

The first occurrence of a needle in a list. It is there as soon as the part
of the list is known that the needle occurs in (`firstOccurrence_append`), so
a search in a list that grows at its end gives one answer, once it gives any.

And lists that arrive in chunks are read until a condition holds
(`readUntil`); where that is a condition on the length, what was read is
known from where the chunks end.
-/

namespace Gasoline

variable {α : Type}

/-! ## Occurrences -/

section Occurrences

variable [DecidableEq α]

/-- **The position of the first occurrence.** -/
def firstOccurrence (needle : List α) : List α → Option ℕ
  | [] => if needle = [] then some 0 else none
  | x :: xs =>
    if needle <+: x :: xs then some 0 else (firstOccurrence needle xs).map (· + 1)

/-- **What a first occurrence is.** -/
theorem firstOccurrence_eq_some_iff {needle s : List α} {i : ℕ} :
    firstOccurrence needle s = some i
      ↔ i ≤ s.length ∧ needle <+: s.drop i ∧ ∀ j < i, ¬ needle <+: s.drop j := by
  induction s generalizing i with
  | nil =>
    cases needle with
    | nil =>
      cases i with
      | zero => simp [firstOccurrence]
      | succ i => simp [firstOccurrence]
    | cons y ys => simp [firstOccurrence]
  | cons x xs ih =>
    by_cases hhere : needle <+: x :: xs
    · rw [firstOccurrence, if_pos hhere, Option.some.injEq]
      constructor
      · rintro rfl
        exact ⟨Nat.zero_le _, hhere, fun j hj => absurd hj (Nat.not_lt_zero j)⟩
      · rintro ⟨-, -, hfirst⟩
        by_contra hne
        exact hfirst 0 (Nat.pos_of_ne_zero (fun h => hne h.symm)) hhere
    · rw [firstOccurrence, if_neg hhere]
      cases i with
      | zero =>
        constructor
        · intro h
          obtain ⟨j, -, hj⟩ := Option.map_eq_some_iff.mp h
          exact absurd hj (Nat.succ_ne_zero j)
        · rintro ⟨-, hzero, -⟩
          exact absurd hzero hhere
      | succ i =>
        rw [Option.map_eq_some_iff]
        constructor
        · rintro ⟨j, hj, heq⟩
          obtain rfl : j = i := by omega
          obtain ⟨hle, hoccurs, hfirst⟩ := ih.mp hj
          refine ⟨Nat.succ_le_succ hle, hoccurs, fun k hk => ?_⟩
          cases k with
          | zero => exact hhere
          | succ k => exact hfirst k (by omega)
        · rintro ⟨hle, hoccurs, hfirst⟩
          refine ⟨i, ih.mpr ⟨Nat.le_of_succ_le_succ hle, hoccurs, fun k hk => ?_⟩, rfl⟩
          exact hfirst (k + 1) (by omega)

/-- Where nothing is found there is nothing. -/
theorem firstOccurrence_eq_none_iff {needle s : List α} :
    firstOccurrence needle s = none ↔ ∀ i ≤ s.length, ¬ needle <+: s.drop i := by
  constructor
  · intro hnone
    -- a least occurrence would have been found
    by_contra hsome
    push Not at hsome
    obtain ⟨i, hi, hoccurs⟩ := hsome
    classical
    have hex : ∃ i, needle <+: s.drop i := ⟨i, hoccurs⟩
    have hfound : firstOccurrence needle s = some (Nat.find hex) :=
      firstOccurrence_eq_some_iff.mpr ⟨(Nat.find_min' hex hoccurs).trans hi, Nat.find_spec hex,
        fun j hj => Nat.find_min hex hj⟩
    rw [hnone] at hfound
    cases hfound
  · intro hnothing
    cases hfind : firstOccurrence needle s with
    | none => rfl
    | some i =>
      obtain ⟨hle, hoccurs, -⟩ := firstOccurrence_eq_some_iff.mp hfind
      exact absurd hoccurs (hnothing i hle)

theorem eq_of_firstOccurrence {needle s : List α} {i : ℕ} (h : firstOccurrence needle s = some i) :
    s = s.take i ++ (needle ++ s.drop (i + needle.length)) := by
  obtain ⟨-, ⟨rest, hrest⟩, -⟩ := firstOccurrence_eq_some_iff.mp h
  have hdrop : s.drop (i + needle.length) = rest := by
    rw [← List.drop_drop, ← hrest, List.drop_left]
  rw [hdrop, hrest, List.take_append_drop]

omit [DecidableEq α] in
/-- A needle that has room before the end of a list occurs there or not,
whatever follows. -/
theorem occurs_append_iff {needle s t : List α} {i : ℕ} (h : i + needle.length ≤ s.length) :
    needle <+: (s ++ t).drop i ↔ needle <+: s.drop i := by
  rw [List.drop_append_of_le_length (by omega)]
  have hlength : needle.length ≤ (s.drop i).length := by
    rw [List.length_drop]
    omega
  constructor
  · exact fun hoccurs => List.prefix_of_prefix_length_le hoccurs (List.prefix_append _ _) hlength
  · exact fun hoccurs => hoccurs.trans (List.prefix_append _ _)

/-- **The first occurrence in a part that begins the list** is the first in
the list. -/
theorem firstOccurrence_append {needle s : List α} {i : ℕ} (t : List α) :
    firstOccurrence needle s = some i
      ↔ firstOccurrence needle (s ++ t) = some i ∧ i + needle.length ≤ s.length := by
  constructor
  · intro h
    obtain ⟨hle, hoccurs, hfirst⟩ := firstOccurrence_eq_some_iff.mp h
    have hroom : i + needle.length ≤ s.length := by
      have hlength := hoccurs.length_le
      rw [List.length_drop] at hlength
      omega
    refine ⟨firstOccurrence_eq_some_iff.mpr ⟨?_, ?_, fun j hj => ?_⟩, hroom⟩
    · rw [List.length_append]
      omega
    · exact (occurs_append_iff hroom).mpr hoccurs
    · rw [occurs_append_iff (by omega)]
      exact hfirst j hj
  · rintro ⟨h, hroom⟩
    obtain ⟨-, hoccurs, hfirst⟩ := firstOccurrence_eq_some_iff.mp h
    refine firstOccurrence_eq_some_iff.mpr ⟨by omega, (occurs_append_iff hroom).mp hoccurs,
      fun j hj => ?_⟩
    have hnot := hfirst j hj
    rwa [occurs_append_iff (by omega)] at hnot

end Occurrences

/-! ## Reading chunks -/

/-- **Reading until a condition holds**: what has been read then, and the
chunks that are left; `none` where they run out first. -/
def readUntil (done : List α → Bool) : List α → List (List α) → Option (List α × List (List α))
  | read, [] => if done read then some (read, []) else none
  | read, chunk :: chunks =>
    if done read then some (read, chunk :: chunks) else readUntil done (read ++ chunk) chunks

/-- Nothing is lost, and the condition holds. -/
theorem readUntil_spec {done : List α → Bool} {read result : List α} {chunks left : List (List α)}
    (h : readUntil done read chunks = some (result, left)) :
    result ++ left.flatten = read ++ chunks.flatten ∧ done result = true := by
  induction chunks generalizing read with
  | nil =>
    rw [readUntil] at h
    split at h
    · rename_i hdone
      cases h
      exact ⟨rfl, hdone⟩
    · cases h
  | cons chunk chunks ih =>
    rw [readUntil] at h
    split at h
    · rename_i hdone
      cases h
      exact ⟨rfl, hdone⟩
    · obtain ⟨hsame, hdone⟩ := ih h
      refine ⟨?_, hdone⟩
      rw [hsame, List.append_assoc, List.flatten_cons]

/-- **Reading to a weaker condition first** makes no difference. -/
theorem readUntil_readUntil {first done : List α → Bool} {read result : List α}
    {chunks left : List (List α)} (h : readUntil first read chunks = some (result, left))
    (hweaker : ∀ r, r <+: read ++ chunks.flatten → done r = true → first r = true) :
    readUntil done result left = readUntil done read chunks := by
  induction chunks generalizing read with
  | nil =>
    rw [readUntil] at h
    split at h
    · cases h
      rfl
    · cases h
  | cons chunk chunks ih =>
    rw [readUntil] at h
    split at h
    · cases h
      rfl
    · rename_i hnot
      have hmore : done read ≠ true := by
        intro hdone
        exact hnot (hweaker read (List.prefix_append _ _) hdone)
      rw [ih h (fun r hr => hweaker r (by simpa using hr)), readUntil, if_neg hmore]

/-- A condition that does not fail again holds at some time exactly if it
holds at the end. -/
theorem readUntil_isSome_iff {done : List α → Bool} {read : List α} {chunks : List (List α)}
    (hmono : ∀ r t, done r = true → done (r ++ t) = true) :
    (readUntil done read chunks).isSome = done (read ++ chunks.flatten) := by
  induction chunks generalizing read with
  | nil =>
    rw [readUntil, List.flatten_nil, List.append_nil]
    cases done read with
    | true => rfl
    | false => rfl
  | cons chunk chunks ih =>
    rw [readUntil, List.flatten_cons]
    split
    · rename_i hdone
      rw [hmono read _ hdone]
      rfl
    · rw [ih, List.append_assoc]

/-- **Reading to a length** ends behind the chunk that reaches it. -/
theorem readUntil_length {n : ℕ} {read chunk : List α} {before after : List (List α)}
    (hshort : (read ++ before.flatten).length < n)
    (henough : n ≤ (read ++ before.flatten ++ chunk).length) :
    readUntil (fun r => decide (n ≤ r.length)) read (before ++ chunk :: after)
      = some (read ++ before.flatten ++ chunk, after) := by
  induction before generalizing read with
  | nil =>
    rw [List.flatten_nil, List.append_nil] at hshort henough ⊢
    rw [List.nil_append, readUntil, if_neg (by simpa using hshort)]
    cases after with
    | nil => rw [readUntil, if_pos (by simpa using henough)]
    | cons next after => rw [readUntil, if_pos (by simpa using henough)]
  | cons first before ih =>
    rw [List.flatten_cons, ← List.append_assoc] at hshort henough ⊢
    have hread : read.length < n := by
      rw [List.length_append, List.length_append] at hshort
      omega
    rw [List.cons_append, readUntil, if_neg (by simpa using hread)]
    exact ih hshort henough

end Gasoline
