import Mathlib.Data.List.Basic

/-!
# Logs of bounded length

A log that keeps its last `k` entries, and is taken as a whole from time to
time. A `Journal` says what was done to it, in order. Between two takings the
log knows only of what was pushed since, and of that only the end, so the
pushed entries fall into segments, one for each taking and one for what has
come since, and each segment was handed out up to its last `k` entries
(`Journal.accounts`).
-/

namespace Gasoline

variable {α : Type}

/-- The last `k` entries. -/
def keepLast (k : ℕ) (l : List α) : List α := l.drop (l.length - k)

/-- Entries that were dropped once are not missed later. -/
theorem keepLast_concat (k : ℕ) (l : List α) (a : α) :
    keepLast k (keepLast k l ++ [a]) = keepLast k (l ++ [a]) := by
  have hlength : (keepLast k l).length = l.length - (l.length - k) := List.length_drop
  unfold keepLast at hlength ⊢
  rw [List.length_append, List.length_append, hlength, List.length_singleton]
  by_cases hk : k = 0
  · subst hk
    rw [List.drop_eq_nil_of_le (by simp), List.drop_eq_nil_of_le (by simp)]
  · rw [List.drop_append_of_le_length (by rw [hlength]; omega), List.drop_drop,
      List.drop_append_of_le_length (by omega)]
    congr 2
    omega

/-- What was done to a log. -/
inductive LogEntry (α : Type)
  | pushed (entry : α)
  /-- The log was emptied, and this was in it. -/
  | taken (batch : List α)

namespace LogEntry

/-- The entry that was pushed. -/
def pushed? : LogEntry α → Option α
  | .pushed entry => some entry
  | .taken _ => none

/-- The batch that was taken. -/
def taken? : LogEntry α → Option (List α)
  | .pushed _ => none
  | .taken batch => some batch

end LogEntry

/-- **What was done to a log of the last `k` entries**, and what is in it. -/
inductive Journal (k : ℕ) : List (LogEntry α) → List α → Prop
  | nil : Journal k [] []
  | push {j : List (LogEntry α)} {l : List α} (h : Journal k j l) (a : α) :
      Journal k (j ++ [.pushed a]) (keepLast k (l ++ [a]))
  | take {j : List (LogEntry α)} {l : List α} (h : Journal k j l) : Journal k (j ++ [.taken l]) []

theorem Journal.accounts {k : ℕ} {j : List (LogEntry α)} {l : List α} (h : Journal k j l) :
    ∃ (segments : List (List α)) (last : List α),
      j.filterMap LogEntry.pushed? = segments.flatten ++ last
      ∧ j.filterMap LogEntry.taken? = segments.map (keepLast k) ∧ l = keepLast k last := by
  induction h with
  | nil => exact ⟨[], [], rfl, rfl, by simp [keepLast]⟩
  | push h a ih =>
    obtain ⟨segments, last, hpushed, htaken, rfl⟩ := ih
    refine ⟨segments, last ++ [a], ?_, ?_, keepLast_concat k last a⟩
    · rw [List.filterMap_append, hpushed, List.append_assoc]
      rfl
    · rw [List.filterMap_append, htaken]
      exact List.append_nil _
  | take h ih =>
    obtain ⟨segments, last, hpushed, htaken, rfl⟩ := ih
    refine ⟨segments ++ [last], [], ?_, ?_, by simp [keepLast]⟩
    · rw [List.filterMap_append, hpushed, List.flatten_append]
      simp [LogEntry.pushed?]
    · rw [List.filterMap_append, htaken, List.map_append]
      rfl

end Gasoline
