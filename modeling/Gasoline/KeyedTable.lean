import Mathlib.Tactic

/-!
# Tables with a key

A table is a list of rows, and a column of it is a key when no two rows
agree on it. `lookup` is the query by key. The lemmas say what the three
statements that change a table – append a row, update the rows a condition
picks, delete the rows a condition picks – do to every lookup, and that the
key stays one.

A second table may refer to the first: each of its rows names a key of the
first table. `References` is the two constraints together, and the
statements that keep them are its lemmas.
-/

namespace Gasoline

variable {R K : Type} [DecidableEq K]

/-- The first row with a given key. -/
def lookup (key : R → K) (rows : List R) (k : K) : Option R :=
  rows.find? (fun r => decide (key r = k))

section Lookup

variable {key : R → K} {rows : List R}

theorem lookup_spec {k : K} {r : R} (h : lookup key rows k = some r) :
    r ∈ rows ∧ key r = k :=
  ⟨List.mem_of_find?_eq_some h, by simpa using List.find?_some h⟩

/-- A lookup finds nothing exactly where no row has the key. -/
theorem lookup_eq_none_iff {k : K} :
    lookup key rows k = none ↔ ∀ r ∈ rows, key r ≠ k := by
  unfold lookup
  rw [List.find?_eq_none]
  simp

/-- **Where the column is a key, a lookup finds the row that has it.** -/
theorem lookup_eq_some_iff (hk : (rows.map key).Nodup) {k : K} {r : R} :
    lookup key rows k = some r ↔ r ∈ rows ∧ key r = k := by
  refine ⟨lookup_spec, fun ⟨hr, hkey⟩ => ?_⟩
  cases h : lookup key rows k with
  | none => exact absurd hkey (lookup_eq_none_iff.mp h r hr)
  | some r' =>
    obtain ⟨hr', hkey'⟩ := lookup_spec h
    exact congrArg some (List.inj_on_of_nodup_map hk hr' hr (hkey'.trans hkey.symm))

theorem lookup_self (hk : (rows.map key).Nodup) {r : R} (hr : r ∈ rows) :
    lookup key rows (key r) = some r :=
  (lookup_eq_some_iff hk).mpr ⟨hr, rfl⟩

/-- A selection by key has the row of the key, if that passes the rest of
the condition. -/
theorem filter_lookup (hk : (rows.map key).Nodup) (q : R → Bool) (k : K) :
    rows.filter (fun r => decide (key r = k) && q r) = ((lookup key rows k).filter q).toList := by
  induction rows with
  | nil => rfl
  | cons r rows ih =>
    rw [List.map_cons, List.nodup_cons] at hk
    by_cases h : key r = k
    · have hrest : lookup key rows k = none := by
        refine lookup_eq_none_iff.mpr (fun x hx hxk => hk.1 ?_)
        exact List.mem_map.mpr ⟨x, hx, hxk.trans h.symm⟩
      have hhead : lookup key (r :: rows) k = some r :=
        List.find?_cons_of_pos (by simpa using h)
      rw [hrest] at ih
      rw [List.filter_cons, hhead, ih hk.2]
      cases hq : q r with
      | true => simp [h, Option.filter_some_pos hq]
      | false => simp [h, Option.filter_some_neg hq]
    · have hhead : lookup key (r :: rows) k = lookup key rows k :=
        List.find?_cons_of_neg (by simpa using h)
      rw [List.filter_cons, hhead, ih hk.2]
      simp [h]

theorem find?_lookup (hk : (rows.map key).Nodup) (q : R → Bool) (k : K) :
    rows.find? (fun r => decide (key r = k) && q r) = (lookup key rows k).filter q := by
  rw [← List.head?_filter, filter_lookup hk]
  cases (lookup key rows k).filter q <;> rfl

/-! ## Appending a row -/

omit [DecidableEq K] in
/-- Appending a row with a fresh key keeps the key. -/
theorem nodup_append_row {r : R} (hk : (rows.map key).Nodup)
    (hr : ∀ x ∈ rows, key x ≠ key r) : ((rows ++ [r]).map key).Nodup := by
  rw [List.map_append, List.nodup_append]
  refine ⟨hk, List.nodup_singleton _, ?_⟩
  intro a ha b hb hab
  obtain ⟨x, hx, rfl⟩ := List.mem_map.mp ha
  rw [List.map_singleton, List.mem_singleton] at hb
  exact hr x hx (hab.trans hb)

/-! ## Updating rows -/

variable {cond : R → Bool} {set : R → R}

omit [DecidableEq K] in
/-- An update that leaves the column alone keeps the key. -/
theorem map_key_update (hset : ∀ r, key (set r) = key r) (rows : List R) :
    (rows.map (fun r => if cond r then set r else r)).map key = rows.map key := by
  rw [List.map_map]
  refine List.map_congr_left (fun r _ => ?_)
  show key (if cond r then set r else r) = key r
  split
  · exact hset r
  · rfl

/-- What an update that leaves the key alone does to every lookup. -/
theorem lookup_update (hset : ∀ r, key (set r) = key r) (rows : List R) (k : K) :
    lookup key (rows.map (fun r => if cond r then set r else r)) k
      = (lookup key rows k).map (fun r => if cond r then set r else r) := by
  unfold lookup
  rw [List.find?_map]
  congr 2
  funext r
  show decide (key (if cond r then set r else r) = k) = decide (key r = k)
  split
  · rw [hset r]
  · rfl

/-- Rows whose key the condition does not name are looked up as before. -/
theorem lookup_update_of_ne (hset : ∀ r, key (set r) = key r) {k k' : K}
    (hcond : ∀ r, cond r = true → key r = k) (hne : k' ≠ k) :
    lookup key (rows.map (fun r => if cond r then set r else r)) k' = lookup key rows k' := by
  rw [lookup_update hset]
  cases h : lookup key rows k' with
  | none => rfl
  | some r =>
    have hr : cond r = false := by
      by_contra hc
      exact hne ((lookup_spec h).2.symm.trans (hcond r (by simpa using hc)))
    show some (if cond r then set r else r) = some r
    rw [hr]
    rfl

/-- **An update of one row** is an update of the row with the key its
condition names, and of no other. -/
theorem lookup_update_one (hk : (rows.map key).Nodup) (hset : ∀ r, key (set r) = key r) {k : K}
    (hcond : ∀ r, cond r = true → key r = k) (h : rows.countP cond = 1) :
    ∃ r, lookup key rows k = some r ∧ cond r = true
      ∧ lookup key (rows.map (fun r => if cond r then set r else r)) k = some (set r)
      ∧ ∀ k', k' ≠ k →
        lookup key (rows.map (fun r => if cond r then set r else r)) k' = lookup key rows k' := by
  have hpos : 0 < rows.countP cond := by omega
  obtain ⟨r, hr, hc⟩ := List.countP_pos_iff.mp hpos
  have hrow : lookup key rows k = some r := (lookup_eq_some_iff hk).mpr ⟨hr, hcond r hc⟩
  refine ⟨r, hrow, hc, ?_, fun k' hne => lookup_update_of_ne hset hcond hne⟩
  rw [lookup_update hset, hrow, Option.map_some, if_pos hc]

/-! ## Deleting rows -/

omit [DecidableEq K] in
theorem nodup_delete (hk : (rows.map key).Nodup) (p : R → Bool) :
    ((rows.filter p).map key).Nodup :=
  hk.sublist (List.Sublist.map key List.filter_sublist)

theorem lookup_delete (hk : (rows.map key).Nodup) (p : R → Bool) (k : K) :
    lookup key (rows.filter p) k = (lookup key rows k).filter p := by
  cases h : lookup key rows k with
  | none =>
    refine lookup_eq_none_iff.mpr (fun r hr => ?_)
    exact lookup_eq_none_iff.mp h r (List.mem_of_mem_filter hr)
  | some r =>
    obtain ⟨hr, hkey⟩ := lookup_spec h
    by_cases hp : p r = true
    · rw [Option.filter_some_pos hp]
      exact (lookup_eq_some_iff (nodup_delete hk p)).mpr ⟨List.mem_filter.mpr ⟨hr, hp⟩, hkey⟩
    · rw [Option.filter_some_neg (by simpa using hp)]
      refine lookup_eq_none_iff.mpr (fun x hx hxk => ?_)
      obtain ⟨hx, hpx⟩ := List.mem_filter.mp hx
      have : x = r := List.inj_on_of_nodup_map hk hx hr (hxk.trans hkey.symm)
      exact hp (this ▸ hpx)

omit [DecidableEq K] in
/-- A condition that names a key and picks one row picks the row with that
key. -/
theorem cond_iff_of_countP_one (hk : (rows.map key).Nodup) {k : K}
    (hcond : ∀ r, cond r = true → key r = k) (h : rows.countP cond = 1) :
    ∀ r ∈ rows, cond r = true ↔ key r = k := by
  have hpos : 0 < rows.countP cond := by omega
  obtain ⟨r₀, hr₀, hc₀⟩ := List.countP_pos_iff.mp hpos
  intro r hr
  refine ⟨hcond r, fun hkey => ?_⟩
  rwa [List.inj_on_of_nodup_map hk hr hr₀ (hkey.trans (hcond r₀ hc₀).symm)]

/-- A condition that names a key and holds of a row picks that row only. -/
theorem countP_eq_one (hk : (rows.map key).Nodup) {r : R} (hr : r ∈ rows) (hc : cond r = true)
    (hcond : ∀ x, cond x = true → key x = key r) : rows.countP cond = 1 := by
  have hfilter : rows.filter cond
      = rows.filter (fun x => decide (key x = key r) && cond x) := by
    refine List.filter_congr (fun x _ => ?_)
    cases hx : cond x with
    | true => simp [hcond x hx]
    | false => simp
  rw [List.countP_eq_length_filter, hfilter, filter_lookup hk, lookup_self hk hr,
    Option.filter_some_pos hc]
  rfl

end Lookup

/-! ## Foreign keys -/

/-- `key` is a key of `rows`, and every row of `children` refers to one of
them. -/
structure References {P : Type} (key : R → K) (owner : P → K) (rows : List R)
    (children : List P) : Prop where
  nodup : (rows.map key).Nodup
  owned : ∀ p ∈ children, ∃ r ∈ rows, key r = owner p

namespace References

variable {P : Type} {key : R → K} {owner : P → K} {rows : List R} {children : List P}

omit [DecidableEq K] in
theorem appendRow (h : References key owner rows children) {r : R}
    (hr : ∀ x ∈ rows, key x ≠ key r) : References key owner (rows ++ [r]) children where
  nodup := nodup_append_row h.nodup hr
  owned := fun p hp => by
    obtain ⟨x, hx, hkey⟩ := h.owned p hp
    exact ⟨x, List.mem_append_left _ hx, hkey⟩

omit [DecidableEq K] in
theorem not_owned (h : References key owner rows children) {k : K} (hk : ∀ x ∈ rows, key x ≠ k) :
    ∀ p ∈ children, owner p ≠ k := by
  intro p hp hpk
  obtain ⟨x, hx, hkey⟩ := h.owned p hp
  exact hk x hx (hkey.trans hpk)

omit [DecidableEq K] in
theorem update (h : References key owner rows children) {cond : R → Bool} {set : R → R}
    (hset : ∀ r, key (set r) = key r) :
    References key owner (rows.map (fun r => if cond r then set r else r)) children where
  nodup := by
    rw [map_key_update hset]
    exact h.nodup
  owned := fun p hp => by
    obtain ⟨x, hx, hkey⟩ := h.owned p hp
    refine ⟨_, List.mem_map_of_mem hx, ?_⟩
    rw [← hkey]
    split
    · exact hset x
    · rfl

omit [DecidableEq K] in
/-- Appending children of rows that are there. -/
theorem appendChildren (h : References key owner rows children) {new : List P}
    (hnew : ∀ p ∈ new, ∃ r ∈ rows, key r = owner p) :
    References key owner rows (children ++ new) where
  nodup := h.nodup
  owned := fun p hp => (List.mem_append.mp hp).elim (h.owned p) (hnew p)

omit [DecidableEq K] in
theorem filterChildren (h : References key owner rows children) (keep : P → Bool) :
    References key owner rows (children.filter keep) where
  nodup := h.nodup
  owned := fun p hp => h.owned p (List.mem_of_mem_filter hp)

/-- `ON DELETE CASCADE`: with a row its children go. -/
theorem delete (h : References key owner rows children) (cond : R → Bool) :
    References key owner (rows.filter (fun r => !cond r))
      (children.filter (fun p => !rows.any (fun r => cond r && decide (key r = owner p)))) where
  nodup := nodup_delete h.nodup _
  owned := fun p hp => by
    obtain ⟨hp, hkept⟩ := List.mem_filter.mp hp
    obtain ⟨x, hx, hkey⟩ := h.owned p hp
    simp only [Bool.not_eq_true', List.any_eq_false, Bool.and_eq_true, decide_eq_true_eq,
      not_and] at hkept
    refine ⟨x, List.mem_filter.mpr ⟨hx, ?_⟩, hkey⟩
    simpa using fun hc => hkept x hx hc hkey

end References

/-! ## Replacing a row and its children -/

/-- **A row and its children were replaced**: `row` is there, with `new` as
its children, and everything that belongs to another key is as it was. -/
structure Replaces {P : Type} (key : R → K) (owner : P → K) (rows : List R) (children : List P)
    (row : R) (new : List P) (rows' : List R) (children' : List P) : Prop where
  mem : row ∈ rows'
  others : rows'.filter (fun r => decide (key r ≠ key row))
    = rows.filter (fun r => decide (key r ≠ key row))
  children_eq : children' = children.filter (fun p => decide (owner p ≠ key row)) ++ new
  owned : ∀ p ∈ new, owner p = key row

namespace Replaces

variable {P : Type} {key : R → K} {owner : P → K} {rows rows' : List R}
  {children children' new : List P} {row : R}

/-- A row that was inserted under a fresh key. -/
theorem append (hnone : ∀ p ∈ children, owner p ≠ key row)
    (hnew : ∀ p ∈ new, owner p = key row) :
    Replaces key owner rows children row new (rows ++ [row]) (children ++ new) where
  mem := by simp
  others := by simp
  children_eq := by
    rw [List.filter_eq_self.mpr (fun p hp => decide_eq_true (hnone p hp))]
  owned := hnew

/-- A row that was updated, its children deleted and written again. -/
theorem update {cond : R → Bool} {set : R → R} (hset : ∀ r, key (set r) = key r)
    (hcond : ∀ r, cond r = true → key r = key row)
    (hmem : row ∈ rows.map (fun r => if cond r then set r else r))
    (hnew : ∀ p ∈ new, owner p = key row) :
    Replaces key owner rows children row new (rows.map (fun r => if cond r then set r else r))
      (children.filter (fun p => decide (owner p ≠ key row)) ++ new) where
  mem := hmem
  others := by
    rw [List.filter_map]
    have hkeep : ∀ r ∈ rows.filter (fun r => decide (key r ≠ key row)),
        (if cond r then set r else r) = r := by
      intro r hr
      have hne := of_decide_eq_true (List.mem_filter.mp hr).2
      exact if_neg (fun hc => hne (hcond r hc))
    have hsame : (fun r => decide (key r ≠ key row)) ∘ (fun r => if cond r then set r else r)
        = fun r => decide (key r ≠ key row) := by
      funext r
      show decide (key (if cond r then set r else r) ≠ key row) = decide (key r ≠ key row)
      split
      · rw [hset]
      · rfl
    rw [hsame]
    exact (List.map_congr_left hkeep).trans (List.map_id _)
  children_eq := rfl
  owned := hnew

/-- What a replacement does to every lookup. -/
theorem lookup_eq (h : Replaces key owner rows children row new rows' children')
    (hk : (rows'.map key).Nodup) (k : K) :
    lookup key rows' k = if k = key row then some row else lookup key rows k := by
  split
  · subst k
    exact lookup_self hk h.mem
  · rename_i hne
    have hother : ∀ rs : List R,
        lookup key (rs.filter (fun r => decide (key r ≠ key row))) k = lookup key rs k := by
      intro rs
      unfold lookup
      rw [List.find?_filter]
      congr 1
      funext r
      by_cases hr : key r = k
      · simp [hr, hne]
      · simp [hr]
    rw [← hother rows', h.others, hother]

/-- What holds of the row and of every row before holds of every row
after. -/
theorem forall_rows (h : Replaces key owner rows children row new rows' children')
    (hk : (rows'.map key).Nodup) {Q : R → Prop} (hrow : Q row)
    (hrows : ∀ r ∈ rows, key r ≠ key row → Q r) : ∀ r ∈ rows', Q r := by
  intro r hr
  by_cases hkey : key r = key row
  · rwa [List.inj_on_of_nodup_map hk hr h.mem hkey]
  · have hold : r ∈ rows.filter (fun r => decide (key r ≠ key row)) := by
      rw [← h.others]
      exact List.mem_filter.mpr ⟨hr, decide_eq_true hkey⟩
    exact hrows r (List.mem_of_mem_filter hold) hkey

/-- What holds of the new children and of every child before holds of every
child after. -/
theorem forall_children (h : Replaces key owner rows children row new rows' children')
    {Q : P → Prop} (hnew : ∀ p ∈ new, Q p) (hold : ∀ p ∈ children, Q p) :
    ∀ p ∈ children', Q p := by
  rw [h.children_eq]
  exact List.forall_mem_append.mpr ⟨fun p hp => hold p (List.mem_of_mem_filter hp), hnew⟩

/-- Children stay different from each other. -/
theorem nodup_children (h : Replaces key owner rows children row new rows' children')
    (hold : children.Nodup) (hnew : new.Nodup) : children'.Nodup := by
  rw [h.children_eq, List.nodup_append]
  refine ⟨hold.filter _, hnew, ?_⟩
  rintro p hp q hq rfl
  exact of_decide_eq_true (List.mem_filter.mp hp).2 (h.owned p hq)

/-- How many children a key has. -/
theorem countP_children (h : Replaces key owner rows children row new rows' children') (k : K) :
    children'.countP (fun p => decide (owner p = k))
      = if k = key row then new.length
        else children.countP (fun p => decide (owner p = k)) := by
  rw [h.children_eq, List.countP_append, List.countP_filter]
  split
  · subst k
    have hnone : children.countP (fun p => decide (owner p = key row)
        && decide (owner p ≠ key row)) = 0 := by
      rw [List.countP_eq_zero]
      simp
    have hall : new.countP (fun p => decide (owner p = key row)) = new.length := by
      rw [List.countP_eq_length]
      exact fun p hp => decide_eq_true (h.owned p hp)
    rw [hnone, hall, Nat.zero_add]
  · rename_i hk
    have hnone : new.countP (fun p => decide (owner p = k)) = 0 := by
      rw [List.countP_eq_zero]
      intro p hp
      simpa [h.owned p hp] using fun e => hk e.symm
    rw [hnone, Nat.add_zero]
    refine List.countP_congr (fun p _ => ?_)
    by_cases hp : owner p = k
    · simp [hp, hk]
    · simp [hp]

end Replaces

end Gasoline
