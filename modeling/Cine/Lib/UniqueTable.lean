import Cine.Lib.Table

/-!
# Tables with a unique index

A table whose rows have distinct keys, together with that fact.  The
statements of a database that such a table is written by keep it.

There are two groups.

* The statements.  `insert?` fails where the key is taken, `insertOrIgnore`
  is `ON CONFLICT DO NOTHING`, and `put` writes over the row with a key.
* What a statement makes of the rows (`mem_insert?`, `mem_put`, …) and of the
  keys (`has_insert?`, `has_put`, …).  `countP_eq_one_iff` counts the rows of
  a key.

Nothing here is about a particular program.
-/

namespace Cine.Lib

/-- A table with a unique index on `key`. -/
structure UniqueTable {α κ : Type} (key : α → κ) where
  rows : List α
  nodup : (rows.map key).Nodup

namespace UniqueTable

variable {α κ : Type} {key : α → κ}

def empty : UniqueTable key := ⟨[], List.nodup_nil⟩

/-- `DELETE … WHERE p`. -/
def deleteWhere (t : UniqueTable key) (p : α → Bool) : UniqueTable key :=
  ⟨t.rows.filter (fun r => !p r), t.nodup.sublist (List.filter_sublist.map key)⟩

/-- `UPDATE … SET f WHERE p`. -/
def updateWhere (t : UniqueTable key) (p : α → Bool) (f : α → α)
    (hf : ∀ r, key (f r) = key r) : UniqueTable key where
  rows := t.rows.map fun r => if p r then f r else r
  nodup := by
    rw [List.map_map]
    have hkeys : key ∘ (fun r => if p r = true then f r else r) = key := by
      funext r
      rw [Function.comp_apply]
      split_ifs
      · exact hf r
      · rfl
    rw [hkeys]
    exact t.nodup

section Membership

variable {t : UniqueTable key} {x : α}

theorem mem_deleteWhere {p : α → Bool} :
    x ∈ (t.deleteWhere p).rows ↔ x ∈ t.rows ∧ p x = false := by
  unfold deleteWhere
  simp

theorem mem_updateWhere {p : α → Bool} {f : α → α} {hf : ∀ r, key (f r) = key r} :
    x ∈ (t.updateWhere p f hf).rows ↔
      ∃ r ∈ t.rows, x = if p r = true then f r else r := by
  unfold updateWhere
  rw [List.mem_map]
  exact exists_congr fun r => and_congr_right fun _ => eq_comm

end Membership

variable [DecidableEq κ]

/-- The row with a key. -/
def find? (t : UniqueTable key) (k : κ) : Option α := rowOf key t.rows k

def has (t : UniqueTable key) (k : κ) : Bool := (t.find? k).isSome

theorem has_iff {t : UniqueTable key} {k : κ} : t.has k = true ↔ ∃ r ∈ t.rows, key r = k :=
  rowOf_isSome

theorem has_of_mem {t : UniqueTable key} {r : α} (hr : r ∈ t.rows) : t.has (key r) = true :=
  has_iff.2 ⟨r, hr, rfl⟩

theorem nodup_concat {t : UniqueTable key} {r : α} (h : ¬ t.has (key r) = true) :
    ((t.rows ++ [r]).map key).Nodup := by
  rw [List.map_append, List.map_singleton, List.nodup_append]
  refine ⟨t.nodup, List.nodup_singleton _, ?_⟩
  intro k hk k' hk' heq
  obtain ⟨r', hr', rfl⟩ := List.mem_map.1 hk
  rw [List.mem_singleton] at hk'
  exact h (has_iff.2 ⟨r', hr', heq.trans hk'⟩)

def insert? (t : UniqueTable key) (r : α) : Option (UniqueTable key) :=
  if h : t.has (key r) = true then none else some ⟨t.rows ++ [r], nodup_concat h⟩

/-- `INSERT … ON CONFLICT DO NOTHING`. -/
def insertOrIgnore (t : UniqueTable key) (r : α) : UniqueTable key :=
  (t.insert? r).getD t

/-- Every column of the row with the key of `r` is written. -/
def put (t : UniqueTable key) (r : α) : UniqueTable key where
  rows := t.rows.map fun r' => if key r' = key r then r else r'
  nodup := by
    rw [List.map_map]
    have hkeys : key ∘ (fun r' => if key r' = key r then r else r') = key := by
      funext r'
      rw [Function.comp_apply]
      split_ifs with h
      · exact h.symm
      · rfl
    rw [hkeys]
    exact t.nodup

/-! ## What the statements do -/

variable {t t' : UniqueTable key} {r x : α} {k : κ}

theorem insert?_eq_some (h : t.insert? r = some t') :
    t.has (key r) = false ∧ t'.rows = t.rows ++ [r] := by
  unfold insert? at h
  split at h
  · cases h
  · rename_i hfree
    cases h
    exact ⟨by simpa using hfree, rfl⟩

theorem mem_insert? (h : t.insert? r = some t') : x ∈ t'.rows ↔ x ∈ t.rows ∨ x = r := by
  rw [(insert?_eq_some h).2, List.mem_append, List.mem_singleton]

theorem has_insert? (h : t.insert? r = some t') :
    t'.has k = true ↔ t.has k = true ∨ key r = k := by
  rw [has_iff, has_iff]
  constructor
  · rintro ⟨x, hx, rfl⟩
    rcases (mem_insert? h).1 hx with hx | rfl
    · exact .inl ⟨x, hx, rfl⟩
    · exact .inr rfl
  · rintro (⟨x, hx, rfl⟩ | rfl)
    · exact ⟨x, (mem_insert? h).2 (.inl hx), rfl⟩
    · exact ⟨r, (mem_insert? h).2 (.inr rfl), rfl⟩

theorem insertOrIgnore_cases (t : UniqueTable key) (r : α) :
    (t.has (key r) = true ∧ t.insertOrIgnore r = t) ∨
    (t.has (key r) = false ∧ t.insert? r = some (t.insertOrIgnore r)) := by
  unfold insertOrIgnore
  cases h : t.insert? r with
  | some t' => exact .inr ⟨(insert?_eq_some h).1, rfl⟩
  | none =>
    refine .inl ⟨?_, rfl⟩
    unfold insert? at h
    split at h
    · assumption
    · cases h

theorem mem_insertOrIgnore :
    x ∈ (t.insertOrIgnore r).rows ↔ x ∈ t.rows ∨ (x = r ∧ t.has (key r) = false) := by
  rcases insertOrIgnore_cases t r with ⟨htaken, heq⟩ | ⟨hfree, hsome⟩
  · rw [heq, htaken]
    simp
  · rw [mem_insert? hsome, hfree]
    simp

theorem has_insertOrIgnore :
    (t.insertOrIgnore r).has k = true ↔ t.has k = true ∨ key r = k := by
  rcases insertOrIgnore_cases t r with ⟨htaken, heq⟩ | ⟨_, hsome⟩
  · rw [heq]
    refine ⟨.inl, fun h => h.elim id ?_⟩
    rintro rfl
    exact htaken
  · exact has_insert? hsome

theorem has_foldl_insertOrIgnore (rows : List α) :
    (rows.foldl insertOrIgnore t).has k = true ↔ t.has k = true ∨ ∃ r ∈ rows, key r = k := by
  induction rows generalizing t with
  | nil => simp
  | cons r rows ih =>
    rw [List.foldl_cons, ih, has_insertOrIgnore, or_assoc]
    simp

theorem mem_of_foldl_insertOrIgnore {rows : List α}
    (h : x ∈ (rows.foldl insertOrIgnore t).rows) : x ∈ t.rows ∨ x ∈ rows := by
  induction rows generalizing t with
  | nil => exact .inl h
  | cons r rows ih =>
    rcases ih h with h | h
    · rcases mem_insertOrIgnore.1 h with h | h
      · exact .inl h
      · exact .inr (h.1 ▸ List.mem_cons_self)
    · exact .inr (List.mem_cons_of_mem r h)

theorem foldl_insertOrIgnore_of_has {rows : List α}
    (h : ∀ r ∈ rows, t.has (key r) = true) : rows.foldl insertOrIgnore t = t := by
  induction rows with
  | nil => rfl
  | cons r rows ih =>
    have htaken := h r List.mem_cons_self
    rcases insertOrIgnore_cases t r with ⟨_, heq⟩ | ⟨hfree, _⟩
    · rw [List.foldl_cons, heq]
      exact ih fun r' hr' => h r' (List.mem_cons_of_mem r hr')
    · rw [htaken] at hfree
      cases hfree

theorem mem_of_put (h : x ∈ (t.put r).rows) : x ∈ t.rows ∨ x = r := by
  unfold put at h
  obtain ⟨r', hr', hx⟩ := List.mem_map.1 h
  split_ifs at hx
  · exact .inr hx.symm
  · exact .inl (hx ▸ hr')

theorem has_put : (t.put r).has k = t.has k := by
  rw [Bool.eq_iff_iff, has_iff, has_iff]
  unfold put
  constructor
  · rintro ⟨x, hx, rfl⟩
    obtain ⟨r', hr', rfl⟩ := List.mem_map.1 hx
    refine ⟨r', hr', ?_⟩
    split_ifs with h
    · exact h
    · rfl
  · rintro ⟨r', hr', rfl⟩
    refine ⟨_, List.mem_map.2 ⟨r', hr', rfl⟩, ?_⟩
    split_ifs with h
    · exact h.symm
    · rfl

theorem find?_of_mem (hr : r ∈ t.rows) : t.find? (key r) = some r :=
  rowOf_of_mem t.nodup hr

theorem mem_of_find? (h : t.find? k = some r) : r ∈ t.rows :=
  mem_of_rowOf h

theorem key_of_find? (h : t.find? k = some r) : key r = k :=
  rowOf_key h

theorem has_eq_false_of_rows {k : κ} (h : t.rows = []) : t.has k = false := by
  rw [Bool.eq_false_iff]
  intro hk
  obtain ⟨r, hr, _⟩ := has_iff.1 hk
  rw [h] at hr
  exact absurd hr List.not_mem_nil

theorem rows_ne_nil_of_has (h : t.has k = true) : t.rows ≠ [] := by
  intro hnil
  rw [has_eq_false_of_rows hnil] at h
  cases h

omit [DecidableEq κ] in
theorem rows_eq_singleton (hr : r ∈ t.rows) (hall : ∀ x ∈ t.rows, key x = key r) :
    t.rows = [r] := by
  have heq : ∀ x ∈ t.rows, x = r := fun x hx =>
    List.inj_on_of_nodup_map t.nodup hx hr (hall x hx)
  have hreplicate := List.eq_replicate_of_mem heq
  have hnodup : t.rows.Nodup := t.nodup.of_map key
  rw [hreplicate, List.nodup_replicate] at hnodup
  have hpos : 0 < t.rows.length := List.length_pos_of_mem hr
  rw [hreplicate]
  have hlength : t.rows.length = 1 := by omega
  rw [hlength]
  rfl

theorem countP_eq_one_iff : t.rows.countP (fun r => key r = k) = 1 ↔ t.has k = true := by
  have hcount : t.rows.countP (fun r => key r = k) = (t.rows.map key).count k := by
    rw [List.count, List.countP_map]
    rfl
  have hmem : t.has k = true ↔ k ∈ t.rows.map key := by
    rw [has_iff, List.mem_map]
  rw [hcount, hmem]
  constructor
  · intro h
    exact List.count_pos_iff.1 (by omega)
  · intro h
    exact List.count_eq_one_of_mem t.nodup h

end UniqueTable

end Cine.Lib
