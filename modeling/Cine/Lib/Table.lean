import Mathlib.Data.List.Sort
import Mathlib.Data.List.Perm.Basic

/-!
# Tables as lists of rows

A table is a list of rows and a row has a key.  `rowOf` is the row that a
lookup by key returns, and `updateRow` is `UPDATE … WHERE key = k`.

`leftJoin` is what `LEFT JOIN` makes of the rows that match one row, and
`sortByKey` is `ORDER BY key`.  Where the keys are distinct the order is
determined, so leaving rows out and sorting commute.
-/

namespace Cine.Lib

section Lookup

variable {α κ : Type} [DecidableEq κ] (key : α → κ)

/-- The row with the key `k`. -/
def rowOf (l : List α) (k : κ) : Option α :=
  l.find? fun r => key r = k

/-- `UPDATE … WHERE key = k`. -/
def updateRow (l : List α) (k : κ) (f : α → α) : List α :=
  l.map fun r => if key r = k then f r else r

variable {key} {l : List α} {k : κ}

variable {r : α} {f : α → α}

theorem rowOf_key (h : rowOf key l k = some r) : key r = k := by
  have := List.find?_some h
  exact of_decide_eq_true this

theorem mem_of_rowOf (h : rowOf key l k = some r) : r ∈ l :=
  List.mem_of_find?_eq_some h

theorem rowOf_isSome : (rowOf key l k).isSome ↔ ∃ r ∈ l, key r = k := by
  rw [rowOf, List.find?_isSome]
  simp only [decide_eq_true_eq]

theorem rowOf_eq_none : rowOf key l k = none ↔ ∀ r ∈ l, key r ≠ k := by
  rw [rowOf, List.find?_eq_none]
  simp only [decide_eq_true_eq, ne_eq]

theorem rowOf_of_mem (hnd : (l.map key).Nodup) (hr : r ∈ l) : rowOf key l (key r) = some r := by
  have hsome : (rowOf key l (key r)).isSome := rowOf_isSome.2 ⟨r, hr, rfl⟩
  obtain ⟨r', hr'⟩ := Option.isSome_iff_exists.1 hsome
  rw [hr', List.inj_on_of_nodup_map hnd (mem_of_rowOf hr') hr (rowOf_key hr')]

theorem rowOf_append (l' : List α) :
    rowOf key (l ++ l') k = (rowOf key l k).or (rowOf key l' k) := by
  rw [rowOf, rowOf, rowOf, List.find?_append]

theorem rowOf_append_of_some (l' : List α) (h : rowOf key l k = some r) :
    rowOf key (l ++ l') k = some r := by
  rw [rowOf_append, h, Option.some_or]

theorem rowOf_updateRow (hf : ∀ r, key (f r) = key r) (k' : κ) :
    rowOf key (updateRow key l k f) k' =
      (rowOf key l k').map fun r => if key r = k then f r else r := by
  rw [rowOf, rowOf, updateRow, List.find?_map]
  congr 2
  funext r
  rw [Function.comp_apply]
  split_ifs with h
  · rw [hf]
  · rfl

theorem rowOf_updateRow_ne (hf : ∀ r, key (f r) = key r) {k' : κ} (h : k' ≠ k) :
    rowOf key (updateRow key l k f) k' = rowOf key l k' := by
  rw [rowOf_updateRow hf]
  cases hr : rowOf key l k' with
  | none => rfl
  | some r =>
    rw [Option.map_some, if_neg]
    rw [rowOf_key hr]
    exact h

theorem rowOf_updateRow_self (hf : ∀ r, key (f r) = key r) (h : rowOf key l k = some r) :
    rowOf key (updateRow key l k f) k = some (f r) := by
  rw [rowOf_updateRow hf, h, Option.map_some, if_pos (rowOf_key h)]

theorem map_updateRow {β : Type} {g : α → β} (hg : ∀ r, g (f r) = g r) :
    (updateRow key l k f).map g = l.map g := by
  rw [updateRow, List.map_map]
  refine List.map_congr_left fun r _ => ?_
  rw [Function.comp_apply]
  split_ifs
  · exact hg r
  · rfl

theorem updateRow_updateRow {g : α → α} (hf : ∀ r, key (f r) = key r) :
    updateRow key (updateRow key l k f) k g = updateRow key l k fun r => g (f r) := by
  rw [updateRow, updateRow, updateRow, List.map_map]
  refine List.map_congr_left fun r _ => ?_
  rw [Function.comp_apply]
  split_ifs with h h'
  · rfl
  · exact absurd ((hf r).trans h) h'
  · rfl

theorem updateRow_of_forall_ne (h : ∀ r ∈ l, key r ≠ k) : updateRow key l k f = l := by
  rw [updateRow]
  conv_rhs => rw [← List.map_id l]
  refine List.map_congr_left fun r hr => ?_
  rw [if_neg (h r hr), id_eq]

theorem filter_updateRow {p : α → Bool} (hp : ∀ r, p (f r) = p r) :
    (updateRow key l k f).filter p = updateRow key (l.filter p) k f := by
  rw [updateRow, updateRow, List.filter_map]
  congr 1
  refine List.filter_congr fun r _ => ?_
  rw [Function.comp_apply]
  split_ifs
  · exact hp r
  · rfl

theorem mem_updateRow :
    r ∈ updateRow key l k f ↔ ∃ r₀ ∈ l, (if key r₀ = k then f r₀ else r₀) = r := by
  rw [updateRow, List.mem_map]

end Lookup

section LeftJoin

variable {α β : Type}

/-- `LEFT JOIN`: the rows that match, or one row without a match. -/
def leftJoin : List α → List (Option α)
  | [] => [none]
  | a :: l => some a :: l.map some

theorem leftJoin_ne_nil (l : List α) : leftJoin l ≠ [] := by
  cases l <;> exact List.cons_ne_nil _ _

theorem filterMap_leftJoin (l : List α) : (leftJoin l).filterMap id = l := by
  cases l with
  | nil => rfl
  | cons a l =>
    show (List.map some (a :: l)).filterMap id = a :: l
    rw [List.filterMap_map]
    exact List.filterMap_some

end LeftJoin

section Order

variable {α κ : Type} [LinearOrder κ] (key : α → κ)

/-- `ORDER BY key`. -/
def sortByKey (l : List α) : List α :=
  l.insertionSort fun a b => key a ≤ key b

variable {key}

theorem perm_sortByKey (l : List α) : (sortByKey key l).Perm l :=
  List.perm_insertionSort _ l

variable {l : List α}

@[simp] theorem mem_sortByKey {a : α} : a ∈ sortByKey key l ↔ a ∈ l :=
  (perm_sortByKey l).mem_iff

theorem nodup_sortByKey (h : (l.map key).Nodup) : ((sortByKey key l).map key).Nodup :=
  ((perm_sortByKey l).map key).nodup_iff.2 h

private theorem pairwise_sortByKey (l : List α) :
    (sortByKey key l).Pairwise fun a b => key a ≤ key b :=
  have : Std.Total fun a b : α => key a ≤ key b := ⟨fun a b => le_total (key a) (key b)⟩
  have : IsTrans α fun a b => key a ≤ key b := ⟨fun _ _ _ h h' => le_trans h h'⟩
  List.pairwise_insertionSort _ l

theorem sortByKey_eq_of_perm {l' : List α} (hperm : l.Perm l') (h : (l.map key).Nodup) :
    sortByKey key l = sortByKey key l' := by
  refine List.Perm.eq_of_pairwise ?_ (pairwise_sortByKey l) (pairwise_sortByKey l')
    ((perm_sortByKey l).trans (hperm.trans (perm_sortByKey l').symm))
  intro a b ha hb hab hba
  exact List.inj_on_of_nodup_map h (mem_sortByKey.1 ha) (hperm.symm.subset (mem_sortByKey.1 hb))
    (le_antisymm hab hba)

theorem filter_sortByKey (p : α → Bool) (h : (l.map key).Nodup) :
    (sortByKey key l).filter p = sortByKey key (l.filter p) := by
  have hanti : ∀ a b, a ∈ (sortByKey key l).filter p → b ∈ sortByKey key (l.filter p) →
      key a ≤ key b → key b ≤ key a → a = b := by
    intro a b ha hb hab hba
    have hla : a ∈ l := mem_sortByKey.1 (List.mem_filter.1 ha).1
    have hlb : b ∈ l := (List.mem_filter.1 (mem_sortByKey.1 hb)).1
    exact List.inj_on_of_nodup_map h hla hlb (le_antisymm hab hba)
  exact List.Perm.eq_of_pairwise hanti ((pairwise_sortByKey l).filter p) (pairwise_sortByKey _)
    (((perm_sortByKey l).filter p).trans (perm_sortByKey _).symm)

theorem map_sortByKey {β : Type} {key' : β → κ} {f : α → β} (hf : ∀ a, key' (f a) = key a)
    (l : List α) : (sortByKey key l).map f = sortByKey key' (l.map f) := by
  rw [sortByKey, sortByKey]
  exact List.map_insertionSort _ _ f l fun a _ b _ => by rw [hf, hf]

end Order

end Cine.Lib
