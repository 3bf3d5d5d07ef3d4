import Mathlib.Algebra.GroupWithZero.Nat
import Mathlib.Data.List.Induction
import Mathlib.Data.List.Sort

/-!
# Insertion-ordered maps and sets

A script's `Map` and `Set` remember the order in which their keys were
first inserted, and a later write to a key that is already there keeps
its place.  `OrderedMap` is that map: the list of its entries together
with the fact that no key occurs twice, so that no lookup lemma has to
ask for it again.

There are three groups.

* The map operations.  `set` writes one key, `ofList` writes a list of
  entries from the left, and `get?_set` and `get?_ofList_concat` say what
  a lookup sees after a write.  The last write to a key wins.  `erase` takes
  a key out.
* Lookups in `ofList`.  `get?_ofList_of_nodup` reads a table whose keys
  are distinct, `mem_of_get?_ofList` and `get?_ofList_isSome` go back from
  a lookup to the list, and `get?_ofList_map` moves a map of the values
  through the table.
* Sets as lists without repetition.  `insertLast` adds an element at the
  end unless it is there, and `List.eraseDups` is the set of a list in the
  order of first occurrence.

Nothing here is about a particular program.
-/

namespace Cine.Lib

/-- A finite map that keeps its keys in the order of their first write. -/
structure OrderedMap (κ : Type*) (ν : Type*) where
  entries : List (κ × ν)
  nodup : (entries.map Prod.fst).Nodup

namespace OrderedMap

variable {κ ν ω : Type*} [DecidableEq κ]

/-- The empty map. -/
def empty : OrderedMap κ ν := ⟨[], List.nodup_nil⟩

/-- The value stored under `k`. -/
def get? (m : OrderedMap κ ν) (k : κ) : Option ν :=
  (m.entries.find? (fun e => e.1 = k)).map Prod.snd

/-- Whether `k` has a value. -/
def has (m : OrderedMap κ ν) (k : κ) : Bool :=
  (m.get? k).isSome

/-- The values in key order. -/
def values (m : OrderedMap κ ν) : List ν :=
  m.entries.map Prod.snd

/-- Write `v` under `k` in a list of entries: in place when `k` is there
already, at the end otherwise. -/
def setEntries : List (κ × ν) → κ → ν → List (κ × ν)
  | [], k, v => [(k, v)]
  | e :: es, k, v => if e.1 = k then (k, v) :: es else e :: setEntries es k v

theorem mem_keys_setEntries (es : List (κ × ν)) (k : κ) (v : ν) (x : κ) :
    x ∈ (setEntries es k v).map Prod.fst ↔ x ∈ es.map Prod.fst ∨ x = k := by
  induction es with
  | nil => simp [setEntries]
  | cons e es ih =>
    rw [setEntries]
    split_ifs with h
    · subst h
      simp only [List.map_cons, List.mem_cons]
      tauto
    · simp only [List.map_cons, List.mem_cons, ih]
      tauto

variable {es : List (κ × ν)} {k : κ}

theorem nodup_setEntries (h : (es.map Prod.fst).Nodup) (k : κ) (v : ν) :
    ((setEntries es k v).map Prod.fst).Nodup := by
  induction es with
  | nil => simp [setEntries]
  | cons e es ih =>
    rw [List.map_cons, List.nodup_cons] at h
    rw [setEntries]
    split_ifs with he
    · subst he
      simpa using h
    · rw [List.map_cons, List.nodup_cons, mem_keys_setEntries]
      refine ⟨?_, ih h.2⟩
      rintro (hm | hk)
      · exact h.1 hm
      · exact he hk

/-- Write `v` under `k`. -/
def set (m : OrderedMap κ ν) (k : κ) (v : ν) : OrderedMap κ ν :=
  ⟨setEntries m.entries k v, nodup_setEntries m.nodup k v⟩

/-- The map built by writing the entries of `es` from the left. -/
def ofList (es : List (κ × ν)) : OrderedMap κ ν :=
  es.foldl (fun m e => m.set e.1 e.2) empty

@[simp] theorem get?_empty (k : κ) : (empty : OrderedMap κ ν).get? k = none := rfl

private theorem find?_setEntries (es : List (κ × ν)) (k : κ) (v : ν) (x : κ) :
    ((setEntries es k v).find? (fun e => e.1 = x)).map Prod.snd =
      if x = k then some v else (es.find? (fun e => e.1 = x)).map Prod.snd := by
  induction es with
  | nil =>
    by_cases hx : k = x
    · simp [setEntries, hx]
    · simp [setEntries, hx, Ne.symm hx]
  | cons e es ih =>
    rw [setEntries]
    split_ifs with he hx hx
    · simp [hx]
    · subst he
      simp [Ne.symm hx]
    · subst hx
      simpa [he] using ih
    · by_cases hex : e.1 = x
      · simp [hex]
      · simpa [hex, hx] using ih

/-- A lookup sees the last value written under its key. -/
theorem get?_set (m : OrderedMap κ ν) (k : κ) (v : ν) (x : κ) :
    (m.set k v).get? x = if x = k then some v else m.get? x :=
  find?_setEntries m.entries k v x

@[simp] theorem get?_set_self (m : OrderedMap κ ν) (k : κ) (v : ν) :
    (m.set k v).get? k = some v := by
  rw [get?_set, if_pos rfl]

theorem get?_set_ne {m : OrderedMap κ ν} {v : ν} {x : κ} (h : x ≠ k) :
    (m.set k v).get? x = m.get? x := by
  rw [get?_set, if_neg h]

theorem sum_values_set (m : OrderedMap κ ν) (k : κ) (v : ν) (f : ν → Nat) :
    ((m.set k v).values.map f).sum + ((m.get? k).map f).getD 0 = (m.values.map f).sum + f v := by
  unfold set get? values
  dsimp only
  induction m.entries with
  | nil => simp [setEntries]
  | cons e es ih =>
    rw [setEntries, List.find?_cons]
    split_ifs with he
    · simp only [List.map_cons, List.sum_cons, he, decide_true, Option.map_some, Option.getD_some]
      omega
    · simp only [List.map_cons, List.sum_cons, he, decide_false]
      omega

theorem isSome_get?_iff {m : OrderedMap κ ν} : (m.get? k).isSome ↔ k ∈ m.entries.map Prod.fst := by
  unfold get?
  rw [Option.isSome_map, List.find?_isSome, List.mem_map]
  simp only [decide_eq_true_eq]

/-- `Map.delete`. -/
def erase (m : OrderedMap κ ν) (k : κ) : OrderedMap κ ν :=
  ⟨m.entries.filter fun e => e.1 ≠ k, m.nodup.sublist (List.filter_sublist.map Prod.fst)⟩

/-- A lookup after a deletion. -/
theorem get?_erase (m : OrderedMap κ ν) (k x : κ) :
    (m.erase k).get? x = if x = k then none else m.get? x := by
  show ((m.entries.filter fun e => e.1 ≠ k).find? fun e => e.1 = x).map Prod.snd = _
  split_ifs with hx
  · have hnone : ((m.entries.filter fun e => e.1 ≠ k).find? fun e => e.1 = x) = none := by
      rw [List.find?_eq_none]
      intro e he
      simpa [hx] using (List.mem_filter.1 he).2
    rw [hnone]
    rfl
  · unfold get?
    induction m.entries with
    | nil => rfl
    | cons e es ih =>
      by_cases he : e.1 = k
      · have hne : e.1 ≠ x := fun h => hx (h.symm.trans he)
        simpa [he, hne, Ne.symm hx] using ih
      · by_cases hex : e.1 = x
        · simp [hex, hx]
        · simpa [he, hex] using ih

/-! ## Lookups in a table built from a list -/

theorem ofList_concat (es : List (κ × ν)) (e : κ × ν) :
    ofList (es ++ [e]) = (ofList es).set e.1 e.2 := by
  simp [ofList]

/-- The last entry of a key wins. -/
theorem get?_ofList_concat (es : List (κ × ν)) (e : κ × ν) (k : κ) :
    (ofList (es ++ [e])).get? k = if k = e.1 then some e.2 else (ofList es).get? k := by
  rw [ofList_concat, get?_set]

/-- Later entries win over earlier ones. -/
theorem get?_ofList_append (es es' : List (κ × ν)) (k : κ) :
    (ofList (es ++ es')).get? k = ((ofList es').get? k).or ((ofList es).get? k) := by
  induction es' using List.reverseRecOn with
  | nil =>
    rw [List.append_nil]
    rfl
  | append_singleton es' e ih =>
    rw [← List.append_assoc, get?_ofList_concat, get?_ofList_concat, ih]
    split_ifs
    · rfl
    · rfl

@[simp] theorem get?_ofList_nil (k : κ) : (ofList ([] : List (κ × ν))).get? k = none := rfl

/-- A lookup in a table comes from one of its entries. -/
theorem mem_of_get?_ofList {v : ν} (h : (ofList es).get? k = some v) : (k, v) ∈ es := by
  induction es using List.reverseRecOn with
  | nil => simp at h
  | append_singleton es e ih =>
    rw [get?_ofList_concat] at h
    split_ifs at h with hk
    · cases e
      simp_all
    · exact List.mem_append_left _ (ih h)

/-- A key has a value exactly when the table has an entry for it. -/
theorem get?_ofList_isSome : ((ofList es).get? k).isSome ↔ k ∈ es.map Prod.fst := by
  induction es using List.reverseRecOn with
  | nil => simp
  | append_singleton es e ih =>
    rw [get?_ofList_concat]
    split_ifs with hk
    · simp [hk]
    · simp [ih, hk]

theorem get?_ofList_eq_none : (ofList es).get? k = none ↔ k ∉ es.map Prod.fst := by
  rw [← get?_ofList_isSome, Option.not_isSome_iff_eq_none]

theorem mem_keys_ofList (es : List (κ × ν)) (k : κ) :
    k ∈ (ofList es).entries.map Prod.fst ↔ k ∈ es.map Prod.fst := by
  induction es using List.reverseRecOn with
  | nil => rfl
  | append_singleton es e ih =>
    rw [ofList_concat, List.map_append]
    show k ∈ (setEntries _ e.1 e.2).map Prod.fst ↔ _
    rw [mem_keys_setEntries, ih, List.mem_append, List.map_singleton, List.mem_singleton]

/-- Where the keys of a table are distinct, every entry is found. -/
theorem get?_ofList_of_nodup (hnd : (es.map Prod.fst).Nodup) {v : ν} (h : (k, v) ∈ es) :
    (ofList es).get? k = some v := by
  obtain ⟨w, hw⟩ := Option.isSome_iff_exists.1
    (get?_ofList_isSome.2 (List.mem_map_of_mem (f := Prod.fst) h))
  have hinj := List.inj_on_of_nodup_map hnd (mem_of_get?_ofList hw) h rfl
  rw [hw, (Prod.mk.inj hinj).2]

/-- Where the keys of a table are distinct, its order does not matter. -/
theorem get?_ofList_perm {es' : List (κ × ν)} (hnd : (es.map Prod.fst).Nodup) (h : es.Perm es')
    (k : κ) : (ofList es).get? k = (ofList es').get? k := by
  have hnd' : (es'.map Prod.fst).Nodup := (h.map Prod.fst).nodup_iff.1 hnd
  cases hk : (ofList es').get? k with
  | some v => exact get?_ofList_of_nodup hnd (h.mem_iff.2 (mem_of_get?_ofList hk))
  | none =>
    rw [get?_ofList_eq_none] at hk ⊢
    exact fun hmem => hk ((h.map Prod.fst).mem_iff.1 hmem)

theorem get?_ofList_keyed (f : ν → κ) (rows : List ν) (k : κ) :
    (ofList (rows.map fun r => (f r, r))).get? k = (rows.filter fun r => f r = k).getLast? := by
  induction rows using List.reverseRecOn with
  | nil => rfl
  | append_singleton rows r ih =>
    rw [List.map_append, List.map_singleton, get?_ofList_concat, List.filter_append]
    by_cases hk : f r = k
    · rw [if_pos hk.symm, List.filter_cons_of_pos (by simpa using hk), List.filter_nil,
        List.getLast?_concat]
    · rw [if_neg (Ne.symm hk), List.filter_cons_of_neg (by simpa using hk), List.filter_nil,
        List.append_nil, ih]

/-- Entries of other keys do not matter for a lookup. -/
theorem get?_ofList_filter_ne {x : κ} (h : x ≠ k) (es : List (κ × ν)) :
    (ofList (es.filter fun e => e.1 ≠ k)).get? x = (ofList es).get? x := by
  induction es using List.reverseRecOn with
  | nil => rfl
  | append_singleton es e ih =>
    rw [List.filter_append, get?_ofList_concat]
    by_cases hk : e.1 = k
    · have hnil : [e].filter (fun e => e.1 ≠ k) = [] := by simp [hk]
      rw [hnil, List.append_nil, ih, if_neg]
      rw [hk]
      exact h
    · have hone : [e].filter (fun e => e.1 ≠ k) = [e] := by simp [hk]
      rw [hone, get?_ofList_concat, ih]

/-- Changing the values of a table changes the values of its lookups. -/
theorem get?_ofList_map (f : κ → ν → ω) (es : List (κ × ν)) (k : κ) :
    (ofList (es.map (fun e => (e.1, f e.1 e.2)))).get? k = ((ofList es).get? k).map (f k) := by
  induction es using List.reverseRecOn with
  | nil => simp
  | append_singleton es e ih =>
    rw [List.map_append, List.map_singleton, get?_ofList_concat, get?_ofList_concat]
    split_ifs with hk
    · simp [hk]
    · exact ih

/-! ## Grouping rows by a key -/

section GroupBy

variable {α : Type*} (key : α → κ)

/-- The rows of each key, in their order, under the key. -/
def groupBy (rows : List α) : OrderedMap κ (List α) :=
  rows.foldl (fun m row => m.set (key row) ((m.get? (key row)).getD [] ++ [row])) empty

variable {key}

variable {k : κ} {m : OrderedMap κ ν} {v : ν}

theorem set_fresh (h : k ∉ m.entries.map Prod.fst) (v : ν) :
    (m.set k v).entries = m.entries ++ [(k, v)] := by
  show setEntries m.entries k v = m.entries ++ [(k, v)]
  revert h
  generalize m.entries = es
  intro h
  induction es with
  | nil => rfl
  | cons e es ih =>
    rw [List.map_cons, List.mem_cons, not_or] at h
    rw [setEntries, if_neg (Ne.symm h.1), ih h.2, List.cons_append]

private theorem set_last {es : List (κ × ν)} (h : m.entries = es ++ [(k, v)]) (w : ν) :
    (m.set k w).entries = es ++ [(k, w)] := by
  have hnd := m.nodup
  rw [h, List.map_append, List.nodup_append] at hnd
  have hfresh : k ∉ es.map Prod.fst := fun hk => hnd.2.2 k hk k (List.mem_singleton_self k) rfl
  show setEntries m.entries k w = es ++ [(k, w)]
  rw [h]
  clear h hnd
  induction es with
  | nil => rw [List.nil_append, setEntries, if_pos rfl, List.nil_append]
  | cons e es ih =>
    rw [List.map_cons, List.mem_cons, not_or] at hfresh
    rw [List.cons_append, setEntries, if_neg (Ne.symm hfresh.1), ih hfresh.2, List.cons_append]

/-- A value is found under its key. -/
theorem get?_of_mem_entries (h : (k, v) ∈ m.entries) : m.get? k = some v := by
  have hsome : (m.entries.find? fun e => e.1 = k).isSome := by
    rw [List.find?_isSome]
    exact ⟨(k, v), h, decide_eq_true rfl⟩
  obtain ⟨e, he⟩ := Option.isSome_iff_exists.1 hsome
  have hfound := List.find?_some he
  have heq : e = (k, v) :=
    List.inj_on_of_nodup_map m.nodup (List.mem_of_find?_eq_some he) h (of_decide_eq_true hfound)
  rw [get?, he, heq]
  rfl

theorem get?_eq_some_iff : m.get? k = some v ↔ (k, v) ∈ m.entries := by
  refine ⟨fun h => ?_, get?_of_mem_entries⟩
  obtain ⟨e, he, rfl⟩ := Option.map_eq_some_iff.1 h
  have hfound := List.find?_some he
  exact of_decide_eq_true hfound ▸ List.mem_of_find?_eq_some he

@[simp] theorem get?_ofList_entries (m : OrderedMap κ ν) (k : κ) :
    (ofList m.entries).get? k = m.get? k := by
  cases h : m.get? k with
  | some v => exact get?_ofList_of_nodup m.nodup (get?_eq_some_iff.1 h)
  | none =>
    rw [get?_ofList_eq_none]
    intro hmem
    obtain ⟨⟨k, v⟩, hentry, rfl⟩ := List.mem_map.1 hmem
    rw [get?_of_mem_entries hentry] at h
    cases h

theorem keys_perm {m' : OrderedMap κ ν} (h : ∀ k, m.get? k = m'.get? k) :
    (m.entries.map Prod.fst).Perm (m'.entries.map Prod.fst) := by
  rw [List.perm_ext_iff_of_nodup m.nodup m'.nodup]
  intro k
  rw [← isSome_get?_iff, ← isSome_get?_iff, h]

theorem mem_values_iff : v ∈ m.values ↔ ∃ k, m.get? k = some v := by
  unfold values
  rw [List.mem_map]
  constructor
  · rintro ⟨⟨k, w⟩, hmem, rfl⟩
    exact ⟨k, get?_of_mem_entries hmem⟩
  · rintro ⟨k, hget⟩
    exact ⟨(k, v), get?_eq_some_iff.1 hget, rfl⟩

private theorem entries_foldl_block {m : OrderedMap κ (List α)}
    (hfresh : k ∉ m.entries.map Prod.fst) {rows : List α} (hne : rows ≠ [])
    (hkey : ∀ a ∈ rows, key a = k) :
    (rows.foldl (fun m row => m.set (key row) ((m.get? (key row)).getD [] ++ [row])) m).entries =
      m.entries ++ [(k, rows)] := by
  induction rows using List.reverseRecOn with
  | nil => exact absurd rfl hne
  | append_singleton rows a ih =>
    have ha : key a = k := hkey a (List.mem_append_right _ (List.mem_singleton_self a))
    rw [List.foldl_append, List.foldl_cons, List.foldl_nil, ha]
    by_cases hrows : rows = []
    · rw [hrows, List.foldl_nil, set_fresh hfresh]
      have hnone : m.get? k = none := by
        rw [get?, Option.map_eq_none_iff, List.find?_eq_none]
        intro e he hek
        exact hfresh (of_decide_eq_true hek ▸ List.mem_map_of_mem he)
      rw [hnone]
      rfl
    · have hlast := ih hrows fun b hb => hkey b (List.mem_append_left _ hb)
      have hget := get?_of_mem_entries (hlast ▸ List.mem_append_right _ (List.mem_singleton_self _))
      rw [hget, Option.getD_some, set_last hlast]

theorem get?_groupBy (rows : List α) (k : κ) :
    ((groupBy key rows).get? k).getD [] = rows.filter fun a => key a = k := by
  induction rows using List.reverseRecOn with
  | nil => rfl
  | append_singleton rows a ih =>
    rw [groupBy, List.foldl_append, List.foldl_cons, List.foldl_nil, ← groupBy, get?_set,
      List.filter_append]
    by_cases hk : k = key a
    · subst hk
      have hone : [a].filter (fun b => key b = key a) = [a] := by simp
      rw [if_pos rfl, Option.getD_some, ih, hone]
    · have hnil : [a].filter (fun b => key b = k) = [] := by simp [Ne.symm hk]
      rw [if_neg hk, ih, hnil, List.append_nil]

theorem get?_groupBy_ne_nil (rows : List α) (k : κ) : (groupBy key rows).get? k ≠ some [] := by
  induction rows using List.reverseRecOn with
  | nil => exact fun h => nomatch h
  | append_singleton rows a ih =>
    rw [groupBy, List.foldl_append, List.foldl_cons, List.foldl_nil, ← groupBy, get?_set]
    split_ifs with hk
    · intro h
      exact List.concat_ne_nil _ _ (Option.some.inj h)
    · exact ih

theorem entries_groupBy {blocks : List (κ × List α)} (hnd : (blocks.map Prod.fst).Nodup)
    (hne : ∀ b ∈ blocks, b.2 ≠ []) (hkey : ∀ b ∈ blocks, ∀ a ∈ b.2, key a = b.1) :
    (groupBy key (blocks.flatMap Prod.snd)).entries = blocks := by
  induction blocks using List.reverseRecOn with
  | nil => rfl
  | append_singleton blocks b ih =>
    rw [List.map_append, List.nodup_append] at hnd
    have hb : b ∈ blocks ++ [b] := List.mem_append_right _ (List.mem_singleton_self b)
    have hpre := ih hnd.1 (fun c hc => hne c (List.mem_append_left _ hc))
      fun c hc => hkey c (List.mem_append_left _ hc)
    have hfresh : b.1 ∉ (groupBy key (blocks.flatMap Prod.snd)).entries.map Prod.fst := by
      rw [hpre]
      exact fun h => hnd.2.2 _ h _ (List.mem_singleton_self b.1) rfl
    rw [List.flatMap_append, List.flatMap_singleton, groupBy, List.foldl_append]
    rw [← groupBy, entries_foldl_block hfresh (hne b hb) (hkey b hb), hpre]

end GroupBy

end OrderedMap

/-! ## Sets as lists without repetition -/

section Sets

variable {α β : Type*} [DecidableEq α] [DecidableEq β]

/-- Add `a` at the end of `l` unless `l` has it. -/
def insertLast (l : List α) (a : α) : List α :=
  if a ∈ l then l else l ++ [a]

variable {l : List α}

@[simp] theorem mem_insertLast {a x : α} : x ∈ insertLast l a ↔ x ∈ l ∨ x = a := by
  rw [insertLast]
  split_ifs with h
  · exact ⟨Or.inl, fun hx => hx.elim id (fun he => he ▸ h)⟩
  · simp

theorem nodup_insertLast (h : l.Nodup) (a : α) : (insertLast l a).Nodup := by
  unfold insertLast
  split_ifs with ha
  · exact h
  · rw [List.nodup_append]
    refine ⟨h, List.nodup_singleton a, ?_⟩
    rintro b hb c hc rfl
    exact ha (List.mem_singleton.1 hc ▸ hb)

theorem nodup_eraseDups : ∀ l : List α, l.eraseDups.Nodup
  | [] => List.nodup_nil
  | a :: l => by
    rw [List.eraseDups_cons, List.nodup_cons]
    refine ⟨?_, nodup_eraseDups _⟩
    simp only [List.mem_eraseDups, List.mem_filter, beq_self_eq_true, Bool.not_true,
      Bool.false_eq_true, and_false, not_false_eq_true]
  termination_by l => l.length
  decreasing_by exact Nat.lt_succ_of_le (List.length_filter_le _ _)

theorem eraseDups_perm {l' : List α} (h : l.Perm l') : l.eraseDups.Perm l'.eraseDups := by
  rw [List.perm_ext_iff_of_nodup (nodup_eraseDups l) (nodup_eraseDups l')]
  intro a
  rw [List.mem_eraseDups, List.mem_eraseDups, h.mem_iff]

end Sets

end Cine.Lib
