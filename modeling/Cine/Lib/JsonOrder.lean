import Cine.Lib.JsonText
import Cine.Lib.Utf16
import Mathlib.Algebra.GroupWithZero.Nat
import Mathlib.Data.List.Perm.Subperm

/-!
# Values up to the order of their properties

Two values are the same up to the order of properties (`Value.Same`) when
arrays agree element by element, and an object has the same value as the other
one under each of its names.

A value is compared by its canonical text: the properties of every object are
sorted (`Value.canonical`), and a number that JSON has no literal for is
written as `null` (`Value.written`).  For values with every name once, the
canonical text decides `Same` (`same_of_stringify`).
-/

namespace Cine.Lib.JsonText

variable {N : Type}

/-! ## Properties as a list -/

def Fields.toList : Fields N → List (List Char × Value N)
  | .nil => []
  | .cons key v rest => (key, v) :: rest.toList

def Fields.ofList : List (List Char × Value N) → Fields N
  | [] => .nil
  | (key, v) :: rest => .cons key v (Fields.ofList rest)

@[simp] theorem toList_ofList (l : List (List Char × Value N)) : (Fields.ofList l).toList = l := by
  induction l with
  | nil => rfl
  | cons p l ih => rw [Fields.ofList, Fields.toList, ih]

theorem ofList_toList (fields : Fields N) : Fields.ofList fields.toList = fields := by
  cases fields with
  | nil => rfl
  | cons key v rest => rw [Fields.toList, Fields.ofList, ofList_toList rest]

variable {key : List Char} {w v : Value N}

theorem last?_eq_none_iff (fields : Fields N) :
    fields.last? key = none ↔ ∀ p ∈ fields.toList, p.1 ≠ key := by
  cases fields with
  | nil => simp [Fields.last?, Fields.toList]
  | cons k v rest =>
    rw [Fields.last?, Fields.toList, List.forall_mem_cons, ← last?_eq_none_iff rest]
    cases rest.last? key with
    | some w => simp
    | none => simp

theorem mem_of_last? :
    ∀ {fields : Fields N}, fields.last? key = some w → (key, w) ∈ fields.toList
  | .nil, h => nomatch h
  | .cons k v rest, h => by
    rw [Fields.last?] at h
    rw [Fields.toList, List.mem_cons]
    cases hrest : rest.last? key with
    | some w' =>
      rw [hrest] at h
      cases h
      exact Or.inr (mem_of_last? hrest)
    | none =>
      rw [hrest] at h
      dsimp only at h
      split_ifs at h with hk
      cases h
      exact Or.inl (by rw [hk])

/-! ## Every name once -/

mutual
/-- Every object in the value has every name once. -/
def Value.Unique : Value N → Prop
  | .arr items => items.Unique
  | .obj fields => fields.Unique
  | _ => True

def Items.Unique : Items N → Prop
  | .nil => True
  | .cons v rest => v.Unique ∧ rest.Unique

def Fields.Unique : Fields N → Prop
  | .nil => True
  | .cons key v rest => rest.last? key = none ∧ v.Unique ∧ rest.Unique
end

theorem last?_of_mem :
    ∀ {fields : Fields N}, fields.Unique → (key, w) ∈ fields.toList → fields.last? key = some w
  | .nil, _, h => nomatch h
  | .cons k v rest, hunique, h => by
    rw [Fields.Unique] at hunique
    obtain ⟨hk, -, hrest⟩ := hunique
    rw [Fields.toList, List.mem_cons] at h
    rw [Fields.last?]
    rcases h with h | h
    · cases h
      rw [hk]
      exact if_pos rfl
    · rw [last?_of_mem hrest h]

theorem Fields.Unique.value :
    ∀ {fields : Fields N}, fields.Unique → (key, w) ∈ fields.toList → w.Unique
  | .nil, _, h => nomatch h
  | .cons k v rest, hunique, h => by
    rw [Fields.Unique] at hunique
    rw [Fields.toList, List.mem_cons] at h
    rcases h with h | h
    · cases h
      exact hunique.2.1
    · exact hunique.2.2.value h

theorem Fields.Unique.erase (key : List Char) :
    ∀ {fields : Fields N}, fields.Unique → (fields.erase key).Unique
  | .nil, h => h
  | .cons k v rest, h => by
    rw [Fields.Unique] at h
    obtain ⟨hk, hv, hrest⟩ := h
    rw [Fields.erase]
    split_ifs
    · exact hrest.erase key
    · rw [Fields.Unique, last?_erase, hk]
      exact ⟨ite_self none, hv, hrest.erase key⟩

theorem Fields.Unique.insert {rest : Fields N} (hv : v.Unique) (hrest : rest.Unique) :
    (Fields.insert key v rest).Unique := by
  unfold Fields.insert
  cases hlast : rest.last? key with
  | none => exact ⟨hlast, hv, hrest⟩
  | some w =>
    refine ⟨?_, hrest.value (mem_of_last? hlast), hrest.erase key⟩
    rw [last?_erase, if_pos rfl]

mutual
/-- What is parsed has every name once. -/
theorem unique_collapse : ∀ v : Value N, v.collapse.Unique
  | .null => trivial
  | .bool _ => trivial
  | .num _ => trivial
  | .str _ => trivial
  | .arr items => unique_collapseItems items
  | .obj fields => unique_collapseFields fields

theorem unique_collapseItems : ∀ items : Items N, items.collapse.Unique
  | .nil => trivial
  | .cons v rest => ⟨unique_collapse v, unique_collapseItems rest⟩

theorem unique_collapseFields : ∀ fields : Fields N, fields.collapse.Unique
  | .nil => trivial
  | .cons _ v rest => .insert (unique_collapse v) (unique_collapseFields rest)
end

theorem unique_of_parse {num : Numerals N} {text : List Char} (h : parse num text = some v) :
    v.Unique := by
  unfold parse at h
  obtain ⟨raw, -, rfl⟩ := Option.map_eq_some_iff.1 h
  exact unique_collapse raw

mutual
/-- What has every name once does not change. -/
theorem collapse_of_unique : ∀ {v : Value N}, v.Unique → v.collapse = v
  | .null, _ => rfl
  | .bool _, _ => rfl
  | .num _, _ => rfl
  | .str _, _ => rfl
  | .arr _, h => congrArg Value.arr (collapseItems_of_unique h)
  | .obj _, h => congrArg Value.obj (collapseFields_of_unique h)

theorem collapseItems_of_unique : ∀ {items : Items N}, items.Unique → items.collapse = items
  | .nil, _ => rfl
  | .cons v rest, h => by
    rw [Items.collapse, collapse_of_unique h.1, collapseItems_of_unique h.2]

theorem collapseFields_of_unique : ∀ {fields : Fields N}, fields.Unique →
    fields.collapse = fields
  | .nil, _ => rfl
  | .cons key v rest, h => by
    rw [Fields.collapse, collapse_of_unique h.2.1, collapseFields_of_unique h.2.2, Fields.insert,
      h.1]
end

/-! ## The canonical form -/

section Order

variable {α β : Type}

/-- The place of an element that has the name. -/
def arrayIndex? (key : List Char) : Option Nat :=
  let n := key.foldl (fun n c => n * 10 + (c.toNat - 48)) 0
  if key.all Char.isDigit ∧ (key = ['0'] ∨ key.head?.any (· ≠ '0')) ∧ n < 2 ^ 32 - 1 then some n
  else none

/-- `Object.keys(obj).sort()`: the units of the names are compared. -/
def sortKeys (l : List (List Char × α)) : List (List Char × α) :=
  l.insertionSort fun p q => utf16 (.ofList p.1) ≤ utf16 (.ofList q.1)

/-- Names that are in an order are in one order only. -/
theorem sortKeys_eq {l l' : List (List Char × α)} (hperm : l.Perm l')
    (hkeys : (l.map Prod.fst).Nodup) : sortKeys l = sortKeys l' := by
  let le : List Char × α → List Char × α → Prop :=
    fun p q => utf16 (.ofList p.1) ≤ utf16 (.ofList q.1)
  have : Std.Total le := ⟨fun p q => le_total _ _⟩
  have : IsTrans _ le := ⟨fun p q r hpq hqr => le_trans hpq hqr⟩
  have hleft : (sortKeys l).Perm l := List.perm_insertionSort _ l
  have hright : (sortKeys l').Perm l' := List.perm_insertionSort _ l'
  have hsorted : ∀ m : List (List Char × α), (sortKeys m).Pairwise le :=
    List.pairwise_insertionSort le
  refine List.Perm.eq_of_pairwise ?_ (hsorted l) (hsorted l')
    (hleft.trans (hperm.trans hright.symm))
  intro p q hp hq hpq hqp
  have hname : String.ofList p.1 = String.ofList q.1 := utf16_injective (le_antisymm hpq hqp)
  refine List.inj_on_of_nodup_map hkeys (hleft.subset hp)
    (hperm.symm.subset (hright.subset hq)) ?_
  rw [← String.toList_ofList (l := p.1), hname, String.toList_ofList]

/-- The order in which an object has its properties: elements come first. -/
def elementsFirst (l : List (List Char × α)) : List (List Char × α) :=
  (l.filter fun p => (arrayIndex? p.1).isSome).insertionSort
      (fun p q => (arrayIndex? p.1).getD 0 ≤ (arrayIndex? q.1).getD 0) ++
    l.filter fun p => !(arrayIndex? p.1).isSome

/-- The order of the properties in the canonical form. -/
def canonicalOrder (l : List (List Char × α)) : List (List Char × α) := elementsFirst (sortKeys l)

theorem perm_canonicalOrder (l : List (List Char × α)) : (canonicalOrder l).Perm l := by
  have hsort : (sortKeys l).Perm l := List.perm_insertionSort _ l
  refine List.Perm.trans ?_ hsort
  unfold canonicalOrder elementsFirst
  exact ((List.perm_insertionSort _ _).append_right _).trans
    (List.filter_append_perm (fun p => (arrayIndex? p.1).isSome) (sortKeys l))

theorem map_canonicalOrder (f : α → β) (l : List (List Char × α)) :
    (canonicalOrder l).map (Prod.map id f) = canonicalOrder (l.map (Prod.map id f)) := by
  have hsort : (sortKeys l).map (Prod.map id f) = sortKeys (l.map (Prod.map id f)) :=
    List.map_insertionSort _ _ _ l fun _ _ _ _ => Iff.rfl
  unfold canonicalOrder
  rw [← hsort]
  generalize sortKeys l = l
  unfold elementsFirst
  rw [List.map_append, List.filter_map, List.filter_map]
  congr 1
  exact List.map_insertionSort _ _ _ _ fun _ _ _ _ => Iff.rfl

end Order

mutual
def Value.canonical : Value N → Value N
  | .null => .null
  | .bool b => .bool b
  | .num n => .num n
  | .str s => .str s
  | .arr items => .arr items.canonical
  | .obj fields => .obj (.ofList (canonicalOrder fields.canonical.toList))

def Items.canonical : Items N → Items N
  | .nil => .nil
  | .cons v rest => .cons v.canonical rest.canonical

/-- The values of the properties in the canonical form. -/
def Fields.canonical : Fields N → Fields N
  | .nil => .nil
  | .cons key v rest => .cons key v.canonical rest.canonical
end

theorem toList_canonical : ∀ fields : Fields N,
    fields.canonical.toList = fields.toList.map (Prod.map id Value.canonical)
  | .nil => rfl
  | .cons key v rest => by
    rw [Fields.canonical, Fields.toList, Fields.toList, toList_canonical rest]
    rfl

mutual
/-- Equal up to the order of properties. -/
def Value.Same : Value N → Value N → Prop
  | .null, .null => True
  | .bool b, .bool b' => b = b'
  | .num n, .num n' => n = n'
  | .str s, .str s' => s = s'
  | .arr items, .arr items' => items.Same items'
  | .obj fields, .obj fields' =>
    fields.toList.length = fields'.toList.length ∧ fields.Within fields'
  | _, _ => False

def Items.Same : Items N → Items N → Prop
  | .nil, .nil => True
  | .cons v rest, .cons w rest' => v.Same w ∧ rest.Same rest'
  | _, _ => False

/-- Each property has the same value in the other object. -/
def Fields.Within : Fields N → Fields N → Prop
  | .nil, _ => True
  | .cons key v rest, fields =>
    (∃ w, fields.last? key = some w ∧ v.Same w) ∧ rest.Within fields
end

/-- The names in the canonical form are the names of the object. -/
theorem nodup_keys_of_unique : ∀ {fields : Fields N}, fields.Unique →
    (fields.toList.map Prod.fst).Nodup
  | .nil, _ => List.nodup_nil
  | .cons key v rest, h => by
    rw [Fields.Unique] at h
    rw [Fields.toList, List.map_cons, List.nodup_cons]
    refine ⟨fun hmem => ?_, nodup_keys_of_unique h.2.2⟩
    obtain ⟨p, hp, hkey⟩ := List.mem_map.1 hmem
    exact (last?_eq_none_iff _).1 h.1 p hp hkey

theorem map_fst_toList_canonical (fields : Fields N) :
    fields.canonical.toList.map Prod.fst = fields.toList.map Prod.fst := by
  rw [toList_canonical, List.map_map]
  rfl

mutual
theorem same_of_canonical : ∀ {v w : Value N}, v.Unique → w.Unique →
    v.canonical = w.canonical → v.Same w
  | .null, w, _, _, h => by
    cases w with
    | null => trivial
    | _ => cases h
  | .bool b, w, _, _, h => by
    cases w with
    | bool b' => exact Value.bool.inj h
    | _ => cases h
  | .num n, w, _, _, h => by
    cases w with
    | num n' => exact Value.num.inj h
    | _ => cases h
  | .str s, w, _, _, h => by
    cases w with
    | str s' => exact Value.str.inj h
    | _ => cases h
  | .arr items, w, hv, hw, h => by
    cases w with
    | arr items' =>
      rw [Value.canonical, Value.canonical] at h
      exact sameItems_of_canonical hv hw (Value.arr.inj h)
    | _ => cases h
  | .obj fields, w, hv, hw, h => by
    cases w with
    | obj fields' =>
      rw [Value.canonical, Value.canonical] at h
      have horder : canonicalOrder fields.canonical.toList =
          canonicalOrder fields'.canonical.toList := by
        rw [← toList_ofList (canonicalOrder fields.canonical.toList), Value.obj.inj h,
          toList_ofList]
      have hperm : fields.canonical.toList.Perm fields'.canonical.toList :=
        (perm_canonicalOrder _).symm.trans (horder ▸ perm_canonicalOrder _)
      refine ⟨?_, within_of_canonical hv hw fun p hp => hperm.subset hp⟩
      have hlength := hperm.length_eq
      rwa [toList_canonical, toList_canonical, List.length_map, List.length_map] at hlength
    | _ => cases h

theorem sameItems_of_canonical : ∀ {items items' : Items N}, items.Unique → items'.Unique →
    items.canonical = items'.canonical → items.Same items'
  | .nil, items', _, _, h => by
    cases items' with
    | nil => trivial
    | cons w rest' => cases h
  | .cons v rest, items', hv, hw, h => by
    cases items' with
    | nil => cases h
    | cons w rest' =>
      rw [Items.canonical, Items.canonical] at h
      obtain ⟨hfirst, hothers⟩ := Items.cons.inj h
      exact ⟨same_of_canonical hv.1 hw.1 hfirst, sameItems_of_canonical hv.2 hw.2 hothers⟩

theorem within_of_canonical : ∀ {fields fields' : Fields N}, fields.Unique → fields'.Unique →
    (∀ p ∈ fields.canonical.toList, p ∈ fields'.canonical.toList) → fields.Within fields'
  | .nil, _, _, _, _ => trivial
  | .cons key v rest, fields', hv, hw, h => by
    rw [Fields.canonical, Fields.toList, List.forall_mem_cons, toList_canonical fields'] at h
    obtain ⟨hfirst, hothers⟩ := h
    obtain ⟨⟨key', w⟩, hmem, heq⟩ := List.mem_map.1 hfirst
    obtain ⟨rfl, hcanonical⟩ := Prod.mk.inj heq
    have hunique : w.Unique := hw.value hmem
    refine ⟨⟨w, last?_of_mem hw hmem, same_of_canonical hv.2.1 hunique hcanonical.symm⟩, ?_⟩
    refine within_of_canonical hv.2.2 hw ?_
    rw [toList_canonical fields']
    exact hothers
end

mutual
theorem canonical_of_same : ∀ {v w : Value N}, v.Unique → w.Unique →
    v.Same w → v.canonical = w.canonical
  | .null, w, _, _, h => by
    cases w with
    | null => rfl
    | _ => cases h
  | .bool b, w, _, _, h => by
    cases w with
    | bool b' => exact congrArg Value.bool h
    | _ => cases h
  | .num n, w, _, _, h => by
    cases w with
    | num n' => exact congrArg Value.num h
    | _ => cases h
  | .str s, w, _, _, h => by
    cases w with
    | str s' => exact congrArg Value.str h
    | _ => cases h
  | .arr items, w, hv, hw, h => by
    cases w with
    | arr items' =>
      rw [Value.canonical, Value.canonical, canonicalItems_of_same hv hw h]
    | _ => cases h
  | .obj fields, w, hv, hw, h => by
    cases w with
    | obj fields' =>
      obtain ⟨hlength, hwithin⟩ := h
      have hkeys : (fields.canonical.toList.map Prod.fst).Nodup := by
        rw [map_fst_toList_canonical]
        exact nodup_keys_of_unique hv
      have hsubset : fields.canonical.toList ⊆ fields'.canonical.toList :=
        fun p hp => canonical_of_within hv hw hwithin p hp
      have hperm : fields.canonical.toList.Perm fields'.canonical.toList := by
        refine (List.subperm_of_subset hkeys.of_map hsubset).perm_of_length_le ?_
        rw [toList_canonical, toList_canonical, List.length_map, List.length_map, hlength]
      rw [Value.canonical, Value.canonical, canonicalOrder, canonicalOrder,
        sortKeys_eq hperm hkeys]
    | _ => cases h

theorem canonicalItems_of_same : ∀ {items items' : Items N}, items.Unique → items'.Unique →
    items.Same items' → items.canonical = items'.canonical
  | .nil, items', _, _, h => by
    cases items' with
    | nil => rfl
    | cons w rest' => cases h
  | .cons v rest, items', hv, hw, h => by
    cases items' with
    | nil => cases h
    | cons w rest' =>
      rw [Items.canonical, Items.canonical, canonical_of_same hv.1 hw.1 h.1,
        canonicalItems_of_same hv.2 hw.2 h.2]

theorem canonical_of_within : ∀ {fields fields' : Fields N}, fields.Unique → fields'.Unique →
    fields.Within fields' → ∀ p ∈ fields.canonical.toList, p ∈ fields'.canonical.toList
  | .nil, _, _, _, _ => nofun
  | .cons key v rest, fields', hv, hw, h => by
    obtain ⟨⟨w, hlast, hsame⟩, hrest⟩ := h
    have hmem : (key, w) ∈ fields'.toList := mem_of_last? hlast
    rw [Fields.canonical, Fields.toList, List.forall_mem_cons,
      canonical_of_same hv.2.1 (hw.value hmem) hsame]
    refine ⟨?_, canonical_of_within hv.2.2 hw hrest⟩
    rw [toList_canonical]
    exact List.mem_map.2 ⟨_, hmem, rfl⟩
end

theorem canonical_eq_iff (hv : v.Unique) (hw : w.Unique) : v.canonical = w.canonical ↔ v.Same w :=
  ⟨same_of_canonical hv hw, canonical_of_same hv hw⟩

/-! ## The text of the canonical form -/

section Written

variable (isFinite : N → Bool)

mutual
/-- What is written for a value: JSON has no literal for a number that is not
finite. -/
def Value.written : Value N → Value N
  | .null => .null
  | .bool b => .bool b
  | .num n => if isFinite n then .num n else .null
  | .str s => .str s
  | .arr items => .arr items.written
  | .obj fields => .obj fields.written

def Items.written : Items N → Items N
  | .nil => .nil
  | .cons v rest => .cons v.written rest.written

def Fields.written : Fields N → Fields N
  | .nil => .nil
  | .cons key v rest => .cons key v.written rest.written
end

theorem toList_written : ∀ fields : Fields N, (fields.written isFinite).toList =
    fields.toList.map (Prod.map id (Value.written isFinite))
  | .nil => rfl
  | .cons key v rest => by
    rw [Fields.written, Fields.toList, Fields.toList, toList_written rest]
    rfl

theorem written_ofList (l : List (List Char × Value N)) : (Fields.ofList l).written isFinite =
    .ofList (l.map (Prod.map id (Value.written isFinite))) := by
  rw [← ofList_toList ((Fields.ofList l).written isFinite), toList_written, toList_ofList]

theorem last?_written (key : List Char) : ∀ fields : Fields N,
    (fields.written isFinite).last? key = (fields.last? key).map (Value.written isFinite)
  | .nil => rfl
  | .cons k v rest => by
    rw [Fields.written, Fields.last?, Fields.last?, last?_written key rest]
    cases rest.last? key with
    | some w => rfl
    | none =>
      rw [Option.map_none]
      dsimp only
      split_ifs <;> rfl

mutual
theorem canonical_written : ∀ v : Value N,
    v.canonical.written isFinite = (v.written isFinite).canonical
  | .null => rfl
  | .bool _ => rfl
  | .num n => by
    rw [Value.canonical, Value.written]
    split_ifs <;> rfl
  | .str _ => rfl
  | .arr items => by
    rw [Value.canonical, Value.written, Value.written, Value.canonical,
      canonicalItems_written items]
  | .obj fields => by
    rw [Value.canonical, Value.written, Value.written, Value.canonical, written_ofList,
      map_canonicalOrder, ← toList_written, canonicalFields_written fields]

theorem canonicalItems_written : ∀ items : Items N,
    items.canonical.written isFinite = (items.written isFinite).canonical
  | .nil => rfl
  | .cons v rest => by
    rw [Items.canonical, Items.written, Items.written, Items.canonical, canonical_written v,
      canonicalItems_written rest]

theorem canonicalFields_written : ∀ fields : Fields N,
    fields.canonical.written isFinite = (fields.written isFinite).canonical
  | .nil => rfl
  | .cons key v rest => by
    rw [Fields.canonical, Fields.written, Fields.written, Fields.canonical, canonical_written v,
      canonicalFields_written rest]
end

mutual
theorem Value.Unique.written : ∀ {v : Value N}, v.Unique → (v.written isFinite).Unique
  | .null, _ => trivial
  | .bool _, _ => trivial
  | .num n, _ => by
    rw [Value.written]
    split_ifs <;> trivial
  | .str _, _ => trivial
  | .arr _, h => Items.Unique.written h
  | .obj _, h => Fields.Unique.written h

theorem Items.Unique.written : ∀ {items : Items N}, items.Unique →
    (items.written isFinite).Unique
  | .nil, _ => trivial
  | .cons _ _, h => ⟨Value.Unique.written h.1, Items.Unique.written h.2⟩

theorem Fields.Unique.written : ∀ {fields : Fields N}, fields.Unique →
    (fields.written isFinite).Unique
  | .nil, _ => trivial
  | .cons key v rest, h => by
    refine ⟨?_, Value.Unique.written h.2.1, Fields.Unique.written h.2.2⟩
    rw [last?_written, h.1]
    rfl
end

variable (num : Numerals N)

def canonicalStringify (v : Value N) : List Char := print num (v.canonical.written isFinite)

theorem canonicalStringify_eq_iff {v w : Value N} (hv : v.Unique) (hw : w.Unique) :
    canonicalStringify isFinite num v = canonicalStringify isFinite num w ↔
      (v.written isFinite).Same (w.written isFinite) := by
  unfold canonicalStringify
  rw [(print_injective num).eq_iff, canonical_written, canonical_written,
    canonical_eq_iff (hv.written isFinite) (hw.written isFinite)]

/-- An object that JSON can write: it has every name once, and its numbers
are finite. -/
structure JsonObject (isFinite : N → Bool) where
  fields : Fields N
  unique : fields.Unique
  finite : fields.written isFinite = fields

namespace JsonObject

variable {isFinite}

def value (o : JsonObject isFinite) : Value N := .obj o.fields

theorem unique_value (o : JsonObject isFinite) : o.value.Unique := o.unique

theorem written_value (o : JsonObject isFinite) : o.value.written isFinite = o.value :=
  congrArg Value.obj o.finite

end JsonObject

end Written

end Cine.Lib.JsonText
