import Cine.Lib.OrderedMap
import Cine.Lib.Utf16
import Mathlib.Data.Prod.Lex

/-!
# The review groups

`groupResults` of `grading/review-group/review-group.ts`: papers with one rule
form a group for the rule and the version of their rubric, papers with several
rules form one group, and papers without an error another.

* The groups as the code computes them: the rows are added one by one to their
  buckets, and the buckets are sorted.
* `Gathered`: after any rows, the bucket of a class has what the rows of the
  class give, and there is a bucket of a rule exactly where there is such a row.
* `groupResults_eq`: the list has one group for each class of the rows, in an
  order that the rows do not influence.
-/

namespace Cine.Grading

open Cine.Lib

/-! ## The rows and the groups -/

/-- The id of a rubric version.  The column is a `uuid`, which has no colon. -/
@[ext] structure VersionId where
  text : String
  no_colon : ':' ∉ text.toList

instance : DecidableEq VersionId := fun _ _ => decidable_of_iff _ VersionId.ext_iff.symm

structure GroupError where
  ruleId : String
  source : String

/-- A paper, with the errors of its latest computation. -/
structure GroupInput where
  resultId : String
  rubricVersionId : VersionId
  errors : List GroupError

inductive ReviewGroupKind
  | single
  | multi
  | none
deriving DecidableEq, Repr

structure ReviewGroup where
  key : String
  label : String
  description : Option String
  sources : List String
  kind : ReviewGroupKind
  ruleId : Option String
  resultIds : List String
  sampleResultIds : List String
deriving DecidableEq, Repr

def REVIEW_GROUP_SAMPLE_SIZE : Nat := 3

def MULTI_GROUP_LABEL : String := "Bài có nhiều lỗi"

def NONE_GROUP_LABEL : String := "Hệ thống không tìm thấy lỗi nào"

def byCodeUnit (a b : String) : Int :=
  if utf16 a < utf16 b then -1 else if utf16 b < utf16 a then 1 else 0

/-! ## Buckets -/

/-- Two sets, in the order of insertion. -/
structure Bucket where
  resultIds : List String
  sources : List String

def emptyBucket : Bucket := ⟨[], []⟩

def Bucket.add (b : Bucket) (row : GroupInput) : Bucket where
  resultIds := insertLast b.resultIds row.resultId
  sources := (row.errors.map GroupError.source).foldl insertLast b.sources

def toGroup (kind : ReviewGroupKind) (key : String) (ruleId : Option String) (label : String)
    (bucket : Bucket) : ReviewGroup :=
  let resultIds := sortStrings bucket.resultIds
  { key
    label
    description := none
    sources := sortStrings bucket.sources
    kind
    ruleId
    resultIds
    sampleResultIds := resultIds.take REVIEW_GROUP_SAMPLE_SIZE }

def singleGroupKey (rubricVersionId : VersionId) (ruleId : String) : String :=
  rubricVersionId.text ++ ":" ++ ruleId

structure SingleBucket extends Bucket where
  rubricVersionId : VersionId
  ruleId : String

def SingleBucket.place (b : SingleBucket) : VersionId × String := (b.rubricVersionId, b.ruleId)

/-- The comparator of the groups of one rule. -/
def compareSingle (a b : VersionId × String) : Int :=
  let c := byCodeUnit a.2 b.2
  if c ≠ 0 then c else byCodeUnit a.1.text b.1.text

structure Buckets where
  single : OrderedMap String SingleBucket
  multi : Bucket
  none : Bucket

namespace Buckets

def empty : Buckets := ⟨.empty, emptyBucket, emptyBucket⟩

/-- The bucket of a rule, before a row is added to it. -/
def bucketFor (b : Buckets) (v : VersionId) (r : String) : SingleBucket :=
  (b.single.get? (singleGroupKey v r)).getD { emptyBucket with rubricVersionId := v, ruleId := r }

/-- One pass of the loop over the rows. -/
def add (b : Buckets) (row : GroupInput) : Buckets :=
  match (row.errors.map GroupError.ruleId).eraseDups with
  | [] => { b with none := b.none.add row }
  | [ruleId] =>
    let key := singleGroupKey row.rubricVersionId ruleId
    let created := b.bucketFor row.rubricVersionId ruleId
    { b with single := b.single.set key { created with toBucket := created.toBucket.add row } }
  | _ :: _ :: _ => { b with multi := b.multi.add row }

def singles (b : Buckets) : List (String × SingleBucket) :=
  b.single.entries.insertionSort fun x y => compareSingle x.2.place y.2.place ≤ 0

def groups (b : Buckets) : List ReviewGroup :=
  b.singles.map (fun e => toGroup .single e.1 (some e.2.ruleId) e.2.ruleId e.2.toBucket) ++
    (if 0 < b.multi.resultIds.length then
      [toGroup .multi "multi" Option.none MULTI_GROUP_LABEL b.multi] else []) ++
    if 0 < b.none.resultIds.length then
      [toGroup .none "none" Option.none NONE_GROUP_LABEL b.none] else []

end Buckets

def groupResults (rows : List GroupInput) : List ReviewGroup :=
  (rows.foldl Buckets.add .empty).groups

/-! ## What a bucket has -/

def bucketOf (rows : List GroupInput) : Bucket := rows.foldl Bucket.add emptyBucket

theorem bucketOf_concat (rows : List GroupInput) (row : GroupInput) :
    bucketOf (rows ++ [row]) = (bucketOf rows).add row :=
  List.foldl_concat _ _ _ _

theorem mem_foldl_insertLast {x : String} (l : List String) (s : List String) :
    x ∈ l.foldl insertLast s ↔ x ∈ s ∨ x ∈ l := by
  induction l generalizing s with
  | nil => simp
  | cons y l ih => rw [List.foldl_cons, ih, mem_insertLast, List.mem_cons, or_assoc]

theorem nodup_foldl_insertLast (l : List String) {s : List String} (h : s.Nodup) :
    (l.foldl insertLast s).Nodup := by
  induction l generalizing s with
  | nil => exact h
  | cons y l ih => exact ih (nodup_insertLast h y)

variable {rows rows' : List GroupInput} {row : GroupInput} {b : Buckets}
    {places : List (VersionId × String)}

theorem mem_resultIds_bucketOf {id : String} :
    id ∈ (bucketOf rows).resultIds ↔ ∃ row ∈ rows, row.resultId = id := by
  induction rows using List.reverseRecOn with
  | nil => simp [bucketOf, emptyBucket]
  | append_singleton rows row ih =>
    rw [bucketOf_concat]
    show id ∈ insertLast _ _ ↔ _
    rw [mem_insertLast, ih]
    simp [or_and_right, exists_or, eq_comm]

theorem mem_sources_bucketOf {s : String} :
    s ∈ (bucketOf rows).sources ↔ ∃ row ∈ rows, s ∈ row.errors.map GroupError.source := by
  induction rows using List.reverseRecOn with
  | nil => simp [bucketOf, emptyBucket]
  | append_singleton rows row ih =>
    rw [bucketOf_concat]
    show s ∈ List.foldl insertLast _ _ ↔ _
    rw [mem_foldl_insertLast, ih]
    simp [or_and_right, exists_or]

theorem nodup_bucketOf (rows : List GroupInput) :
    (bucketOf rows).resultIds.Nodup ∧ (bucketOf rows).sources.Nodup := by
  induction rows using List.reverseRecOn with
  | nil => exact ⟨List.nodup_nil, List.nodup_nil⟩
  | append_singleton rows row ih =>
    rw [bucketOf_concat]
    exact ⟨nodup_insertLast ih.1 _, nodup_foldl_insertLast _ ih.2⟩

theorem toGroup_perm (h : rows.Perm rows') (kind : ReviewGroupKind) (key : String)
    (ruleId : Option String) (label : String) :
    toGroup kind key ruleId label (bucketOf rows) =
      toGroup kind key ruleId label (bucketOf rows') := by
  have hids : sortStrings (bucketOf rows).resultIds = sortStrings (bucketOf rows').resultIds := by
    refine sortStrings_eq_of_perm ?_
    rw [List.perm_ext_iff_of_nodup (nodup_bucketOf rows).1 (nodup_bucketOf rows').1]
    intro id
    rw [mem_resultIds_bucketOf, mem_resultIds_bucketOf]
    simp only [h.mem_iff]
  have hsources : sortStrings (bucketOf rows).sources = sortStrings (bucketOf rows').sources := by
    refine sortStrings_eq_of_perm ?_
    rw [List.perm_ext_iff_of_nodup (nodup_bucketOf rows).2 (nodup_bucketOf rows').2]
    intro s
    rw [mem_sources_bucketOf, mem_sources_bucketOf]
    simp only [h.mem_iff]
  unfold toGroup
  rw [hids, hsources]

/-! ## The class of a row -/

/-- Which bucket a row goes into. -/
inductive GroupClass
  | single (version : VersionId) (ruleId : String)
  | multi
  | none
deriving DecidableEq

def GroupInput.groupClass (row : GroupInput) : GroupClass :=
  match (row.errors.map GroupError.ruleId).eraseDups with
  | [] => .none
  | [ruleId] => .single row.rubricVersionId ruleId
  | _ :: _ :: _ => .multi

def rowsOf (c : GroupClass) (rows : List GroupInput) : List GroupInput :=
  rows.filter fun row => row.groupClass = c

variable {c : GroupClass}

theorem mem_rowsOf : row ∈ rowsOf c rows ↔ row ∈ rows ∧ row.groupClass = c := by
  simp [rowsOf]

theorem rowsOf_concat (c : GroupClass) (rows : List GroupInput) (row : GroupInput) :
    rowsOf c (rows ++ [row]) =
      if row.groupClass = c then rowsOf c rows ++ [row] else rowsOf c rows := by
  unfold rowsOf
  rw [List.filter_append]
  split_ifs with h <;> simp [h]

theorem rowsOf_perm (h : rows.Perm rows') (c : GroupClass) :
    (rowsOf c rows).Perm (rowsOf c rows') :=
  h.filter _

def GroupClass.group (rows : List GroupInput) (c : GroupClass) : ReviewGroup :=
  match c with
  | .single version ruleId =>
    toGroup .single (singleGroupKey version ruleId) (some ruleId) ruleId (bucketOf (rowsOf c rows))
  | .multi => toGroup .multi "multi" Option.none MULTI_GROUP_LABEL (bucketOf (rowsOf c rows))
  | .none => toGroup .none "none" Option.none NONE_GROUP_LABEL (bucketOf (rowsOf c rows))

theorem group_perm (h : rows.Perm rows') (c : GroupClass) : c.group rows = c.group rows' := by
  cases c <;> exact toGroup_perm (rowsOf_perm h _) _ _ _ _

theorem resultIds_group (rows : List GroupInput) (c : GroupClass) :
    (c.group rows).resultIds = sortStrings (bucketOf (rowsOf c rows)).resultIds := by
  cases c <;> rfl

theorem mem_resultIds_group {id : String} :
    id ∈ (c.group rows).resultIds ↔ ∃ row ∈ rows, row.groupClass = c ∧ row.resultId = id := by
  rw [resultIds_group, mem_sortStrings, mem_resultIds_bucketOf]
  simp only [mem_rowsOf, and_assoc]

theorem nodup_resultIds_group (rows : List GroupInput) (c : GroupClass) :
    (c.group rows).resultIds.Nodup := by
  rw [resultIds_group]
  exact (List.perm_insertionSort _ _).nodup_iff.2 (nodup_bucketOf _).1

theorem singleGroupKey_inj {v w : VersionId} {r s : String}
    (h : singleGroupKey v r = singleGroupKey w s) : v = w ∧ r = s := by
  have hversion : ∀ (x : VersionId) (t : String),
      (singleGroupKey x t).toList.takeWhile (· ≠ ':') = x.text.toList := by
    intro x t
    have hkey : (singleGroupKey x t).toList = x.text.toList ++ (':' :: t.toList) := by
      unfold singleGroupKey
      rw [String.toList_append, String.toList_append, List.append_assoc]
      rfl
    rw [hkey, List.takeWhile_append_of_pos]
    · simp
    · intro c hc
      exact decide_eq_true fun heq => x.no_colon (heq ▸ hc)
  have hv : v = w := by
    apply VersionId.ext
    rw [← String.toList_inj, ← hversion v r, h, hversion w s]
  subst hv
  exact ⟨rfl, String.append_right_inj _ |>.1 h⟩

/-! ## The loop over the rows -/

/-- The buckets of the rows so far. -/
structure Gathered (b : Buckets) (rows : List GroupInput) : Prop where
  none : b.none = bucketOf (rowsOf .none rows)
  multi : b.multi = bucketOf (rowsOf .multi rows)
  single : ∀ v r, b.single.get? (singleGroupKey v r) =
    if rowsOf (.single v r) rows = [] then Option.none
    else some ⟨bucketOf (rowsOf (.single v r) rows), v, r⟩
  key : ∀ k s, b.single.get? k = some s → k = singleGroupKey s.rubricVersionId s.ruleId

theorem add_none (h : row.groupClass = .none) : b.add row = { b with none := b.none.add row } := by
  unfold GroupInput.groupClass at h
  unfold Buckets.add
  split at h
  · rfl
  · cases h
  · cases h

theorem add_multi (h : row.groupClass = .multi) :
    b.add row = { b with multi := b.multi.add row } := by
  unfold GroupInput.groupClass at h
  unfold Buckets.add
  split at h
  · cases h
  · cases h
  · rfl

theorem add_single {v : VersionId} {r : String} (h : row.groupClass = .single v r) :
    b.add row =
      { b with
        single := b.single.set (singleGroupKey v r)
          { b.bucketFor v r with toBucket := (b.bucketFor v r).toBucket.add row } } := by
  unfold GroupInput.groupClass at h
  unfold Buckets.add
  split at h
  · cases h
  · cases h
    rfl
  · cases h

theorem Gathered.start : Gathered .empty [] where
  none := rfl
  multi := rfl
  single := fun _ _ => rfl
  key := by
    intro k s h
    cases h

theorem Gathered.bucketFor (h : Gathered b rows) (v : VersionId) (r : String) :
    b.bucketFor v r = ⟨bucketOf (rowsOf (.single v r) rows), v, r⟩ := by
  unfold Buckets.bucketFor
  rw [h.single]
  split_ifs with hrows
  · rw [hrows]
    rfl
  · rfl

theorem Gathered.add (h : Gathered b rows) (row : GroupInput) :
    Gathered (b.add row) (rows ++ [row]) := by
  have hown : rowsOf row.groupClass (rows ++ [row]) = rowsOf row.groupClass rows ++ [row] := by
    rw [rowsOf_concat, if_pos rfl]
  have hother : ∀ c, row.groupClass ≠ c → rowsOf c (rows ++ [row]) = rowsOf c rows := by
    intro c hc
    rw [rowsOf_concat, if_neg hc]
  cases hc : row.groupClass with
  | none =>
    rw [hc] at hown hother
    rw [add_none hc]
    constructor
    · rw [hown, bucketOf_concat, h.none]
    · rw [hother _ (by simp), h.multi]
    · intro v r
      rw [hother _ (by simp)]
      exact h.single v r
    · exact h.key
  | multi =>
    rw [hc] at hown hother
    rw [add_multi hc]
    constructor
    · rw [hother _ (by simp), h.none]
    · rw [hown, bucketOf_concat, h.multi]
    · intro v r
      rw [hother _ (by simp)]
      exact h.single v r
    · exact h.key
  | single w s =>
    rw [hc] at hown hother
    rw [add_single hc]
    constructor
    · rw [hother _ (by simp), h.none]
    · rw [hother _ (by simp), h.multi]
    · intro v r
      dsimp only
      rw [OrderedMap.get?_set]
      by_cases hkey : singleGroupKey v r = singleGroupKey w s
      · obtain ⟨rfl, rfl⟩ := singleGroupKey_inj hkey
        rw [if_pos rfl, hown, if_neg (List.append_ne_nil_of_right_ne_nil _ (List.cons_ne_nil _ _)),
          bucketOf_concat, h.bucketFor]
      · rw [if_neg hkey, hother, h.single]
        rintro ⟨rfl, rfl⟩
        exact hkey rfl
    · intro k t ht
      dsimp only at ht
      rw [OrderedMap.get?_set] at ht
      split_ifs at ht with hkey
      · cases ht
        rw [hkey, h.bucketFor]
      · exact h.key k t ht

theorem gathered (rows : List GroupInput) : Gathered (rows.foldl Buckets.add .empty) rows := by
  induction rows using List.reverseRecOn with
  | nil => exact .start
  | append_singleton rows row ih =>
    rw [List.foldl_concat]
    exact ih.add row

/-! ## The classes in their order -/

theorem byCodeUnit_nonpos {a b : String} : byCodeUnit a b ≤ 0 ↔ utf16 a ≤ utf16 b := by
  unfold byCodeUnit
  split_ifs with hlt hgt
  · simp [hlt.le]
  · simp [hgt]
  · simp [not_lt.1 hgt]

theorem byCodeUnit_eq_zero {a b : String} : byCodeUnit a b = 0 ↔ a = b := by
  unfold byCodeUnit
  split_ifs with hlt hgt
  · refine iff_of_false (by decide) ?_
    rintro rfl
    exact lt_irrefl _ hlt
  · refine iff_of_false (by decide) ?_
    rintro rfl
    exact lt_irrefl _ hgt
  · exact iff_of_true rfl (utf16_injective (le_antisymm (not_lt.1 hgt) (not_lt.1 hlt)))

/-- A pair of a version and a rule, with the rule first. -/
def placeKey (p : VersionId × String) : List Nat ×ₗ List Nat :=
  toLex (utf16 p.2, utf16 p.1.text)

theorem placeKey_injective : Function.Injective placeKey := by
  intro p q h
  obtain ⟨hrule, hversion⟩ := Prod.mk.inj (toLex.injective h)
  exact Prod.ext (VersionId.ext (utf16_injective hversion)) (utf16_injective hrule)

theorem compareSingle_nonpos {p q : VersionId × String} :
    compareSingle p q ≤ 0 ↔ placeKey p ≤ placeKey q := by
  unfold compareSingle placeKey
  rw [Prod.Lex.toLex_le_toLex]
  dsimp only
  by_cases hrule : byCodeUnit p.2 q.2 = 0
  · rw [if_neg (not_not_intro hrule), byCodeUnit_nonpos, byCodeUnit_eq_zero.1 hrule]
    simp
  · have hne : utf16 p.2 ≠ utf16 q.2 := fun h =>
      hrule (byCodeUnit_eq_zero.2 (utf16_injective h))
    rw [if_pos hrule, byCodeUnit_nonpos, le_iff_lt_or_eq]
    simp [hne]

/-- The rules with a group of their own. -/
structure SingleClasses (rows : List GroupInput) (places : List (VersionId × String)) : Prop where
  sorted : places.Pairwise fun p q => placeKey p ≤ placeKey q
  nodup : places.Nodup
  mem : ∀ p, p ∈ places ↔ ∃ row ∈ rows, row.groupClass = .single p.1 p.2

theorem SingleClasses.perm {places' : List (VersionId × String)} (h : SingleClasses rows places)
    (h' : SingleClasses rows' places') (hrows : rows.Perm rows') : places = places' := by
  refine List.Perm.eq_of_pairwise ?_ h.sorted h'.sorted ?_
  · intro p q _ _ hpq hqp
    exact placeKey_injective (le_antisymm hpq hqp)
  · rw [List.perm_ext_iff_of_nodup h.nodup h'.nodup]
    intro p
    rw [h.mem, h'.mem]
    simp only [hrows.mem_iff]

theorem Gathered.mem_entries (h : Gathered b rows) {e : String × SingleBucket}
    (he : e ∈ b.single.entries) :
    e = (singleGroupKey e.2.rubricVersionId e.2.ruleId,
      ⟨bucketOf (rowsOf (.single e.2.rubricVersionId e.2.ruleId) rows),
        e.2.rubricVersionId, e.2.ruleId⟩) := by
  obtain ⟨k, s⟩ := e
  have hget := OrderedMap.get?_eq_some_iff.2 he
  obtain rfl := h.key k s hget
  rw [h.single] at hget
  split_ifs at hget
  exact Prod.ext rfl (Option.some.inj hget).symm

theorem Gathered.singleClasses (h : Gathered b rows) :
    SingleClasses rows (b.singles.map fun e => e.2.place) := by
  have hperm : b.singles.Perm b.single.entries := List.perm_insertionSort _ _
  constructor
  · rw [List.pairwise_map]
    let le : String × SingleBucket → String × SingleBucket → Prop :=
      fun x y => compareSingle x.2.place y.2.place ≤ 0
    have : Std.Total le := ⟨fun x y => by
      simp only [le, compareSingle_nonpos]
      exact le_total _ _⟩
    have : IsTrans _ le := ⟨fun x y z hxy hyz => by
      simp only [le, compareSingle_nonpos] at *
      exact le_trans hxy hyz⟩
    exact (List.pairwise_insertionSort le b.single.entries).imp fun hle =>
      compareSingle_nonpos.1 hle
  · rw [(hperm.map _).nodup_iff]
    have hkeys : b.single.entries.map Prod.fst =
        (b.single.entries.map fun e => e.2.place).map fun p => singleGroupKey p.1 p.2 := by
      rw [List.map_map]
      refine List.map_congr_left fun e he => ?_
      exact congrArg Prod.fst (h.mem_entries he)
    refine List.Nodup.of_map (fun p => singleGroupKey p.1 p.2) ?_
    rw [← hkeys]
    exact b.single.nodup
  · rintro ⟨v, r⟩
    rw [(hperm.map _).mem_iff, List.mem_map]
    have hget := h.single v r
    constructor
    · rintro ⟨e, he, heq⟩
      obtain ⟨rfl, rfl⟩ := Prod.mk.inj heq
      have hentry := OrderedMap.get?_eq_some_iff.2 (h.mem_entries he ▸ he)
      rw [hget] at hentry
      split_ifs at hentry with hrows
      obtain ⟨row, hrow⟩ := List.exists_mem_of_ne_nil _ hrows
      exact ⟨row, mem_rowsOf.1 hrow⟩
    · rintro ⟨row, hrow, hclass⟩
      rw [if_neg (List.ne_nil_of_mem (mem_rowsOf.2 ⟨hrow, hclass⟩))] at hget
      exact ⟨_, OrderedMap.get?_eq_some_iff.1 hget, rfl⟩

/-! ## The groups -/

def present (rows : List GroupInput) (c : GroupClass) : List GroupClass :=
  if rowsOf c rows = [] then [] else [c]

theorem mem_present {d : GroupClass} :
    d ∈ present rows c ↔ d = c ∧ ∃ row ∈ rows, row.groupClass = c := by
  have hrows : rowsOf c rows ≠ [] ↔ ∃ row ∈ rows, row.groupClass = c := by
    rw [← List.length_pos_iff_ne_nil, List.length_pos_iff_exists_mem]
    simp only [mem_rowsOf]
  rw [← hrows]
  unfold present
  split_ifs with hnil <;> simp [hnil]

/-- The classes of the groups, in the order of the groups. -/
def classList (rows : List GroupInput) (places : List (VersionId × String)) : List GroupClass :=
  places.map (fun p => .single p.1 p.2) ++ present rows .multi ++ present rows .none

theorem mem_classList (h : SingleClasses rows places) :
    c ∈ classList rows places ↔ ∃ row ∈ rows, row.groupClass = c := by
  unfold classList
  rw [List.mem_append, List.mem_append, mem_present, mem_present, List.mem_map]
  cases c with
  | single v r =>
    have hplace := h.mem (v, r)
    constructor
    · rintro ((⟨p, hp, heq⟩ | ⟨heq, -⟩) | ⟨heq, -⟩)
      · cases heq
        exact (h.mem p).1 hp
      · cases heq
      · cases heq
    · exact fun hrow => Or.inl (Or.inl ⟨(v, r), hplace.2 hrow, rfl⟩)
  | multi => simp
  | none => simp

theorem nodup_classList (h : SingleClasses rows places) : (classList rows places).Nodup := by
  have hpresent : ∀ c, (present rows c).Nodup := by
    intro c
    unfold present
    split_ifs
    · exact List.nodup_nil
    · exact List.nodup_singleton c
  unfold classList
  rw [List.nodup_append, List.nodup_append]
  refine ⟨⟨h.nodup.map ?_, hpresent _, ?_⟩, hpresent _, ?_⟩
  · rintro ⟨v, r⟩ ⟨w, s⟩ heq
    cases heq
    rfl
  · intro c hc d hd heq
    obtain ⟨p, -, rfl⟩ := List.mem_map.1 hc
    rw [(mem_present.1 hd).1] at heq
    cases heq
  · intro c hc d hd heq
    rw [(mem_present.1 hd).1] at heq
    rcases List.mem_append.1 hc with hc | hc
    · obtain ⟨p, -, rfl⟩ := List.mem_map.1 hc
      cases heq
    · rw [(mem_present.1 hc).1] at heq
      cases heq

theorem bucketOf_pos : 0 < (bucketOf rows).resultIds.length ↔ rows ≠ [] := by
  rw [← List.length_pos_iff_ne_nil, List.length_pos_iff_exists_mem, List.length_pos_iff_exists_mem]
  constructor
  · rintro ⟨id, hid⟩
    obtain ⟨row, hrow, -⟩ := mem_resultIds_bucketOf.1 hid
    exact ⟨row, hrow⟩
  · rintro ⟨row, hrow⟩
    exact ⟨row.resultId, mem_resultIds_bucketOf.2 ⟨row, hrow, rfl⟩⟩

theorem groupResults_eq (rows : List GroupInput) : ∃ places, SingleClasses rows places ∧
    groupResults rows = (classList rows places).map (GroupClass.group rows) := by
  have h := gathered rows
  refine ⟨_, h.singleClasses, ?_⟩
  unfold groupResults Buckets.groups classList
  rw [List.map_append, List.map_append, List.map_map, List.map_map]
  refine congrArg₂ _ (congrArg₂ _ (List.map_congr_left fun e he => ?_) ?_) ?_
  · have hentry := h.mem_entries ((List.perm_insertionSort _ _).subset he)
    rw [hentry]
    rfl
  · rw [h.multi]
    simp only [bucketOf_pos, present, ne_eq, ite_not]
    split_ifs <;> rfl
  · rw [h.none]
    simp only [bucketOf_pos, present, ne_eq, ite_not]
    split_ifs <;> rfl

theorem mem_groupResults {g : ReviewGroup} :
    g ∈ groupResults rows ↔ ∃ row ∈ rows, row.groupClass.group rows = g := by
  obtain ⟨places, hplaces, heq⟩ := groupResults_eq rows
  rw [heq, List.mem_map]
  constructor
  · rintro ⟨c, hc, rfl⟩
    obtain ⟨row, hrow, rfl⟩ := (mem_classList hplaces).1 hc
    exact ⟨row, hrow, rfl⟩
  · rintro ⟨row, hrow, rfl⟩
    exact ⟨_, (mem_classList hplaces).2 ⟨row, hrow, rfl⟩, rfl⟩

theorem groupResults_perm (h : rows.Perm rows') : groupResults rows' = groupResults rows := by
  obtain ⟨places, hplaces, heq⟩ := groupResults_eq rows
  obtain ⟨places', hplaces', heq'⟩ := groupResults_eq rows'
  obtain rfl := hplaces.perm hplaces' h
  have hpresent : ∀ c, present rows' c = present rows c := by
    intro c
    have hnil : rowsOf c rows' = [] ↔ rowsOf c rows = [] := by
      rw [← List.length_eq_zero_iff, ← (rowsOf_perm h c).length_eq, List.length_eq_zero_iff]
    simp only [present, hnil]
  rw [heq, heq']
  unfold classList
  rw [hpresent, hpresent]
  exact List.map_congr_left fun c _ => (group_perm h c).symm

theorem mem_resultIds_iff (hids : (rows.map GroupInput.resultId).Nodup) (hrow : row ∈ rows) :
    row.resultId ∈ (c.group rows).resultIds ↔ row.groupClass = c := by
  rw [mem_resultIds_group]
  constructor
  · rintro ⟨row', hrow', hclass, hid⟩
    rw [← List.inj_on_of_nodup_map hids hrow' hrow hid]
    exact hclass
  · exact fun hclass => ⟨row, hrow, hclass, rfl⟩

theorem flatMap_resultIds_perm (hids : (rows.map GroupInput.resultId).Nodup) :
    ((groupResults rows).flatMap ReviewGroup.resultIds).Perm (rows.map GroupInput.resultId) := by
  obtain ⟨places, hplaces, heq⟩ := groupResults_eq rows
  rw [List.perm_ext_iff_of_nodup ?_ hids]
  · intro id
    rw [List.mem_flatMap, List.mem_map]
    constructor
    · rintro ⟨g, hg, hid⟩
      obtain ⟨row, -, rfl⟩ := mem_groupResults.1 hg
      obtain ⟨row', hrow', -, hid⟩ := mem_resultIds_group.1 hid
      exact ⟨row', hrow', hid⟩
    · rintro ⟨row, hrow, rfl⟩
      exact ⟨_, mem_groupResults.2 ⟨row, hrow, rfl⟩, (mem_resultIds_iff hids hrow).2 rfl⟩
  · rw [heq, List.flatMap_map, List.nodup_flatMap]
    refine ⟨fun c _ => nodup_resultIds_group rows c, ?_⟩
    refine (nodup_classList hplaces).imp fun {c d} hne => ?_
    show List.Disjoint _ _
    intro id hc hd
    obtain ⟨row, hrow, rfl, rfl⟩ := mem_resultIds_group.1 hc
    exact hne ((mem_resultIds_iff hids hrow).1 hd)

/-- Every paper is in exactly one group, and the groups together list every paper
once.  No group is empty, the order of the papers does not matter, and the
samples of a group are different papers of the group. -/
theorem groupResults_partition (rows : List GroupInput)
    (hids : (rows.map GroupInput.resultId).Nodup) :
    (∀ row ∈ rows, ∃! g, g ∈ groupResults rows ∧ row.resultId ∈ g.resultIds) ∧
      ((groupResults rows).flatMap ReviewGroup.resultIds).Perm
        (rows.map GroupInput.resultId) ∧
      (∀ g ∈ groupResults rows, g.resultIds ≠ []) ∧
      (∀ rows', rows.Perm rows' → groupResults rows' = groupResults rows) ∧
      ∀ g ∈ groupResults rows,
        g.sampleResultIds ⊆ g.resultIds ∧ g.sampleResultIds.Nodup := by
  refine ⟨fun row hrow => ?_, flatMap_resultIds_perm hids, fun g hg => ?_,
    fun _ => groupResults_perm, fun g hg => ?_⟩
  · refine ⟨row.groupClass.group rows, ⟨mem_groupResults.2 ⟨row, hrow, rfl⟩,
      (mem_resultIds_iff hids hrow).2 rfl⟩, ?_⟩
    rintro g ⟨hg, hid⟩
    obtain ⟨row', -, rfl⟩ := mem_groupResults.1 hg
    rw [(mem_resultIds_iff hids hrow).1 hid]
  · obtain ⟨row, hrow, rfl⟩ := mem_groupResults.1 hg
    exact List.ne_nil_of_mem ((mem_resultIds_iff hids hrow).2 rfl)
  · obtain ⟨row, -, rfl⟩ := mem_groupResults.1 hg
    have hsample : ((row.groupClass.group rows).sampleResultIds) =
        (row.groupClass.group rows).resultIds.take REVIEW_GROUP_SAMPLE_SIZE := by
      cases row.groupClass <;> rfl
    rw [hsample]
    exact ⟨List.take_subset _ _, (nodup_resultIds_group rows _).sublist (List.take_sublist _ _)⟩

/-- Papers with one rule in two versions of the rubric, and one without an error. -/
def twoVersionRows : List GroupInput :=
  [⟨"b", ⟨"v1", by decide⟩, [⟨"r", "llm"⟩, ⟨"r", "machine"⟩]⟩,
    ⟨"a", ⟨"v2", by decide⟩, [⟨"r", "llm"⟩]⟩,
    ⟨"c", ⟨"v1", by decide⟩, []⟩]

theorem groupResults_two_versions :
    (∀ row ∈ twoVersionRows,
        ∃! g, g ∈ groupResults twoVersionRows ∧ row.resultId ∈ g.resultIds) ∧
      ((groupResults twoVersionRows).flatMap ReviewGroup.resultIds).Perm
        (twoVersionRows.map GroupInput.resultId) ∧
      (∀ g ∈ groupResults twoVersionRows, g.resultIds ≠ []) ∧
      (∀ rows', twoVersionRows.Perm rows' → groupResults rows' = groupResults twoVersionRows) ∧
      ∀ g ∈ groupResults twoVersionRows,
        g.sampleResultIds ⊆ g.resultIds ∧ g.sampleResultIds.Nodup :=
  groupResults_partition twoVersionRows (by decide)

end Cine.Grading
