import Cine.Grading.Scoring.ScoreService

/-!
# The minimum of the audit sample

`ensureSessionMinimum` of `grading/audit-sampling.ts`.  A student is a code up to
letter case: the sampled students and the students of the session are kept in
maps from codes in lower case to the spelling that came last.

* `addUntil` is the loop over the pool, and `ensureSessionMinimum_loop` the
  function with it.
* `codes_result`: the codes of the result are the sampled ones and the first of
  the pool, which is sorted by the hashes.  So they depend on nothing but the
  sets of codes.
-/

namespace Cine.Grading

open Cine.Lib

variable {K : Type} (env : GradingEnv K)

/-! ## The loop -/

/-- `for (const [key, original] of pool)`: the pool is added until there are
`target` students. -/
def addUntil (target : Nat) (chosen : OrderedMap String String) :
    List (String × String) → OrderedMap String String
  | [] => chosen
  | (key, original) :: pool =>
    if target ≤ chosen.entries.length then chosen
    else addUntil target (chosen.set key original) pool

/-- The spellings of the students by their codes. -/
def byCode (students : List String) : OrderedMap String String :=
  OrderedMap.ofList (students.map fun m => (env.lower m, m))

/-- The students that are not sampled, in the order of their hashes. -/
def unsampledPool (sampled students : List String) : List (String × String) :=
  sortByKey (fun e => env.hashOfMssv e.1)
    ((byCode env students).entries.filter fun e => !(byCode env sampled).has e.1)

/-- How many students are in the sample at the end, unless there are more. -/
def sampleTarget (students : List String) (min : Nat) : Nat :=
  Nat.min min (byCode env students).entries.length

theorem addUntil_entries {target : Nat} {chosen : OrderedMap String String}
    {pool : List (String × String)} (hnodup : (pool.map Prod.fst).Nodup)
    (hfresh : ∀ e ∈ pool, e.1 ∉ chosen.entries.map Prod.fst) :
    (addUntil target chosen pool).entries =
      chosen.entries ++ pool.take (target - chosen.entries.length) := by
  induction pool generalizing chosen with
  | nil =>
    rw [addUntil, List.take_nil, List.append_nil]
  | cons e pool ih =>
    obtain ⟨key, original⟩ := e
    obtain ⟨hkey, hpool⟩ := List.nodup_cons.1 hnodup
    have hset : (chosen.set key original).entries = chosen.entries ++ [(key, original)] :=
      OrderedMap.set_fresh (hfresh _ List.mem_cons_self) original
    rw [addUntil]
    split_ifs with htarget
    · rw [Nat.sub_eq_zero_of_le htarget, List.take_zero, List.append_nil]
    · have hroom : target - chosen.entries.length = target - chosen.entries.length - 1 + 1 := by
        omega
      rw [ih hpool, hset, hroom, List.take_succ_cons, List.length_append, List.length_singleton,
        Nat.sub_add_eq, List.append_assoc, List.singleton_append]
      intro e he
      rw [hset, List.map_append, List.mem_append]
      rintro (hmem | hmem)
      · exact hfresh e (List.mem_cons_of_mem _ he) hmem
      · rw [List.map_singleton, List.mem_singleton] at hmem
        exact hkey (List.mem_map.2 ⟨e, he, hmem⟩)

theorem unsampledPool_fst (sampled students : List String) :
    (unsampledPool env sampled students).map Prod.fst =
      sortByKey env.hashOfMssv (((byCode env students).entries.map Prod.fst).filter
        fun key => !(byCode env sampled).has key) := by
  have hsort : ∀ l : List (String × String),
      (sortByKey (fun e => env.hashOfMssv e.1) l).map Prod.fst =
        sortByKey env.hashOfMssv (l.map Prod.fst) := map_sortByKey fun _ => rfl
  unfold unsampledPool
  rw [hsort, List.filter_map]
  rfl

theorem nodup_unsampledPool (sampled students : List String) :
    ((unsampledPool env sampled students).map Prod.fst).Nodup := by
  rw [unsampledPool_fst]
  exact (perm_sortByKey _).nodup_iff.2 ((byCode env students).nodup.filter _)

variable {sampled students l : List String}

theorem fresh_of_unsampledPool {e : String × String} (h : e ∈ unsampledPool env sampled students) :
    e.1 ∉ (byCode env sampled).entries.map Prod.fst := by
  have hhas := (List.mem_filter.1 (mem_sortByKey.1 h)).2
  intro hkey
  rw [OrderedMap.has, OrderedMap.isSome_get?_iff.2 hkey] at hhas
  cases hhas

theorem ensureSessionMinimum_loop (sampled students : List String) (min : Nat) :
    ensureSessionMinimum env sampled students min =
      (addUntil (sampleTarget env students min) (byCode env sampled)
        (unsampledPool env sampled students)).values := by
  unfold OrderedMap.values
  rw [addUntil_entries (nodup_unsampledPool env sampled students)
    fun _ => fresh_of_unsampledPool env, List.map_append]
  rfl

/-! ## The codes of the sample -/

/-- Two lists have the same students. -/
def SameCodes (l l' : List String) : Prop := ∀ k, k ∈ l.map env.lower ↔ k ∈ l'.map env.lower

theorem mem_codes {k : String} : k ∈ (byCode env l).entries.map Prod.fst ↔ k ∈ l.map env.lower := by
  unfold byCode
  rw [OrderedMap.mem_keys_ofList, List.map_map]
  rfl

theorem has_byCode {k : String} : (byCode env l).has k = true ↔ k ∈ l.map env.lower := by
  unfold OrderedMap.has
  rw [OrderedMap.isSome_get?_iff, mem_codes]

theorem codes_perm_eraseDups (l : List String) :
    ((byCode env l).entries.map Prod.fst).Perm (l.map env.lower).eraseDups := by
  rw [List.perm_ext_iff_of_nodup (byCode env l).nodup (nodup_eraseDups _)]
  intro k
  rw [mem_codes, List.mem_eraseDups]

variable {env}

theorem mem_entries_byCode {e : String × String} (h : e ∈ (byCode env l).entries) :
    e.2 ∈ l ∧ e.1 = env.lower e.2 := by
  have hget := OrderedMap.get?_of_mem_entries (k := e.1) (v := e.2) h
  obtain ⟨m, hm, heq⟩ := List.mem_map.1 (OrderedMap.mem_of_get?_ofList hget)
  obtain ⟨hcode, rfl⟩ := Prod.mk.inj heq
  exact ⟨hm, hcode.symm⟩

theorem SameCodes.perm {l' : List String} (h : SameCodes env l l') :
    ((byCode env l).entries.map Prod.fst).Perm ((byCode env l').entries.map Prod.fst) := by
  rw [List.perm_ext_iff_of_nodup (byCode env l).nodup (byCode env l').nodup]
  intro k
  rw [mem_codes, mem_codes, h k]

theorem SameCodes.length_eq {l' : List String} (h : SameCodes env l l') :
    (byCode env l).entries.length = (byCode env l').entries.length := by
  rw [← List.length_map Prod.fst, h.perm.length_eq, List.length_map]

section Result

variable {sampled students : List String} {min : Nat}

/-- The students that the pool adds. -/
def added (env : GradingEnv K) (sampled students : List String) (min : Nat) :
    List (String × String) :=
  (unsampledPool env sampled students).take
    (sampleTarget env students min - (byCode env sampled).entries.length)

theorem mem_result {m : String} : m ∈ ensureSessionMinimum env sampled students min ↔
    (∃ e ∈ (byCode env sampled).entries, e.2 = m) ∨
      ∃ e ∈ added env sampled students min, e.2 = m := by
  show m ∈ List.map Prod.snd _ ++ List.map Prod.snd _ ↔ _
  rw [List.mem_append, List.mem_map, List.mem_map]
  rfl

theorem mem_added {e : String × String} (h : e ∈ added env sampled students min) :
    e ∈ (byCode env students).entries :=
  (List.mem_filter.1 (mem_sortByKey.1 (List.mem_of_mem_take h))).1

theorem codes_result : (ensureSessionMinimum env sampled students min).map env.lower =
    (byCode env sampled).entries.map Prod.fst ++
      ((unsampledPool env sampled students).map Prod.fst).take
        (sampleTarget env students min - (byCode env sampled).entries.length) := by
  have hcodes : ∀ {l : List (String × String)}, (∀ e ∈ l, e.1 = env.lower e.2) →
      (l.map Prod.snd).map env.lower = l.map Prod.fst := by
    intro l hl
    rw [List.map_map]
    exact List.map_congr_left fun e he => (hl e he).symm
  show (List.map Prod.snd _ ++ List.map Prod.snd (added env sampled students min)).map _ = _
  rw [List.map_append, ← List.map_take]
  refine congrArg₂ _ (hcodes fun e he => (mem_entries_byCode he).2) (hcodes fun e he => ?_)
  exact (mem_entries_byCode (mem_added he)).2

theorem nodup_codes_result :
    ((ensureSessionMinimum env sampled students min).map env.lower).Nodup := by
  rw [codes_result]
  refine List.nodup_append.2 ⟨(byCode env sampled).nodup,
    (nodup_unsampledPool env sampled students).sublist (List.take_sublist _ _), ?_⟩
  intro k hk k' hk' heq
  obtain ⟨e, he, rfl⟩ := List.mem_map.1 (List.mem_of_mem_take hk')
  exact fresh_of_unsampledPool env he (heq ▸ hk)

def SampledFrom (env : GradingEnv K) (sampled students : List String) : Prop :=
  ∀ m ∈ sampled, env.lower m ∈ students.map env.lower

theorem length_unsampledPool (h : SampledFrom env sampled students) :
    (byCode env sampled).entries.length + (unsampledPool env sampled students).length =
      (byCode env students).entries.length := by
  let isSampled : String → Bool := fun k => (byCode env sampled).has k
  let codes := (byCode env students).entries.map Prod.fst
  have hsampled : (codes.filter isSampled).Perm ((byCode env sampled).entries.map Prod.fst) := by
    rw [List.perm_ext_iff_of_nodup ((byCode env students).nodup.filter _)
      (byCode env sampled).nodup]
    intro k
    rw [List.mem_filter, mem_codes, has_byCode, mem_codes]
    refine ⟨And.right, fun hk => ⟨?_, hk⟩⟩
    obtain ⟨m, hm, rfl⟩ := List.mem_map.1 hk
    exact h m hm
  have hpool : (unsampledPool env sampled students).length =
      (codes.filter fun k => !isSampled k).length := by
    rw [← List.length_map Prod.fst, unsampledPool_fst, (perm_sortByKey _).length_eq]
  have hsplit := List.length_eq_length_filter_add isSampled (l := codes)
  rw [hsampled.length_eq, List.length_map, ← hpool, List.length_map] at hsplit
  exact hsplit.symm

theorem length_result (h : SampledFrom env sampled students) :
    (ensureSessionMinimum env sampled students min).length =
      max (byCode env sampled).entries.length
        (Nat.min min (byCode env students).entries.length) := by
  have hpool := length_unsampledPool h
  have hlength : (ensureSessionMinimum env sampled students min).length =
      (byCode env sampled).entries.length + (added env sampled students min).length := by
    show (List.map Prod.snd _ ++ List.map Prod.snd _).length = _
    rw [List.length_append, List.length_map, List.length_map]
    rfl
  have htarget : sampleTarget env students min ≤ (byCode env students).entries.length :=
    Nat.min_le_right _ _
  rw [hlength, added, List.length_take]
  show _ = max _ (sampleTarget env students min)
  omega

/-- No two students of the session have one hash. -/
def HashesDiffer (env : GradingEnv K) (students : List String) : Prop :=
  ∀ m ∈ students, ∀ m' ∈ students,
    env.hashOfMssv (env.lower m) = env.hashOfMssv (env.lower m') → env.lower m = env.lower m'

theorem codes_result_perm (hhash : HashesDiffer env students) {sampled' students' : List String}
    (hsampled : SameCodes env sampled sampled') (hstudents : SameCodes env students students') :
    ((ensureSessionMinimum env sampled students min).map env.lower).Perm
      ((ensureSessionMinimum env sampled' students' min).map env.lower) := by
  have hhas : ∀ k, (byCode env sampled).has k = (byCode env sampled').has k := by
    intro k
    rw [Bool.eq_iff_iff, has_byCode, has_byCode, hsampled k]
  have hpool : (unsampledPool env sampled students).map Prod.fst =
      (unsampledPool env sampled' students').map Prod.fst := by
    rw [unsampledPool_fst, unsampledPool_fst]
    simp only [hhas]
    refine sortByKey_eq_of_perm (hstudents.perm.filter _) ?_
    refine List.Nodup.map_on ?_ ((byCode env students).nodup.filter _)
    intro k hk k' hk' heq
    obtain ⟨m, hm, rfl⟩ := List.mem_map.1 ((mem_codes env).1 (List.mem_filter.1 hk).1)
    obtain ⟨m', hm', rfl⟩ := List.mem_map.1 ((mem_codes env).1 (List.mem_filter.1 hk').1)
    exact hhash m hm m' hm' heq
  rw [codes_result, codes_result, hpool, hsampled.length_eq]
  unfold sampleTarget
  rw [hstudents.length_eq]
  exact hsampled.perm.append_right _

end Result

def OneSpelling (env : GradingEnv K) (l : List String) : Prop :=
  ∀ m ∈ l, ∀ m' ∈ l, env.lower m = env.lower m' → m = m'

theorem mem_sampled_or_students {min : Nat} {m : String}
    (h : m ∈ ensureSessionMinimum env sampled students min) : m ∈ sampled ∨ m ∈ students := by
  rcases mem_result.1 h with ⟨e, he, rfl⟩ | ⟨e, he, rfl⟩
  · exact Or.inl (mem_entries_byCode he).1
  · exact Or.inr (mem_entries_byCode (mem_added he)).1

theorem result_perm {sampled' students' : List String} {min : Nat}
    (hspelling : OneSpelling env (sampled ++ students)) (hhash : HashesDiffer env students)
    (hsampled : ∀ m, m ∈ sampled ↔ m ∈ sampled') (hstudents : ∀ m, m ∈ students ↔ m ∈ students') :
    (ensureSessionMinimum env sampled students min).Perm
      (ensureSessionMinimum env sampled' students' min) := by
  have hsame : ∀ {l l' : List String}, (∀ m, m ∈ l ↔ m ∈ l') → SameCodes env l l' := by
    intro l l' hmem k
    simp only [List.mem_map, hmem]
  have hcodes : ((ensureSessionMinimum env sampled students min).map env.lower).Perm
      ((ensureSessionMinimum env sampled' students' min).map env.lower) :=
    codes_result_perm hhash (hsame hsampled) (hsame hstudents)
  have hnodup : ∀ {sampled students : List String},
      (ensureSessionMinimum env sampled students min).Nodup := fun {_ _} =>
    nodup_codes_result.of_map
  have hboth : ∀ m, m ∈ ensureSessionMinimum env sampled' students' min →
      m ∈ sampled ++ students := by
    intro m hm
    rw [List.mem_append, hsampled, hstudents]
    exact mem_sampled_or_students hm
  have hown : ∀ m, m ∈ ensureSessionMinimum env sampled students min →
      m ∈ sampled ++ students := fun m hm => List.mem_append.2 (mem_sampled_or_students hm)
  rw [List.perm_ext_iff_of_nodup hnodup hnodup]
  intro m
  constructor
  · intro hm
    obtain ⟨m', hm', heq⟩ := List.mem_map.1 (hcodes.subset (List.mem_map_of_mem hm))
    rw [hspelling m (hown m hm) m' (hboth m' hm') heq.symm]
    exact hm'
  · intro hm
    obtain ⟨m', hm', heq⟩ := List.mem_map.1 (hcodes.symm.subset (List.mem_map_of_mem hm))
    rw [hspelling m (hboth m hm) m' (hown m' hm') heq.symm]
    exact hm'

/-! ## The minimum -/

/-- A sample that has the minimum of a session.  Every sampled student is in it,
in a spelling of the sample, and it has no student twice. -/
structure MeetsMinimum (env : GradingEnv K) (sampled students : List String) (min : Nat)
    (result : List String) : Prop where
  keeps : ∀ m ∈ sampled, ∃ e ∈ result, e ∈ sampled ∧ env.lower e = env.lower m
  drawn : ∀ e ∈ result, e ∈ sampled ∨ e ∈ students
  distinct : (result.map env.lower).Nodup
  size : result.length = max (sampled.map env.lower).eraseDups.length
    (Nat.min min (students.map env.lower).eraseDups.length)

/-- The result has the minimum of the session, and which students it has depends on
the students of the lists only, not on their order or the spelling of the codes.
Where no code has two spellings, the same holds of the result as it is written. -/
theorem ensureSessionMinimum_students (env : GradingEnv K) (sampled students : List String)
    (min : Nat) (hsub : SampledFrom env sampled students) (hhash : HashesDiffer env students) :
    MeetsMinimum env sampled students min (ensureSessionMinimum env sampled students min) ∧
      (∀ sampled' students', SameCodes env sampled sampled' → SameCodes env students students' →
        ((ensureSessionMinimum env sampled students min).map env.lower).Perm
          ((ensureSessionMinimum env sampled' students' min).map env.lower)) ∧
      (OneSpelling env (sampled ++ students) → ∀ sampled' students',
        (∀ m, m ∈ sampled ↔ m ∈ sampled') → (∀ m, m ∈ students ↔ m ∈ students') →
          (ensureSessionMinimum env sampled students min).Perm
            (ensureSessionMinimum env sampled' students' min)) := by
  refine ⟨⟨fun m hm => ?_, fun e he => mem_sampled_or_students he, nodup_codes_result, ?_⟩,
    fun _ _ => codes_result_perm hhash, fun hspelling _ _ => result_perm hspelling hhash⟩
  · have hcode : env.lower m ∈ (byCode env sampled).entries.map Prod.fst :=
      (mem_codes env).2 (List.mem_map_of_mem hm)
    obtain ⟨e, he, heq⟩ := List.mem_map.1 hcode
    obtain ⟨hmem, hlower⟩ := mem_entries_byCode he
    exact ⟨e.2, mem_result.2 (Or.inl ⟨e, he, rfl⟩), hmem, hlower.symm.trans heq⟩
  · rw [length_result hsub, ← (codes_perm_eraseDups env sampled).length_eq,
      ← (codes_perm_eraseDups env students).length_eq, List.length_map, List.length_map]

/-- Settings with the digests of three codes. -/
def digestEnv : GradingEnv ℚ where
  theta := 0.7
  autoBlockedKeys := []
  autoNoErrorEnabled := true
  samplingEnabled := true
  samplingPercent := 20
  auditMinPerSession := 2
  auditBucket _ _ := 0
  hashOfMssv code :=
    if code = "sv1" then "5e4da620eaaa4d09543da9f228a5622ef68680e3a8002a457e20b149641fbd85"
    else if code = "sv2" then "02ea5c5898775c6766b06577f494ba1b880f97f731cf235947cf1b9d298d409d"
    else if code = "sv3" then "8f2c32bfc8f256c07b8b82427528dd3e17b048ca9ea2ca27898644814f978e3f"
    else code
  slugifyRuleKey := id
  missingRuleKey := id
  lower code := .ofList (code.toList.map Char.toLower)
  trim := id
  uuid := fun n => toString n

/-- Three students, one of them with two spellings. -/
def threeStudents : List String := ["SV1", "sv2", "SV3", "sv1"]

theorem ensureSessionMinimum_three :
    MeetsMinimum digestEnv ["SV1"] threeStudents 2
        (ensureSessionMinimum digestEnv ["SV1"] threeStudents 2) ∧
      (∀ sampled' students', SameCodes digestEnv ["SV1"] sampled' →
        SameCodes digestEnv threeStudents students' →
          ((ensureSessionMinimum digestEnv ["SV1"] threeStudents 2).map digestEnv.lower).Perm
            ((ensureSessionMinimum digestEnv sampled' students' 2).map digestEnv.lower)) ∧
      (OneSpelling digestEnv (["SV1"] ++ threeStudents) → ∀ sampled' students',
        (∀ m, m ∈ ["SV1"] ↔ m ∈ sampled') → (∀ m, m ∈ threeStudents ↔ m ∈ students') →
          (ensureSessionMinimum digestEnv ["SV1"] threeStudents 2).Perm
            (ensureSessionMinimum digestEnv sampled' students' 2)) :=
  ensureSessionMinimum_students digestEnv ["SV1"] threeStudents 2
    (by unfold SampledFrom; decide) (by unfold HashesDiffer; decide)

/-- A student with two spellings: the order decides which of them is returned. -/
theorem ensureSessionMinimum_spelling :
    ["SV1", "sv1"].Perm ["sv1", "SV1"] ∧ HashesDiffer digestEnv ["SV1", "sv1"] ∧
      ¬ ∀ m, m ∈ ensureSessionMinimum digestEnv [] ["SV1", "sv1"] 1 ↔
        m ∈ ensureSessionMinimum digestEnv [] ["sv1", "SV1"] 1 := by
  have hfirst : ensureSessionMinimum digestEnv [] ["SV1", "sv1"] 1 = ["sv1"] := by decide
  have hsecond : ensureSessionMinimum digestEnv [] ["sv1", "SV1"] 1 = ["SV1"] := by decide
  refine ⟨by decide, by unfold HashesDiffer; decide, fun h => ?_⟩
  rw [hfirst, hsecond] at h
  exact absurd ((h "sv1").1 (List.mem_singleton_self _)) (by decide)

end Cine.Grading
