import Cine.Grading.Investigator.Types

/-!
# Which cases of the bundle were measured

`grading/investigator/coverage.ts`.  A case of the test bundle is covered
by a successful `run_tests` call that lists it, or by one whose submission
did not compile and that asked for it: the ruler was laid on, and the
reading is "does not run".

`Measures` is that condition for one call and one case, and
`uncoveredCases_eq_nil` reads the computed list in its terms.
-/

namespace Cine.Grading

/-- A case of the frozen test bundle. -/
structure BundleCase where
  name : String
  group : String
deriving DecidableEq, Repr

/-- `key`: cases are told apart by group and name. -/
def BundleCase.key (c : BundleCase) : Option String × String :=
  (some c.group, c.name)

instance lawfulBEqKeys : LawfulBEq (Option String × String) := inferInstance

/-- The keys that one tool call adds to the set `covered`. -/
def coveredBy (cases : List BundleCase) (structured : StructuredResults) (t : ToolCall) :
    List (Option String × String) :=
  match t.runTestsResult structured with
  | none => []
  | some (compile, results) =>
    if compileFailed compile then
      let group := t.stringArg "group"
      (cases.filter (fun c => group = none ∨ some c.group = group)).map BundleCase.key
    else results.map (fun r => (r.group, r.name))

/-- The cases without a result in any successful `run_tests` call. -/
def uncoveredCases (cases : List BundleCase) (toolCalls : List ToolCall)
    (structured : StructuredResults) : List BundleCase :=
  let covered := toolCalls.flatMap (coveredBy cases structured)
  cases.filter (fun c => c.key ∉ covered)

/-! ## What it means to be measured -/

/-- The call `t` has a result for the case `c`: it lists the case, or its
submission did not compile and the call asked for the group of the case. -/
def Measures (structured : StructuredResults) (t : ToolCall) (c : BundleCase) : Prop :=
  ∃ compile results, t.runTestsResult structured = some (compile, results) ∧
    if compileFailed compile then t.stringArg "group" = none ∨ t.stringArg "group" = some c.group
    else ∃ r ∈ results, r.group = some c.group ∧ r.name = c.name

variable {cases : List BundleCase} {structured : StructuredResults}

theorem mem_coveredBy {t : ToolCall} {c : BundleCase} (hc : c ∈ cases) :
    c.key ∈ coveredBy cases structured t ↔ Measures structured t c := by
  rw [coveredBy]
  cases h : t.runTestsResult structured with
  | none => simp [Measures, h]
  | some p =>
    obtain ⟨compile, results⟩ := p
    by_cases hf : compileFailed compile
    · simp only [hf, if_true, Measures, h, Option.some.injEq, Prod.mk.injEq, List.mem_map,
        List.mem_filter, decide_eq_true_eq]
      constructor
      · rintro ⟨d, ⟨_, hg⟩, hk⟩
        have hgroup : d.group = c.group := by
          simpa [BundleCase.key] using congrArg Prod.fst hk
        refine ⟨compile, results, ⟨rfl, rfl⟩, ?_⟩
        rw [if_pos hf]
        exact hg.imp_right (fun e => by rw [← e, hgroup])
      · rintro ⟨_, _, ⟨rfl, rfl⟩, hg⟩
        rw [if_pos hf] at hg
        exact ⟨c, ⟨hc, hg.imp_right Eq.symm⟩, rfl⟩
    · simp only [hf, if_false, Measures, h, Option.some.injEq, Prod.mk.injEq, List.mem_map,
        BundleCase.key, Bool.false_eq_true]
      constructor
      · rintro ⟨r, hr, hg, hn⟩
        refine ⟨compile, results, ⟨rfl, rfl⟩, ?_⟩
        rw [if_neg hf]
        exact ⟨r, hr, hg, hn⟩
      · rintro ⟨_, _, ⟨rfl, rfl⟩, hr⟩
        rw [if_neg hf] at hr
        exact hr

theorem mem_uncoveredCases {toolCalls : List ToolCall} {c : BundleCase} :
    c ∈ uncoveredCases cases toolCalls structured ↔
      c ∈ cases ∧ ∀ t ∈ toolCalls, ¬ Measures structured t c := by
  simp only [uncoveredCases, List.mem_filter, List.mem_flatMap, decide_eq_true_eq, not_exists,
    not_and]
  refine and_congr_right fun hc => forall₂_congr fun t _ => ?_
  rw [mem_coveredBy hc]

theorem uncoveredCases_eq_nil {toolCalls : List ToolCall} :
    uncoveredCases cases toolCalls structured = [] ↔
      ∀ c ∈ cases, ∃ t ∈ toolCalls, Measures structured t c := by
  rw [List.eq_nil_iff_forall_not_mem]
  refine forall_congr' fun c => ?_
  rw [mem_uncoveredCases, not_and]
  simp only [not_forall, not_not, exists_prop]

end Cine.Grading
