import Cine.Grading.Store.Tables

/-!
# The configuration of a question

`grading/problem/resolve-problem-config.ts` and `problem-config-by-id.ts`.
Two loaders give the rubric and the test bundle that a paper is graded
with: one goes by the session and answers with question 1, the other goes
by the question.
-/

namespace Cine.Grading

open Cine.Lib

structure ProblemConfig where
  problemId : String
  ordinal : Nat
  rubricId : Option String
  testBundleId : Option String
  pointsHundredths : Int
deriving DecidableEq, Repr

def ProblemRow.config (p : ProblemRow) : ProblemConfig :=
  { problemId := p.id
    ordinal := p.ordinal
    rubricId := p.rubricId
    testBundleId := p.testBundleId
    pointsHundredths := p.pointsHundredths }

namespace Db

variable {K : Type} (db : Db K)

/-- `resolveProblemConfig`: the question with ordinal 1. -/
def resolveProblemConfig (sessionId : String) : Option ProblemConfig :=
  (db.session sessionId).bind fun _ => (db.firstProblem sessionId).map ProblemRow.config

/-- `resolveProblemConfigByProblem`: the question itself. -/
def resolveProblemConfigByProblem (problemId : String) : Option ProblemConfig :=
  (db.problem problemId).bind fun p => (db.session p.sessionId).map fun _ => p.config

/-- The cases of a bundle that were not dropped, `ORDER BY case_key`. -/
def liveCases (bundleId : Option String) : List TestCaseRow :=
  match bundleId with
  | none => []
  | some b =>
    sortByKey TestCaseRow.caseKey
      (db.cases.filter fun c => c.bundleId = b ∧ c.autoDroppedReason = none)

/-- The same cases, as a score sees them. -/
def bundleCases (bundleId : Option String) : List BundleCase :=
  (db.liveCases bundleId).map fun c => { name := c.caseKey, group := c.group }

end Db

end Cine.Grading
