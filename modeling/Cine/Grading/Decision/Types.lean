import Cine.Grading.Investigator.Coverage

/-!
# The data of a decision

The types of `grading/decision/types.ts`.  Scores and deductions are whole
hundredths of a point, so they are integers; confidences are numbers of
the script.
-/

namespace Cine.Grading

/-! ## The error table -/

/-- The four condition patterns a rule may carry. -/
inductive RulePredicate
  | testGroupFailed (group : String)
  | callsFunction (name : String)
  | complexityExceedsRequired
  | noRecursion (functionName : Option String)
deriving DecidableEq, Repr

/-- A rule of the error table, as far as the decision needs it. -/
structure ErrorRule where
  ruleKey : String
  criterionKey : String
  /-- `none` where the rule has no price yet. -/
  deductionHundredths : Option Int
  predicate : Option RulePredicate
deriving DecidableEq, Repr

structure RubricCriterion where
  key : String
  maxHundredths : Int
deriving DecidableEq, Repr

inductive CheckedBy
  | machine
  | model
deriving DecidableEq, Repr

/-- A line of the error table the model was shown. -/
structure RuleSeen where
  ruleKey : String
  checkedBy : CheckedBy
deriving DecidableEq, Repr

/-! ## The diagnosis -/

inductive VerdictSource
  | deterministic
  | llmWithTools
  | llmOnly
deriving DecidableEq, Repr

structure DiagnosedError where
  ruleKey : String
  criterionKey : String
  deductionHundredths : Option Int
  source : VerdictSource
  toolCallIds : List String
deriving DecidableEq, Repr

inductive PredicateState
  | present
  | absent
  | unmeasured
deriving DecidableEq, Repr

structure PredicateOutcome where
  state : PredicateState
  toolCallIds : List String
  reason : Option String
deriving DecidableEq, Repr

/-- The measurement of one rule with a predicate. -/
structure Measurement where
  ruleKey : String
  criterionKey : String
  outcome : PredicateOutcome
deriving DecidableEq, Repr

structure Diagnosis where
  errors : List DiagnosedError
  /-- Proposals of the model left out because the machine checks their rule. -/
  ignored : List String
  measurements : List Measurement
deriving DecidableEq, Repr

/-! ## The input and the outcome of a decision -/

inductive Pipeline
  | investigator
  | oneShot
deriving DecidableEq, Repr

inductive RulerTrust
  | teacher
  | verified
  | unverified
deriving DecidableEq, Repr

structure DecisionInput (K : Type) where
  pipeline : Pipeline
  result : InvestigationResult K
  bundle : List BundleCase
  rubric : List RubricCriterion
  rules : List ErrorRule
  rulesSeen : List RuleSeen
  waivedCriteria : List String
  modelCeiling : K
  theta : K
  challenge : Option StoredChallenge
  /-- `none` for `null` and for an absent field. -/
  rulerTrust : Option RulerTrust
  /-- A set of rule keys; `none` where the caller passes none. -/
  autoBlockedRuleKeys : Option (List String)
  /-- `none` where the caller passes none; only `some false` blocks. -/
  autoNoErrorEnabled : Option Bool

inductive CaseFlagCode
  | criterionUntouched
  | criterionWithoutRules
  | nothingPassed
  | investigationFlag
  | lowConfidence
  | notCodePipeline
  | challengeSuspected
  | challengeIncomplete
  | rulerUnverified
  | typeAutoDisabled
  | noErrorAutoDisabled
deriving DecidableEq, Repr

structure CaseFlag where
  code : CaseFlagCode
  detail : String
deriving DecidableEq, Repr

inductive ErrorFlagCode
  | unpriced
  | refuted
  | unverified
deriving DecidableEq, Repr

structure ErrorFlag where
  ruleKey : String
  code : ErrorFlagCode
deriving DecidableEq, Repr

inductive Outcome
  | auto
  | flagged
  | ungradable
deriving DecidableEq, Repr

structure Decision (K : Type) where
  outcome : Outcome
  ungradable : Option Ungradable
  scoreHundredths : Option Int
  maxHundredths : Int
  errors : List DiagnosedError
  confidence : Option K
  caseFlags : List CaseFlag
  errorFlags : List ErrorFlag
  diagnosis : Option Diagnosis

end Cine.Grading
