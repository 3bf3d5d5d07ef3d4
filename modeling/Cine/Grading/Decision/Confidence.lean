import Cine.Grading.Decision.Types

/-!
# The confidence of a case

`grading/decision/confidence.ts`: the mean of the caps of the sources,
weighted by the deductions.  Without a priced error the weight is zero, and
the confidence says whether the investigation covered everything.
-/

namespace Cine.Grading

open Cine.Lib

variable {K : Type} [Number K]

/-- `SOURCE_CAP`. -/
def sourceCap : VerdictSource → K
  | .deterministic => ((1 : Int) : K)
  | .llmWithTools => 0.8
  | .llmOnly => 0.5

/-- The cap of a source: the ceiling of the model tier only pulls `llm_only` down. -/
def capOf (source : VerdictSource) (modelCeiling : K) : K :=
  if source = .llmOnly then min (sourceCap .llmOnly) modelCeiling else sourceCap source

/-- Whether an error has a price above zero. -/
def DiagnosedError.isPriced (e : DiagnosedError) : Bool :=
  e.deductionHundredths.any (0 < ·)

/-- The weighted mean of the caps. -/
def caseConfidence (errors : List DiagnosedError) (modelCeiling : K) (coverageComplete : Bool) :
    K :=
  let priced := errors.filter DiagnosedError.isPriced
  let weight := priced.foldl (fun s e => s + e.deductionHundredths.getD 0) 0
  if weight = 0 then
    if coverageComplete then ((1 : Int) : K) else ((0 : Int) : K)
  else
    priced.foldl
        (fun s e => s + capOf e.source modelCeiling * ((e.deductionHundredths.getD 0 : Int) : K))
        ((0 : Int) : K) /
      ((weight : Int) : K)

end Cine.Grading
