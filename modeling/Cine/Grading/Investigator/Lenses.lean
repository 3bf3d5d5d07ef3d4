import Cine.Grading.Investigator.LensLoop

/-!
# The lenses

`grading/investigator/challenge.ts`, `case-lens.ts` and `lenses/`.  Two lenses
review one error at a time (`Challenger`), two look at the whole case
(`CaseLens`).  Each review is a run of the loop of its own, in a world of its
own, so that the reviews may go on side by side.

A challenger that throws leaves its error unverified, and a case lens that
throws leaves a note that is not concluded.

The error, the evidence and the context only go into the messages.
-/

namespace Cine.Grading

open Cine.Lib

/-! ## The review of an error -/

def ReviewStatus.toStatus : ReviewStatus → ChallengeStatus
  | .confirmed => .confirmed
  | .refuted => .refuted

/-- The source's text for a status. -/
def ReviewStatus.text : ReviewStatus → String
  | .confirmed => "confirmed"
  | .refuted => "refuted"

/-- What a challenger says of an error. -/
structure Review where
  status : ReviewStatus
  toolCallIds : List String
  reason : Option String
deriving DecidableEq, Repr

/-- `review` gives `none` where it does not end, and the text of the error
that it throws. -/
structure Challenger (W : Type) where
  name : String
  review : W → Option (Except String Review)

/-- A conclusion on one error, with its evidence and its reason. -/
structure StoredConclusion extends ErrorConclusion where
  toolCallIds : List String
  reason : Option String
deriving DecidableEq, Repr

structure LensConclusions where
  challenger : String
  perError : List StoredConclusion
deriving DecidableEq, Repr

/-- `REASON_MAX`. -/
def reasonMax : Nat := 300

/-- The text of an error as the reason of a conclusion. -/
def storedReason (message : String) : String :=
  if reasonMax < (utf16 message).length then sliceFront message (reasonMax - 1) ++ "…" else message

/-- The conclusion from the end of a review. -/
def conclusionOf (e : VerdictError) : Except String Review → StoredConclusion
  | .ok r =>
    { ruleKey := e.ruleKey
      status := r.status.toStatus
      toolCallIds := r.toolCallIds
      reason := r.reason }
  | .error message =>
    { ruleKey := e.ruleKey
      status := .unverified
      toolCallIds := []
      reason := some (storedReason message) }

/-- `challenge`: the review of the error at place `j` goes on in `worlds j`. -/
def challenge {W : Type} (verdict : Verdict) (c : Challenger W) (worlds : Nat → W) :
    Option LensConclusions := do
  let perError ← verdict.errors.zipIdx.mapM fun (e, j) =>
    (c.review (worlds j)).map (conclusionOf e)
  return { challenger := c.name, perError }

/-! ## The two challengers -/

/-- A successful call that runs the program. -/
def ToolCall.ran (t : ToolCall) : Bool :=
  t.status = .ok ∧ (t.tool = .run ∨ t.tool = .runTests)

/-- The ids of successful calls of the lens itself. -/
def ownIds (toolCalls : List ToolCall) (ids : List String) : List String :=
  let okIds := (toolCalls.filter fun t => t.status = .ok).map ToolCall.id
  ids.filter fun id => id ∈ okIds

def reviewOf (toolCalls : List ToolCall) (c : PerErrorConclusion) : Review where
  status := c.status
  toolCallIds := ownIds toolCalls c.toolCallIds
  reason := c.reason

/-- `CorrectnessLens.review`, from the end of its run on. -/
def correctnessReview (r : LensRunResult PerErrorConclusion) : Except String Review :=
  match r.conclusion with
  | none => .error ("lăng kính Tính đúng không kết luận được — " ++ r.failure.getD "null")
  | some c =>
    if r.toolCalls.any ToolCall.ran then .ok (reviewOf r.toolCalls c)
    else
      .error ("lăng kính Tính đúng kết luận \"" ++ c.status.text ++
        "\" mà không tự chạy thử lần nào — không được tin")

/-- `SeverityLens.review`, from the end of its run on. -/
def severityReview (r : LensRunResult PerErrorConclusion) : Except String Review :=
  match r.conclusion with
  | none => .error ("lăng kính Quá tay không kết luận được — " ++ r.failure.getD "null")
  | some c =>
    if c.status = .refuted ∧ !r.toolCalls.any ToolCall.ran then
      .error "lăng kính Quá tay kết luận \"refuted\" mà không tự chạy thử lần nào — không được tin"
    else .ok (reviewOf r.toolCalls c)

section Lenses

variable {N W : Type} (reader : ReplyReader N) (deps : LensDeps W)

/-- A challenger that runs the loop once. -/
def challengerOf (name : String)
    (review : LensRunResult PerErrorConclusion → Except String Review) : Challenger W where
  name := name
  review := fun world =>
    (runLensLoop deps name reader.parsePerErrorReply world).map fun (r, _) => review r

def correctnessLens : Challenger W := challengerOf reader deps "tinh_dung" correctnessReview

def severityLens : Challenger W := challengerOf reader deps "qua_tay" severityReview

end Lenses

/-! ## The lenses on the whole case -/

structure CaseLens (W : Type) where
  name : String
  review : InvestigationContext → Verdict → W → Option (Except String CaseLensNote)

def runCaseLens {W : Type} (ctx : InvestigationContext) (verdict : Verdict) (lens : CaseLens W)
    (world : W) : Option CaseLensNote :=
  (lens.review ctx verdict world).map fun
    | .ok note => note
    | .error _ =>
      { lens := lens.name
        suspected := false
        concluded := false
        note := "không đọc được ý kiến của lăng kính này" }

/-- The note of a run without a conclusion. -/
def unconcludedNote (lens : String) (failure : Option String) : CaseLensNote where
  lens := lens
  suspected := false
  concluded := false
  note := clampNote ("không kết luận được — " ++ failure.getD "null")

/-- `CheatingLens.review`, from the end of its run on. -/
def cheatingNote (r : LensRunResult CaseLensConclusion) : CaseLensNote :=
  match r.conclusion with
  | none => unconcludedNote "gian_lan" r.failure
  | some c =>
    if c.suspected && !r.toolCalls.any fun t => t.status = .ok ∧ t.tool = .run then
      { lens := "gian_lan"
        suspected := false
        concluded := true
        note := clampNote ("(chưa tự chạy được để kiểm) " ++ c.note) }
    else { lens := "gian_lan", suspected := c.suspected, concluded := true, note := c.note }

/-- The rules in words that the verdict has no error of. -/
def openRules (ctx : InvestigationContext) (verdict : Verdict) : List RuleEntry :=
  let concluded := verdict.errors.map VerdictError.ruleKey
  ctx.rules.filter fun r => r.checkedBy = .model ∧ r.ruleKey ∉ concluded

/-- What the check list of the model says of the open keys. -/
def missedKeys (openKeys : List String) (c : OmissionConclusion) : List String :=
  let violated := (c.rules.filter fun r => r.2 = .violated).map Prod.fst ++ c.missedRuleKeys
  openKeys.filter fun k => k ∈ violated

def unansweredKeys (openKeys : List String) (c : OmissionConclusion) : List String :=
  let answered := c.rules.map Prod.fst ++ c.missedRuleKeys
  openKeys.filter fun k => k ∉ answered

/-- `OmissionLens.review`, from the end of its run on. -/
def omissionNote (openKeys : List String) (r : LensRunResult OmissionConclusion) : CaseLensNote :=
  match r.conclusion with
  | none => unconcludedNote "bo_sot" r.failure
  | some c =>
    let missed := missedKeys openKeys c
    let unanswered := unansweredKeys openKeys c
    let tail :=
      if unanswered = [] then ""
      else " (chưa xét: " ++ String.intercalate ", " unanswered ++ ")"
    if missed = [] then
      { lens := "bo_sot", suspected := false, concluded := true, note := clampNote (c.note ++ tail) }
    else if r.toolCalls.any fun t => t.status = .ok then
      { lens := "bo_sot"
        suspected := true
        concluded := true
        note := clampNote ("Có thể bỏ sót: " ++ String.intercalate ", " missed ++ ". " ++ c.note ++
          tail) }
    else
      { lens := "bo_sot"
        suspected := false
        concluded := true
        note := clampNote ("(chưa tự kiểm được) " ++ c.note ++ tail) }

section Lenses

variable {N W : Type} (reader : ReplyReader N) (deps : LensDeps W)

def cheatingLens : CaseLens W where
  name := "gian_lan"
  review := fun _ _ world =>
    (runLensLoop deps "gian_lan" reader.parseCaseLensReply world).map fun (r, _) =>
      .ok (cheatingNote r)

/-- Without an open rule there is nothing to ask for. -/
def omissionLens : CaseLens W where
  name := "bo_sot"
  review := fun ctx verdict world =>
    let rules := openRules ctx verdict
    if rules = [] then
      some (.ok
        { lens := "bo_sot"
          suspected := false
          concluded := true
          note := "mọi luật bằng lời đã được agent chấm kết luận — " ++
            "không còn luật nào để xét bỏ sót" })
    else
      (runLensLoop deps "bo_sot" reader.parseOmissionReply world).map fun (r, _) =>
        .ok (omissionNote (rules.map RuleEntry.ruleKey).eraseDups r)

end Lenses

end Cine.Grading
