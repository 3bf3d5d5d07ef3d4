import Cine.Authoring.Ruler.PrefilterCases
import Cine.Authoring.Ruler.StableRuns

/-!
# Generating a ruler

`produce` of `exam-authoring/ruler-generate.service.ts`, from the proposal of
the model to the bundle that is written, with `describeDropped` and
`coverageWarnings` of `exam-authoring/ruler/ruler-core.ts`.

* `jobCases` is the one job in which the cases and the examples run.
* `bundleOf` puts the bundle together, `produce` stops before it or writes it.
* `ne_exampleName`: no example has the name of a case.
* `bundleCases_perm`: the bundle has each proposal once.
* `produce_sound`: what a written bundle has of the proposal and the two runs.

The calls of the sandbox and the checks of the transaction are inputs.
-/

namespace Cine.Authoring.Ruler

open Cine.Lib Cine.Grading Cine.Worker

structure RulerProposal where
  modelAnswer : Option String
  examples : List ExampleProposal
  cases : List CaseProposal
deriving DecidableEq, Repr

inductive RulerMode
  | statement
  | answer
deriving DecidableEq, Repr

structure AnswerSource where
  key : String
  sha256 : String
deriving DecidableEq, Repr

structure Plan where
  language : Sandbox.SandboxLanguage
  statement : String
  /-- The source of the teacher with its code. -/
  teacher : Option (AnswerSource × String)
deriving DecidableEq

inductive TestRunStatus
  | pass
  | fail
  | compileError
  | unavailable
  | aborted
  | droppedAll
deriving DecidableEq, Repr

/-- How the run is closed when nothing is written, and what the teacher is told. -/
structure Stop where
  status : TestRunStatus
  message : String
  mismatches : List ExampleMismatch
deriving DecidableEq, Repr

inductive RulerTrust
  | verified
  | unverified
deriving DecidableEq, Repr

inductive BundleOrigin
  | generated
  | fromModelAnswer
deriving DecidableEq, Repr

/-- `BundleCaseInput`. -/
structure BundleCase where
  caseKey : String
  group : String
  input : String
  expectedOutput : String
  constraintQuote : Option String
  autoDroppedReason : Option String
deriving DecidableEq, Repr

/-- What the transaction writes: the bundle and, from a statement, the reference answer. -/
structure Written where
  origin : BundleOrigin
  cases : List BundleCase
  reference : Option (AnswerSource × RulerTrust)
  source : AnswerSource
  examplesChecked : Nat
  caseCount : Nat
  droppedCount : Nat
  warnings : List String
deriving DecidableEq, Repr

/-- A call of the sandbox. -/
inductive Attempt
  | threw
  | ended (result : ExecResult)

structure RulerEnv where
  lib : CaseFolding
  nfc : List Nat → List Nat
  letterOrNumber : Char → Bool
  sha256 : String → String

/-! ## Messages -/

/-- Cut to `n` units, with a mark. -/
def clipped (n : Nat) (text : String) : String :=
  if n < (utf16 text).length then sliceFront text n ++ "…" else text

/-- `describeDropped`, with `MAX_LISTED` and `MAX_NAME_CHARS`. -/
def describeDropped (dropped : List DroppedRef) : String :=
  let shown := (dropped.take 10).map fun d => clipped 60 d.name ++ ": " ++ d.reason
  let rest := dropped.length - shown.length
  if 0 < rest then "; ".intercalate shown ++ s!"; … và {rest} ca khác" else "; ".intercalate shown

def droppedAllMessage (proposed : Nat) (reasons : List DroppedRef) : String :=
  let listed := if reasons = [] then "" else s!" — {describeDropped reasons}"
  s!"Không còn ca nào chấm được sau khi lọc ({proposed} ca đề xuất{listed}). Không ghi gói test; hãy tự tạo gói bằng route tạo gói test."

/-- `coverageWarnings`, with `MIN_USEFUL_CASES` and `LARGE_INPUT_CHARS`. -/
def coverageWarnings (proposedCount : Nat) (kept : List KeptCase) (dropped : List DroppedRef) :
    List String :=
  let list := describeDropped dropped
  let shown := if list = "" then "" else s!" — ca bị bỏ: {list}"
  (if kept.length < 5 ∨ kept.length * 2 < proposedCount then
    [s!"Chỉ còn {kept.length}/{proposedCount} ca sau khi lọc{shown}. Hãy thêm ca bằng route tạo gói test."]
  else []) ++
  (if kept.any fun c => c.group = "bien" then [] else ["Thiếu ca nhóm bien (biên)."]) ++
  if kept.any fun c => c.group = "lon" || 1000 ≤ (utf16 c.input).length then []
  else ["Thiếu ca lớn (input từ 1000 ký tự hoặc nhóm lon)."]

/-! ## The job -/

structure RunnableCase where
  name : String
  group : Option String
  input : String
deriving DecidableEq, Repr

/-- `EXAMPLE_PREFIX` and the index. -/
def exampleName (index : Nat) : String :=
  String.ofList ("ex.".toList ++ numberText index)

def RulerEnv.stated (env : RulerEnv) (plan : Plan) (proposal : RulerProposal) :
    List (ExampleProposal × Nat) :=
  statedExamples env.letterOrNumber env.nfc proposal.examples plan.statement

def jobCases (kept : List KeptCase) (runnable : List (ExampleProposal × Nat)) :
    List RunnableCase :=
  (kept.map fun k => ⟨k.key, some k.group, k.input⟩) ++
    runnable.map fun ex => ⟨exampleName ex.2, none, ex.1.input⟩

def execOrStop : Attempt → Except Stop ExecResult
  | .threw => .error ⟨.aborted, "Máy chạy bài gặp lỗi khi chạy đáp án — thử lại sau.", []⟩
  | .ended result =>
    if result.unavailable.isSome then
      .error ⟨.unavailable, "Máy chạy bài không phản hồi — thử lại sau.", []⟩
    else if result.compile.any (!·.ok) then
      .error ⟨.compileError, "Đáp án không biên dịch được — không ghi gói test.", []⟩
    else if result.aborted.isSome then
      .error ⟨.aborted,
        "Chạy đáp án hết ngân sách thời gian — không ghi gói test; thử lại hoặc giảm số ca.", []⟩
    else .ok result

/-! ## The bundle -/

def liveCase (k : KeptCase) (out : String) : BundleCase :=
  ⟨k.key, k.group, k.input, out, some k.quote, none⟩

def droppedCase (k : KeptCase) (reason : String) : BundleCase :=
  ⟨k.key, k.group, k.input, "", some k.quote, some reason⟩

def filteredCase (d : DroppedCase) : BundleCase :=
  ⟨d.key, d.group, d.input, "", none, some d.reason⟩

/-- Why a kept case was not stable. -/
def unstableReason (runs : Interpreted) (k : KeptCase) : String :=
  ((OrderedMap.ofList (runs.dropped.map fun d => (d.name, d.reason))).get? k.key).getD
    "không chạy ổn định"

def isStable (runs : Interpreted) (k : KeptCase) : Bool :=
  runs.stable.has k.key

def bundleCases (pre : Prefiltered) (runs : Interpreted) : List BundleCase :=
  ((pre.kept.filter (isStable runs)).map fun k =>
      liveCase k ((runs.stable.get? k.key).getD "")) ++
    ((pre.kept.filter fun k => !isStable runs k).map fun k =>
      droppedCase k (unstableReason runs k)) ++
    pre.dropped.map filteredCase

/-- The drops of both filters, as they are told. -/
def droppedRefs (pre : Prefiltered) (runs : Interpreted) : List DroppedRef :=
  (pre.dropped.map fun d => ⟨d.name, d.reason⟩) ++
    (pre.kept.filter fun k => !isStable runs k).map fun k => ⟨k.key, unstableReason runs k⟩

/-- The code that is run: the teacher's, or the model's. -/
def answerCode (plan : Plan) (proposal : RulerProposal) : Except Stop String :=
  match (plan.teacher.map Prod.snd).or proposal.modelAnswer with
  | none => .error ⟨.fail, "Model không trả mã đáp án — thử lại hoặc tự tạo gói test.", []⟩
  | some code =>
    if trim code = "" then
      .error ⟨.fail, "Model không trả mã đáp án — thử lại hoặc tự tạo gói test.", []⟩
    else if 256 * 1024 < code.utf8ByteSize then
      .error ⟨.fail, "Mã đáp án model viết quá lớn — thử lại hoặc tự tạo gói test.", []⟩
    else .ok code

/-- The source of the teacher, or where `putGeneratedSource` puts the code. -/
def answerSource (env : RulerEnv) (sessionId : String) (plan : Plan) (code : String) :
    AnswerSource :=
  match plan.teacher with
  | some teacher => teacher.1
  | none =>
    let sha256 := env.sha256 code
    let ending := if plan.language = .python then "py" else "cpp"
    ⟨s!"grading-reference/{sessionId}/source-{sha256}.{ending}", sha256⟩

/-- `interpretRuns` on the job of the cases that are kept and the examples. -/
def jobRuns (env : RulerEnv) (plan : Plan) (proposal : RulerProposal) (pre : Prefiltered)
    (r₁ r₂ : ExecResult) : Interpreted :=
  interpretRuns r₁ r₂ ((jobCases pre.kept (env.stated plan proposal)).map (·.name))

/-- `checkExamples` on the stable outputs of the examples. -/
def jobCheck (env : RulerEnv) (plan : Plan) (proposal : RulerProposal) (runs : Interpreted) :
    ExampleCheck :=
  checkExamples env.letterOrNumber env.nfc proposal.examples plan.statement fun index =>
    runs.stable.get? (exampleName index)

/-- What `writeGeneratedSource` is given, from a statement. -/
def referenceOf (mode : RulerMode) (source : AnswerSource) (checked : Nat) :
    Option (AnswerSource × RulerTrust) :=
  if mode = .statement then some (source, if 0 < checked then .verified else .unverified)
  else none

def writtenOf (mode : RulerMode) (proposal : RulerProposal) (pre : Prefiltered)
    (source : AnswerSource) (runs : Interpreted) (check : ExampleCheck) : Written :=
  let stableKept := pre.kept.filter (isStable runs)
  { origin := if mode = .statement then .generated else .fromModelAnswer
    cases := bundleCases pre runs
    reference := referenceOf mode source check.checked
    source := source
    examplesChecked := check.checked
    caseCount := stableKept.length
    droppedCount := (bundleCases pre runs).length - stableKept.length
    warnings := coverageWarnings proposal.cases.length stableKept (droppedRefs pre runs) }

/-- What is written after the two runs `r₁` and `r₂`, unless the transaction throws. -/
def bundleOf (env : RulerEnv) (mode : RulerMode) (sessionId : String) (plan : Plan)
    (proposal : RulerProposal) (pre : Prefiltered) (code : String) (r₁ r₂ : ExecResult)
    (refused : Option String) : Except Stop Written :=
  let runs := jobRuns env plan proposal pre r₁ r₂
  let check := jobCheck env plan proposal runs
  if check.mismatches ≠ [] then
    .error ⟨.fail, "Đáp án chạy thật không tái tạo đúng ví dụ trong đề. Hệ thống không kết luận đáp án sai (ví dụ trong đề có thể sai chính tả) — hãy xem và quyết định.",
      (check.mismatches.take 5).map fun m =>
        { m with input := clipped 200 m.input, expected := clipped 200 m.expected,
                 actual := clipped 200 m.actual }⟩
  else if pre.kept.filter (isStable runs) = [] then
    .error ⟨.droppedAll, droppedAllMessage proposal.cases.length (droppedRefs pre runs), []⟩
  else
    match refused with
    | some message => .error ⟨.aborted, message, []⟩
    | none => .ok (writtenOf mode proposal pre (answerSource env sessionId plan code) runs check)

/-- From the answer to the bundle, once the cases are filtered. -/
def runAndWrite (env : RulerEnv) (mode : RulerMode) (sessionId : String) (plan : Plan)
    (proposal : RulerProposal) (first second : Attempt) (refused : Option String)
    (pre : Prefiltered) : Except Stop Written := do
  let code ← answerCode plan proposal
  if pre.kept = [] then
    throw ⟨.droppedAll, droppedAllMessage proposal.cases.length
      (pre.dropped.map fun d => ⟨d.name, d.reason⟩), []⟩
  let r₁ ← execOrStop first
  let r₂ ← execOrStop second
  bundleOf env mode sessionId plan proposal pre code r₁ r₂ refused

/-- `produce` after the proposal; the keys get `rounds` rounds each. -/
def produce (env : RulerEnv) (rounds : Nat) (mode : RulerMode) (sessionId : String) (plan : Plan)
    (proposal : RulerProposal) (first second : Attempt) (refused : Option String) :
    Option (Except Stop Written) :=
  (prefilterCases env.lib env.nfc rounds proposal.cases plan.statement
    (200 - (env.stated plan proposal).length)).map
      (runAndWrite env mode sessionId plan proposal first second refused)

/-! ## The names of the job -/

theorem ne_exampleName {key : String} (hkey : ∀ c ∈ key.toList, isKeyChar c = true) (index : Nat) :
    key ≠ exampleName index := by
  intro heq
  have hdot : '.' ∈ key.toList := by
    rw [heq, exampleName, String.toList_ofList]
    apply List.mem_append_left
    decide
  have hchar := hkey '.' hdot
  revert hchar
  decide

/-- The proposals under keys of the characters of a key, each key once. -/
structure Keyed (lib : CaseFolding) (proposed : List CaseProposal) (pre : Prefiltered)
    (outcomes : List Outcome) : Prop where
  kept : pre.kept = outcomes.filterMap Outcome.kept?
  dropped : pre.dropped = outcomes.filterMap Outcome.dropped?
  placed : List.Forall₂ (fun c o => Outcome.Of lib c o) proposed outcomes
  keys_nodup : (outcomes.map Outcome.key).Nodup
  keys : ∀ o ∈ outcomes, ∀ c ∈ o.key.toList, isKeyChar c = true

theorem exists_keyed {lib : CaseFolding} {nfc : List Nat → List Nat} {rounds : Nat}
    {proposed : List CaseProposal} {statement : String} {limit : Int} {pre : Prefiltered}
    (h : prefilterCases lib nfc rounds proposed statement limit = some pre) :
    ∃ outcomes, Keyed lib proposed pre outcomes := by
  obtain ⟨named, hassign, rfl⟩ := Option.map_eq_some_iff.1 h
  obtain ⟨outcomes, hfold, hof, hkeys⟩ := exists_outcomes hassign nfc statement limit
  have hnamed := FreshName.assign_spec hassign
  refine ⟨outcomes, congrArg Prefiltered.kept hfold, congrArg Prefiltered.dropped hfold, hof,
    ?_, ?_⟩
  · rw [hkeys]
    exact hnamed.nodup.map fun _ _ => String.ofList_injective
  · intro o ho
    have hmem : o.key ∈ (named.map Prod.snd).map String.ofList := hkeys ▸ List.mem_map_of_mem ho
    obtain ⟨key, hkey, heq⟩ := List.mem_map.1 hmem
    obtain ⟨p, hp, rfl⟩ := List.mem_map.1 hkey
    rw [← heq, String.toList_ofList]
    have hwanted := isKeyChar_of_mem_wantedKey lib p.1
    cases hnamed.shape p hp with
    | inl hfirst => rwa [hfirst]
    | inr hnumbered =>
      obtain ⟨m, -, hcandidate⟩ := hnumbered
      rw [hcandidate]
      exact isKeyChar_of_mem_numbered hwanted

/-! ## Every proposal in the bundle -/

def keptBundleCase (runs : Interpreted) (k : KeptCase) : BundleCase :=
  if isStable runs k then liveCase k ((runs.stable.get? k.key).getD "")
  else droppedCase k (unstableReason runs k)

def outcomeCase (runs : Interpreted) : Outcome → BundleCase
  | .kept k => keptBundleCase runs k
  | .dropped d => filteredCase d

@[simp] theorem caseKey_keptBundleCase (runs : Interpreted) (k : KeptCase) :
    (keptBundleCase runs k).caseKey = k.key := by
  unfold keptBundleCase
  split_ifs <;> rfl

@[simp] theorem caseKey_outcomeCase (runs : Interpreted) (o : Outcome) :
    (outcomeCase runs o).caseKey = o.key := by
  cases o with
  | kept k => exact caseKey_keptBundleCase runs k
  | dropped d => rfl

theorem perm_keptBundleCase (runs : Interpreted) (kept : List KeptCase) :
    ((kept.filter (isStable runs)).map fun k =>
        liveCase k ((runs.stable.get? k.key).getD "")) ++
      ((kept.filter fun k => !isStable runs k).map fun k =>
        droppedCase k (unstableReason runs k)) |>.Perm (kept.map (keptBundleCase runs)) := by
  have hlive : ∀ k ∈ kept.filter (isStable runs),
      liveCase k ((runs.stable.get? k.key).getD "") = keptBundleCase runs k := by
    intro k hk
    rw [keptBundleCase, if_pos (List.of_mem_filter hk)]
  have hdropped : ∀ k ∈ kept.filter fun k => !isStable runs k,
      droppedCase k (unstableReason runs k) = keptBundleCase runs k := by
    intro k hk
    have hunstable : (!isStable runs k) = true := (List.mem_filter.1 hk).2
    rw [keptBundleCase, if_neg (by simpa using hunstable)]
  rw [List.map_congr_left hlive, List.map_congr_left hdropped, ← List.map_append]
  exact (List.filter_append_perm _ kept).map _

theorem perm_outcomeCase (runs : Interpreted) (outcomes : List Outcome) :
    ((outcomes.filterMap Outcome.kept?).map (keptBundleCase runs) ++
      (outcomes.filterMap Outcome.dropped?).map filteredCase).Perm
        (outcomes.map (outcomeCase runs)) := by
  induction outcomes with
  | nil => exact List.Perm.refl _
  | cons o outcomes ih =>
    cases o with
    | kept k =>
      rw [List.filterMap_cons_some (Outcome.kept?_kept k),
        List.filterMap_cons_none (Outcome.dropped?_kept k)]
      exact ih.cons _
    | dropped d =>
      rw [List.filterMap_cons_none (Outcome.kept?_dropped d),
        List.filterMap_cons_some (Outcome.dropped?_dropped d), List.map_cons]
      exact List.perm_middle.trans (ih.cons _)

theorem bundleCases_perm {lib : CaseFolding} {proposed : List CaseProposal} {pre : Prefiltered}
    {outcomes : List Outcome} (h : Keyed lib proposed pre outcomes) (runs : Interpreted) :
    (bundleCases pre runs).Perm (outcomes.map (outcomeCase runs)) := by
  unfold bundleCases
  rw [h.dropped]
  apply ((perm_keptBundleCase runs pre.kept).append_right _).trans
  rw [h.kept]
  exact perm_outcomeCase runs outcomes

/-- What the bundle says of the proposal `c` after the runs `r₁` and `r₂`. -/
inductive CaseFate (lib : CaseFolding) (r₁ r₂ : ExecResult) (c : CaseProposal) (b : BundleCase) :
    Prop
  | live (group : b.group = normalizeGroup lib c.group) (input : b.input = c.input)
      (quote : b.constraintQuote = some c.quote) (reason : b.autoDroppedReason = none)
      (first : Printed r₁ b.caseKey b.expectedOutput)
      (second : Printed r₂ b.caseKey b.expectedOutput)
  | dropped (group : b.group = normalizeGroup lib c.group)
      (input : b.input = c.input ∨ b.input = escapeNul c.input)
      (reason : ∃ reason, reason ≠ "" ∧ b.autoDroppedReason = some reason)
      (output : b.expectedOutput = "")

section Fates

variable {lib : CaseFolding} {r₁ r₂ : ExecResult} {wanted : List String}

theorem unstableReason_ne_empty (k : KeptCase) :
    unstableReason (interpretRuns r₁ r₂ wanted) k ≠ "" := by
  unfold unstableReason
  cases hreason : (OrderedMap.ofList ((interpretRuns r₁ r₂ wanted).dropped.map fun d =>
      (d.name, d.reason))).get? k.key with
  | none => decide
  | some reason =>
    obtain ⟨d, hd, heq⟩ := List.mem_map.1 (OrderedMap.mem_of_get?_ofList hreason)
    rw [Option.getD_some, ← (Prod.mk.inj heq).2]
    exact reason_ne_empty hd

theorem caseFate_outcomeCase {c : CaseProposal} {o : Outcome} (h : o.Of lib c) :
    CaseFate lib r₁ r₂ c (outcomeCase (interpretRuns r₁ r₂ wanted) o) := by
  cases o with
  | dropped d =>
    obtain ⟨-, hgroup, hinput, hreason⟩ := h
    exact .dropped hgroup (Or.inr hinput) ⟨d.reason, hreason, rfl⟩ rfl
  | kept k =>
    obtain ⟨hgroup, hinput, hquote⟩ := h
    show CaseFate lib r₁ r₂ c (keptBundleCase (interpretRuns r₁ r₂ wanted) k)
    unfold keptBundleCase
    split_ifs with hstable
    · obtain ⟨out, hout⟩ := Option.isSome_iff_exists.1 hstable
      have hprinted := printed_of_stable hout
      rw [hout]
      exact .live hgroup hinput (congrArg some hquote) rfl hprinted.1 hprinted.2
    · exact .dropped hgroup (Or.inl hinput) ⟨_, unstableReason_ne_empty k, rfl⟩ rfl

end Fates

/-! ## What is written -/

/-- What the bundle `w` has of the proposal after the runs `r₁` and `r₂`: each case once, under a
name that no example has, and verified by examples that both runs reproduce alone. -/
structure BundleSound (env : RulerEnv) (plan : Plan) (proposal : RulerProposal)
    (r₁ r₂ : ExecResult) (w : Written) : Prop where
  cases : ∃ fates, w.cases.Perm fates ∧
    List.Forall₂ (CaseFate env.lib r₁ r₂) proposal.cases fates
  keys_nodup : (w.cases.map (·.caseKey)).Nodup
  apart : ∀ b ∈ w.cases, ∀ index, b.caseKey ≠ exampleName index
  verified : ∀ source, w.reference = some (source, .verified) →
    env.stated plan proposal ≠ [] ∧ ∀ ex ∈ env.stated plan proposal,
      ∃ out, Printed r₁ (exampleName ex.2) out ∧ Printed r₂ (exampleName ex.2) out ∧
        sameOutput out ex.1.output = true

section Written

variable {env : RulerEnv} {mode : RulerMode} {sessionId : String} {plan : Plan}
  {proposal : RulerProposal} {pre : Prefiltered} {code : String} {r₁ r₂ : ExecResult}
  {refused : Option String} {w : Written}

theorem bundleOf_eq_ok
    (h : bundleOf env mode sessionId plan proposal pre code r₁ r₂ refused = .ok w) :
    (jobCheck env plan proposal (jobRuns env plan proposal pre r₁ r₂)).mismatches = [] ∧
      w = writtenOf mode proposal pre (answerSource env sessionId plan code)
        (jobRuns env plan proposal pre r₁ r₂)
        (jobCheck env plan proposal (jobRuns env plan proposal pre r₁ r₂)) := by
  unfold bundleOf at h
  dsimp only at h
  split_ifs at h with hmismatch hnone
  cases refused with
  | some message => cases h
  | none =>
    cases h
    exact ⟨not_not.1 hmismatch, rfl⟩

theorem checked_pos_of_verified {source source' : AnswerSource} {checked : Nat}
    (h : referenceOf mode source checked = some (source', .verified)) : 0 < checked := by
  unfold referenceOf at h
  split_ifs at h with hmode hpos
  · exact hpos
  · cases h

theorem jobCheck_reproduced
    (h : (jobCheck env plan proposal (jobRuns env plan proposal pre r₁ r₂)).mismatches = [])
    {ex : ExampleProposal × Nat} (hex : ex ∈ env.stated plan proposal) :
    ∃ out, Printed r₁ (exampleName ex.2) out ∧ Printed r₂ (exampleName ex.2) out ∧
      sameOutput out ex.1.output = true := by
  obtain ⟨out, hout, hsame⟩ := checkExamples_reproduced h hex
  have hprinted := printed_of_stable hout
  exact ⟨out, hprinted.1, hprinted.2, hsame⟩

theorem bundleOf_sound {outcomes : List Outcome}
    (hkeyed : Keyed env.lib proposal.cases pre outcomes)
    (h : bundleOf env mode sessionId plan proposal pre code r₁ r₂ refused = .ok w) :
    BundleSound env plan proposal r₁ r₂ w := by
  obtain ⟨hmismatch, rfl⟩ := bundleOf_eq_ok h
  have hperm := bundleCases_perm hkeyed (jobRuns env plan proposal pre r₁ r₂)
  have hkeys := hperm.map (·.caseKey)
  rw [List.map_map, show (fun b : BundleCase => b.caseKey) ∘
    outcomeCase (jobRuns env plan proposal pre r₁ r₂) = Outcome.key from
      funext fun o => caseKey_outcomeCase _ o] at hkeys
  constructor
  · refine ⟨_, hperm, ?_⟩
    rw [List.forall₂_map_right_iff]
    exact hkeyed.placed.imp fun c o ho => caseFate_outcomeCase ho
  · exact hkeys.nodup_iff.2 hkeyed.keys_nodup
  · intro b hb
    have hmem : b.caseKey ∈ outcomes.map Outcome.key :=
      hkeys.mem_iff.1 (List.mem_map_of_mem hb)
    obtain ⟨o, ho, heq⟩ := List.mem_map.1 hmem
    rw [← heq]
    exact ne_exampleName (hkeyed.keys o ho)
  · intro source hreference
    have hpos := checked_pos_of_verified hreference
    exact ⟨List.length_pos_iff.1 hpos, fun ex hex => jobCheck_reproduced hmismatch hex⟩

theorem ended_of_execOrStop {attempt : Attempt} {r : ExecResult}
    (h : execOrStop attempt = .ok r) : attempt = .ended r := by
  cases attempt with
  | threw => cases h
  | ended result =>
    unfold execOrStop at h
    dsimp only at h
    split_ifs at h
    cases h
    rfl

theorem runAndWrite_sound {first second : Attempt} {outcomes : List Outcome}
    (hkeyed : Keyed env.lib proposal.cases pre outcomes)
    (h : runAndWrite env mode sessionId plan proposal first second refused pre = .ok w) :
    ∃ r₁ r₂, first = .ended r₁ ∧ second = .ended r₂ ∧ BundleSound env plan proposal r₁ r₂ w := by
  obtain ⟨code, -, h⟩ := bind_eq_ok.1 h
  dsimp only at h
  split_ifs at h
  · obtain ⟨_, hthrow, -⟩ := bind_eq_ok.1 h
    exact absurd hthrow throw_ne_ok
  · obtain ⟨r₁, hfirst, h⟩ := bind_eq_ok.1 h
    obtain ⟨r₂, hsecond, h⟩ := bind_eq_ok.1 h
    exact ⟨r₁, r₂, ended_of_execOrStop hfirst, ended_of_execOrStop hsecond,
      bundleOf_sound hkeyed h⟩

end Written

/-- The expected outputs are what both runs of the answer printed. -/
theorem produce_sound (env : RulerEnv) (mode : RulerMode) (sessionId : String) (plan : Plan)
    (proposal : RulerProposal) (first second : Attempt) (refused : Option String) :
    (∃ result,
      (∀ rounds, proposal.cases.length + 1 ≤ rounds →
        produce env rounds mode sessionId plan proposal first second refused = some result) ∧
      ∀ w, result = .ok w → ∃ r₁ r₂, first = .ended r₁ ∧ second = .ended r₂ ∧
        BundleSound env plan proposal r₁ r₂ w) ∧
    ∀ r₁ r₂ wanted, Partition wanted (interpretRuns r₁ r₂ wanted) := by
  refine ⟨?_, interpretRuns_partition⟩
  obtain ⟨named, hassign⟩ := exists_named env.lib proposal.cases
  let limit : Int := 200 - (env.stated plan proposal).length
  let pre := named.foldl (prefilterStep env.lib env.nfc plan.statement limit) ⟨[], []⟩
  have hpre : ∀ rounds, proposal.cases.length + 1 ≤ rounds →
      prefilterCases env.lib env.nfc rounds proposal.cases plan.statement limit = some pre := by
    intro rounds hrounds
    rw [prefilterCases, hassign rounds hrounds]
    rfl
  obtain ⟨outcomes, hkeyed⟩ := exists_keyed (hpre _ (Nat.le_refl _))
  refine ⟨runAndWrite env mode sessionId plan proposal first second refused pre,
    fun rounds hrounds => ?_, fun w hw => runAndWrite_sound hkeyed hw⟩
  rw [produce, hpre rounds hrounds]
  rfl

/-! ## Two cases and an example -/

section Sums

def sumStatement : String := "In tong. Vao 1 2 thi in 3"

def sumEnv : RulerEnv := ⟨⟨id, id⟩, id, Char.isAlphanum, id⟩

def sumPlan : Plan := ⟨.python, sumStatement, none⟩

/-- The second case has no quote. -/
def sumProposal : RulerProposal where
  modelAnswer := some "print(sum(map(int, input().split())))"
  examples := [⟨"1 2", "3", "Vao 1 2 thi in 3"⟩]
  cases := [⟨"a", "bien", "2 2", "Vao 1 2 thi in 3", true⟩, ⟨"a", "bien", "2 3", "", true⟩]

def ranCase (name out : String) : CaseResult := ⟨name, none, .ran, 1, some out, none, []⟩

theorem isUuid_sumJob : isUuid "00000000-0000-0000-0000-000000000000".toList = true := by
  decide

def sumRun : ExecResult :=
  ⟨1, "exec", ⟨"00000000-0000-0000-0000-000000000000", isUuid_sumJob⟩, none, none,
    [ranCase "a" "4", ranCase "ex.0" "3"], 2, none, none⟩

theorem produce_sound_once : ∃ w,
    produce sumEnv 3 .statement "s" sumPlan sumProposal (.ended sumRun) (.ended sumRun) none =
      some (.ok w) ∧
    w.cases.map (·.expectedOutput) = ["4", ""] ∧
    w.reference.map Prod.snd = some .verified ∧
    BundleSound sumEnv sumPlan sumProposal sumRun sumRun w := by
  obtain ⟨result, hresult, hsound⟩ := (produce_sound sumEnv .statement "s" sumPlan sumProposal
    (.ended sumRun) (.ended sumRun) none).1
  have hrun := hresult 3 (by decide)
  have hok : (result.toOption.map fun w =>
      (w.cases.map (·.expectedOutput), w.reference.map Prod.snd)) =
        some (["4", ""], some .verified) := by
    have hcomputed : ((produce sumEnv 3 .statement "s" sumPlan sumProposal (.ended sumRun)
        (.ended sumRun) none).bind Except.toOption).map (fun w =>
          (w.cases.map (·.expectedOutput), w.reference.map Prod.snd)) =
            some (["4", ""], some .verified) := by decide
    rwa [hrun] at hcomputed
  cases result with
  | error stop => cases hok
  | ok w =>
    obtain ⟨r₁, r₂, hfirst, hsecond, hbundle⟩ := hsound w rfl
    cases hfirst
    cases hsecond
    obtain ⟨houtputs, htrust⟩ := Prod.mk.inj (Option.some.inj hok)
    exact ⟨w, hrun, houtputs, htrust, hbundle⟩

end Sums

end Cine.Authoring.Ruler
