import Cine.Grading.Investigator.ChallengePhase
import Cine.Grading.Investigator.JsonAnswer

/-!
# The notes of the omission lens

`lenses/omission-lens.ts`: what a note of the lens says of the rules that the
verdict left open, and what `decide` makes of it.

* `OmissionAnswered` is what holds of the note of a reply that was read: when
  the note is suspected, and which texts it holds.
* `omissionNote_answered` proves it of `omissionNote`.
* `omission_note` is the result, for every run of the lens.

A note is concluded where a final reply was read, whatever the reply says: an
open rule that it leaves out, is not sure of, or calls violated without a look
at the paper is a matter of the text alone.
-/

namespace Cine.Grading

open Cine.Lib Cine.Lib.JsonText

/-! ## What a reply says of a rule -/

/-- A rule in words that the verdict has no error of. -/
def StillOpen (ctx : InvestigationContext) (verdict : Verdict) (key : String) : Prop :=
  (∃ r ∈ ctx.rules, r.checkedBy = .model ∧ r.ruleKey = key) ∧ ∀ e ∈ verdict.errors, e.ruleKey ≠ key

namespace OmissionConclusion

def Violated (c : OmissionConclusion) (key : String) : Prop :=
  (key, .violated) ∈ c.rules ∨ key ∈ c.missedRuleKeys

def LeftOut (c : OmissionConclusion) (key : String) : Prop :=
  (∀ finding, (key, finding) ∉ c.rules) ∧ key ∉ c.missedRuleKeys

end OmissionConclusion

/-! ## What a note says of a reply -/

/-- The front of a note.  The open rules that are called violated are named where some tool
call succeeded. -/
inductive OmissionFront (isOpen : String → Prop) (c : OmissionConclusion)
    (toolCalls : List ToolCall) : String → Prop
  | clean (h : ∀ k, isOpen k → ¬ c.Violated k) : OmissionFront isOpen c toolCalls ""
  | unchecked (k : String) (hopen : isOpen k) (h : c.Violated k)
      (hfailed : ∀ t ∈ toolCalls, t.status ≠ .ok) :
      OmissionFront isOpen c toolCalls "(chưa tự kiểm được) "
  | missed (keys : List String) (hkeys : keys ≠ []) (h : ∀ k, k ∈ keys ↔ isOpen k ∧ c.Violated k)
      (hchecked : ∃ t ∈ toolCalls, t.status = .ok) :
      OmissionFront isOpen c toolCalls
        ("Có thể bỏ sót: " ++ String.intercalate ", " keys ++ ". ")

/-- The end of a note, with the open rules that the reply left out. -/
def omissionTail (leftOut : List String) : String :=
  if leftOut = [] then "" else " (chưa xét: " ++ String.intercalate ", " leftOut ++ ")"

structure OmissionAnswered (isOpen : String → Prop) (c : OmissionConclusion)
    (toolCalls : List ToolCall) (note : CaseLensNote) : Prop where
  suspected : note.suspected = true ↔
    (∃ k, isOpen k ∧ c.Violated k) ∧ ∃ t ∈ toolCalls, t.status = .ok
  /-- The text, before it is cut. -/
  text : ∃ front leftOut, note.note = clampNote (front ++ c.note ++ omissionTail leftOut) ∧
    OmissionFront isOpen c toolCalls front ∧
    leftOut.Nodup ∧ ∀ k, k ∈ leftOut ↔ isOpen k ∧ c.LeftOut k

/-! ## The keys -/

theorem mem_openKeys {ctx : InvestigationContext} {verdict : Verdict} {k : String} :
    k ∈ ((openRules ctx verdict).map RuleEntry.ruleKey).eraseDups ↔ StillOpen ctx verdict k := by
  unfold openRules StillOpen
  simp only [List.mem_eraseDups, List.mem_map, List.mem_filter, decide_eq_true_eq]
  constructor
  · rintro ⟨r, ⟨hr, hmodel, hopen⟩, rfl⟩
    exact ⟨⟨r, hr, hmodel, rfl⟩, fun e he heq => hopen ⟨e, he, heq⟩⟩
  · rintro ⟨⟨r, hr, hmodel, rfl⟩, hopen⟩
    exact ⟨r, ⟨hr, hmodel, fun ⟨e, he, heq⟩ => hopen e he heq⟩, rfl⟩

theorem openRules_eq_nil {ctx : InvestigationContext} {verdict : Verdict} :
    openRules ctx verdict = [] ↔ ∀ k, ¬ StillOpen ctx verdict k := by
  rw [← List.map_eq_nil_iff (f := RuleEntry.ruleKey), List.eq_nil_iff_forall_not_mem]
  refine forall_congr' fun k => not_congr ?_
  rw [← mem_openKeys, List.mem_eraseDups]

section Keys

variable {openKeys : List String} {c : OmissionConclusion} {k : String}

theorem mem_missedKeys : k ∈ missedKeys openKeys c ↔ k ∈ openKeys ∧ c.Violated k := by
  unfold missedKeys OmissionConclusion.Violated
  simp

theorem mem_unansweredKeys : k ∈ unansweredKeys openKeys c ↔ k ∈ openKeys ∧ c.LeftOut k := by
  unfold unansweredKeys OmissionConclusion.LeftOut
  simp

end Keys

/-! ## The note of a run -/

theorem omissionNote_answered {openKeys : List String} {r : LensRunResult OmissionConclusion}
    {c : OmissionConclusion} (hnodup : openKeys.Nodup) (hc : r.conclusion = some c) :
    (omissionNote openKeys r).concluded = true ∧
      OmissionAnswered (· ∈ openKeys) c r.toolCalls (omissionNote openKeys r) := by
  have hleft : (unansweredKeys openKeys c).Nodup ∧
      ∀ k, k ∈ unansweredKeys openKeys c ↔ k ∈ openKeys ∧ c.LeftOut k :=
    ⟨hnodup.filter _, fun _ => mem_unansweredKeys⟩
  have htail : omissionTail (unansweredKeys openKeys c) =
      if unansweredKeys openKeys c = [] then ""
      else " (chưa xét: " ++ String.intercalate ", " (unansweredKeys openKeys c) ++ ")" := rfl
  unfold omissionNote
  rw [hc]
  dsimp only
  rw [← htail]
  by_cases hmissed : missedKeys openKeys c = []
  · have hclean : ∀ k ∈ openKeys, ¬ c.Violated k := by
      intro k hk hviolated
      have hmem : k ∈ missedKeys openKeys c := mem_missedKeys.2 ⟨hk, hviolated⟩
      rw [hmissed] at hmem
      exact List.not_mem_nil hmem
    rw [if_pos hmissed]
    refine ⟨rfl, ⟨fun h => absurd h Bool.false_ne_true, ?_⟩, "", unansweredKeys openKeys c, ?_,
      .clean hclean, hleft⟩
    · intro ⟨⟨k, hk, hviolated⟩, _⟩
      exact absurd hviolated (hclean k hk)
    · rw [String.empty_append]
  · obtain ⟨k, hk⟩ := List.exists_mem_of_ne_nil _ hmissed
    have hviolated := mem_missedKeys.1 hk
    rw [if_neg hmissed]
    by_cases hchecked : (r.toolCalls.any fun t => t.status = .ok) = true
    · rw [if_pos hchecked]
      have hcalls : ∃ t ∈ r.toolCalls, t.status = .ok := by
        simpa using hchecked
      have hfront : OmissionFront (· ∈ openKeys) c r.toolCalls
          ("Có thể bỏ sót: " ++ String.intercalate ", " (missedKeys openKeys c) ++ ". ") :=
        .missed _ hmissed (fun _ => mem_missedKeys) hcalls
      exact ⟨rfl, ⟨fun _ => ⟨⟨k, hviolated⟩, hcalls⟩, fun _ => rfl⟩, _, _, by dsimp only, hfront,
        hleft⟩
    · rw [if_neg hchecked]
      have hcalls : ∀ t ∈ r.toolCalls, t.status ≠ .ok := by
        simpa using hchecked
      have hfront : OmissionFront (· ∈ openKeys) c r.toolCalls "(chưa tự kiểm được) " :=
        .unchecked k hviolated.1 hviolated.2 hcalls
      refine ⟨rfl, ⟨fun h => absurd h Bool.false_ne_true, ?_⟩, _, _, by dsimp only, hfront, hleft⟩
      intro ⟨_, t, ht, hok⟩
      exact absurd hok (hcalls t ht)

theorem omissionNote_unconcluded {openKeys : List String} {r : LensRunResult OmissionConclusion}
    (hc : r.conclusion = none) : (omissionNote openKeys r).concluded = false := by
  unfold omissionNote
  rw [hc]
  rfl

/-! ## The lens -/

section Lens

variable {N W : Type} (reader : ReplyReader N) (deps : LensDeps W)

/-- The note of the lens.  It is concluded where no rule was open or a final reply was read, and
the reply decides the rest; and a note that is suspected or not concluded keeps `decide` from
approving the paper. -/
theorem omission_note {K : Type} [Number K] (ctx : InvestigationContext) (verdict : Verdict)
    (world : W) :
    ∃ note, (omissionLens reader deps).review ctx verdict world = some (.ok note) ∧
      ((∀ k, ¬ StillOpen ctx verdict k) ∧ note.suspected = false ∧ note.concluded = true ∨
        (∃ k, StillOpen ctx verdict k) ∧
          ∃ r s, runLensLoop deps "bo_sot" reader.parseOmissionReply world = some (r, s) ∧
            (note.concluded = true ↔ ∃ c, ReadsFinal reader.parseOmissionReply s.asked c) ∧
            ∀ c, ReadsFinal reader.parseOmissionReply s.asked c →
              OmissionAnswered (StillOpen ctx verdict) c s.toolCalls note) ∧
      ∀ input : DecisionInput K, note ∈ input.caseNotes →
        note.suspected = true ∨ note.concluded = false →
          input.decide.map Decision.outcome ≠ .ok .auto := by
  have hdecide : ∀ (note : CaseLensNote) (input : DecisionInput K), note ∈ input.caseNotes →
      note.suspected = true ∨ note.concluded = false →
        input.decide.map Decision.outcome ≠ .ok .auto := by
    intro note input hn hbad hauto
    obtain ⟨hsuspected, hconcluded⟩ := (clear_of_auto hauto).1 note hn
    rcases hbad with h | h
    · rw [hsuspected] at h
      cases h
    · rw [hconcluded] at h
      cases h
  by_cases hopen : openRules ctx verdict = []
  · have hreview : (omissionLens reader deps).review ctx verdict world = some (.ok _) :=
      if_pos hopen
    exact ⟨_, hreview, Or.inl ⟨openRules_eq_nil.1 hopen, rfl, rfl⟩, hdecide _⟩
  · obtain ⟨r, s, hrun, hsound⟩ := runLensLoop_sound deps "bo_sot" reader.parseOmissionReply world
    have hsome : ∃ k, StillOpen ctx verdict k := by
      by_contra hnone
      exact hopen (openRules_eq_nil.2 (not_exists.1 hnone))
    have hkeys : (· ∈ ((openRules ctx verdict).map RuleEntry.ruleKey).eraseDups) =
        StillOpen ctx verdict := funext fun _ => propext mem_openKeys
    refine ⟨_, omissionReview_of_run hopen hrun, Or.inr ⟨hsome, r, s, hrun, ?_, ?_⟩, hdecide _⟩
    · constructor
      · intro hconcluded
        cases hc : r.conclusion with
        | none =>
          rw [omissionNote_unconcluded hc] at hconcluded
          cases hconcluded
        | some c => exact ⟨c, (hsound.concluded c).1 hc⟩
      · intro ⟨c, hread⟩
        exact (omissionNote_answered (nodup_eraseDups _) ((hsound.concluded c).2 hread)).1
    · intro c hread
      rw [← hkeys, ← hsound.toolCalls]
      exact (omissionNote_answered (nodup_eraseDups _) ((hsound.concluded c).2 hread)).2

end Lens

/-! ## A reply without a look -/

theorem parseReply_of_read {N C : Type} {reader : ReplyReader N} {conclusion : Value N → Option C}
    {content : String} {v : Value N} {reply : LensReply C}
    (hread : readSingleJson reader.parseJson reader.canonical content = .ok v)
    (hturn : reader.readTurn conclusion v = some reply) :
    reader.parseReply conclusion content = some reply := by
  unfold ReplyReader.parseReply
  rw [hread]
  exact hturn

theorem isAnswer_print {N : Type} {num : Numerals N} {isFinite : N → Bool}
    (o : JsonObject isFinite) :
    IsAnswer num isFinite o (String.ofList (JsonText.print num o.value)) := by
  refine ⟨[], place _, [], (List.append_nil _).symm, ?_, .nil,
    fun _ h => absurd h List.not_mem_nil⟩
  unfold place
  rw [List.zipIdx_map_fst, String.toList_ofList]

def scriptReader : ReplyReader Bool where
  parseJson := parseText oneOrHuge
  canonical := fun v => String.ofList (canonicalStringify id oneOrHuge v)
  whole := fun n => if n then some 1 else none
  lowerCase := id

/-- A line of a check list. -/
def ruleLine (key finding : String) : Value Bool :=
  .obj (.cons "ruleKey".toList (.str key.toList)
    (.cons "verdict".toList (.str finding.toList) .nil))

def hastyLines : Value Bool :=
  .arr (.cons (ruleLine "b" "unsure") (.cons (ruleLine "c" "violated") .nil))

def hastyCheckList : Fields Bool :=
  .cons "rules".toList hastyLines (.cons "note".toList (.str "x".toList) .nil)

/-- A reply that leaves out a rule, is not sure of one, and calls one violated. -/
def hastyFields : Fields Bool :=
  .cons "action".toList (.str "final".toList)
    (.cons "calls".toList (.arr .nil) (.cons "conclusion".toList (.obj hastyCheckList) .nil))

def hastyConclusion : OmissionConclusion := ⟨[("b", .unsure), ("c", .violated)], [], "x"⟩

theorem hastyFields_unique : hastyFields.Unique := by
  have hline : ∀ key finding, (ruleLine key finding).Unique := by
    simp [ruleLine, Value.Unique, Fields.Unique, Fields.last?]
  simp [hastyFields, hastyCheckList, hastyLines, Value.Unique, Items.Unique, Fields.Unique,
    Fields.last?, hline]

def hastyObject : JsonObject (id : Bool → Bool) := ⟨hastyFields, hastyFields_unique, rfl⟩

def hastyReply : String := String.ofList (JsonText.print oneOrHuge hastyObject.value)

theorem ruleLine_read {key finding : String} {f : RuleFinding} (hkey : (utf16 key).length ≤ 64)
    (hfinding : ruleFindingNamed (trim finding) = some f) :
    scriptReader.ruleFinding (ruleLine key finding) = some (key, f) := by
  have hrule : property "ruleKey" (ruleLine key finding) = some (.str key.toList) := by
    simp [property, ruleLine, Fields.last?]
  have hverdict : property "verdict" (ruleLine key finding) = some (.str finding.toList) := by
    simp [property, ruleLine, Fields.last?]
  have hshort : Option.filter (fun s => decide ((utf16 s).length ≤ 64)) (some key) = some key :=
    if_pos (decide_eq_true hkey)
  have hnamed : ruleFindingNamed (scriptReader.lowerCase (trim finding)) = some f := hfinding
  unfold ReplyReader.ruleFinding
  rw [hrule, hverdict]
  simp only [readTextUpTo, readText, String.ofList_toList, Option.bind_some]
  rw [hshort, hnamed]
  rfl

theorem hastyCheckList_read :
    scriptReader.omissionConclusion (.obj hastyCheckList) = some hastyConclusion := by
  have hlines : readArrayUpTo 60 scriptReader.ruleFinding hastyLines =
      some hastyConclusion.rules := by
    have hb : scriptReader.ruleFinding (ruleLine "b" "unsure") = some ("b", .unsure) :=
      ruleLine_read (by decide) (by decide)
    have hc : scriptReader.ruleFinding (ruleLine "c" "violated") = some ("c", .violated) :=
      ruleLine_read (by decide) (by decide)
    have hitems : (readArray hastyLines).filter (fun l => decide (l.length ≤ 60)) =
        some [ruleLine "b" "unsure", ruleLine "c" "violated"] := by
      simp [readArray, valuesOf, hastyLines]
    unfold readArrayUpTo
    rw [hitems, Option.bind_some, List.mapM_cons, hb, List.mapM_cons, hc]
    rfl
  have hrules : property "rules" (.obj hastyCheckList) = some hastyLines := by
    simp [property, hastyCheckList, Fields.last?]
  have hmissed : property "missedRuleKeys" (.obj hastyCheckList) = none := by
    simp [property, hastyCheckList, Fields.last?]
  have hnote : property "note" (.obj hastyCheckList) = some (.str "x".toList) := by
    simp [property, hastyCheckList, Fields.last?]
  have hshort : clampNote "x" = "x" := by
    decide
  unfold ReplyReader.omissionConclusion
  rw [hrules, hmissed, hnote]
  simp only [orEmpty, hlines, readText, String.ofList_toList, Option.bind_some]
  exact congrArg (fun note => some (⟨_, [], note⟩ : OmissionConclusion)) hshort

theorem hastyReply_read :
    scriptReader.parseOmissionReply hastyReply = some (.final hastyConclusion) := by
  have haction : property "action" hastyObject.value = some (.str "final".toList) := by
    simp [property, JsonObject.value, hastyObject, hastyFields, Fields.last?]
  have hcalls : property "calls" hastyObject.value = some (.arr .nil) := by
    simp [property, JsonObject.value, hastyObject, hastyFields, Fields.last?]
  have hconclusion : property "conclusion" hastyObject.value = some (.obj hastyCheckList) := by
    simp [property, JsonObject.value, hastyObject, hastyFields, Fields.last?]
  have hfinal : readText (.str "final".toList : Value Bool) = some "final" :=
    congrArg some String.ofList_toList
  have hturn : scriptReader.readTurn scriptReader.omissionConclusion hastyObject.value =
      some (.final hastyConclusion) := by
    unfold ReplyReader.readTurn
    rw [haction, hcalls, hconclusion]
    simp only [Option.bind_some, hfinal, hastyCheckList_read, Option.map_some]
    rfl
  exact parseReply_of_read ((readJson_spec oneOrHuge id).1 _ _ (isAnswer_print _)) hturn

def threeRules : InvestigationContext :=
  { challengedContext with
    rules := ["a", "b", "c"].map fun key => ⟨key, "", "", "correctness", true, .model⟩ }

/-- A model that gives one reply. -/
def oneReplyLens (reply : String) : LensDeps Unit :=
  { deadLens with
    tiers := [⟨"a", "m"⟩]
    call := fun _ _ w => (.reply reply .zero none, w) }

theorem oneReplyLens_run {C : Type} {parse : String → Option (LensReply C)} {reply : String}
    {c : C} (h : parse reply = some (.final c)) :
    (runLensLoop (oneReplyLens reply) "bo_sot" parse ()).map Prod.fst =
      some ⟨some c, [], none, none⟩ := by
  simp [runLensLoop, LensRun.loop, LensRun.turn, LensRun.ask, LensRun.askInput, LensRun.onAsked,
    LensRun.new, LensRun.finish, LensRun.concluded, PoolDeps.ask, PoolDeps.askTiers,
    PoolDeps.askTier, PoolDeps.pass, PoolDeps.onResult, PoolDeps.onReply, PoolDeps.left,
    PoolDeps.isShort, Asking.called, Asking.charge, oneReplyLens, deadLens, minAttemptMs,
    lensBudget, h]

def hastyNote : CaseLensNote where
  lens := "bo_sot"
  suspected := false
  concluded := true
  note := "(chưa tự kiểm được) x (chưa xét: a)"

def hastyPaper : DecisionInput ℚ := { cleanPaper with challenge := some ⟨[], [hastyNote]⟩ }

theorem hastyNote_eq :
    omissionNote ["a", "b", "c"] ⟨some hastyConclusion, [], none, none⟩ = hastyNote := by
  decide +kernel

/-- No reply of the run answers a rule with `ok`, its note is concluded and not suspected, and
the paper is decided without a teacher. -/
theorem hastyPaper_auto :
    ∃ r s, runLensLoop (oneReplyLens hastyReply) "bo_sot" scriptReader.parseOmissionReply () =
        some (r, s) ∧
      (∀ k ∈ ["a", "b", "c"], StillOpen threeRules ⟨[], []⟩ k ∧
        ∀ c, ReadsFinal scriptReader.parseOmissionReply s.asked c → (k, .ok) ∉ c.rules) ∧
      (omissionLens scriptReader (oneReplyLens hastyReply)).review threeRules ⟨[], []⟩ () =
        some (.ok hastyNote) ∧
      hastyNote.concluded = true ∧ hastyNote.suspected = false ∧
      hastyNote ∈ hastyPaper.caseNotes ∧
      hastyPaper.decide.map Decision.outcome = .ok .auto := by
  obtain ⟨r, s, hrun, hsound⟩ := runLensLoop_sound (oneReplyLens hastyReply) "bo_sot"
    scriptReader.parseOmissionReply ()
  have hresult := oneReplyLens_run hastyReply_read
  rw [hrun] at hresult
  obtain rfl := Option.some.inj hresult
  refine ⟨_, s, hrun, fun k hk => ⟨⟨?_, ?_⟩, fun c hread => ?_⟩, ?_, rfl, rfl,
    List.mem_cons_self, ?_⟩
  · exact ⟨⟨k, "", "", "correctness", true, .model⟩, List.mem_map_of_mem hk, rfl, rfl⟩
  · exact fun e he => absurd he List.not_mem_nil
  · obtain rfl : hastyConclusion = c := Option.some.inj ((hsound.concluded c).2 hread)
    simp [hastyConclusion]
  · have hkeys : ((openRules threeRules ⟨[], []⟩).map RuleEntry.ruleKey).eraseDups =
        ["a", "b", "c"] := by
      decide
    rw [omissionReview_of_run (by decide) hrun, hkeys, hastyNote_eq]
  · obtain ⟨d, hd, hauto⟩ := exists_decision hastyPaper (o := .auto) (by decide +kernel)
    rw [hd]
    exact congrArg Except.ok hauto

/-- A lens without a model does not conclude, and the clean paper goes to a teacher. -/
theorem omission_note_dead :
    ∃ note, (omissionLens plainReader deadLens).review challengedContext ⟨[], []⟩ () =
        some (.ok note) ∧
      ({ cleanPaper with challenge := some ⟨[], [note]⟩ } : DecisionInput ℚ).decide.map
        Decision.outcome ≠ .ok .auto := by
  obtain ⟨note, hreview, _, hdecide⟩ :=
    omission_note plainReader deadLens (K := ℚ) challengedContext ⟨[], []⟩ ()
  refine ⟨note, hreview, hdecide _ List.mem_cons_self (Or.inr ?_)⟩
  have hconcluded : ((omissionLens plainReader deadLens).review challengedContext ⟨[], []⟩ ()).map
      (fun v => v.toOption.map CaseLensNote.concluded) = some (some false) := by
    decide +kernel
  rw [hreview] at hconcluded
  exact Option.some.inj (Option.some.inj hconcluded)

end Cine.Grading
