import Cine.Grading.Investigator.Investigate

/-!
# What holds of every investigation

`investigate_sound` is for all surroundings, that is for every sequence of
replies, tool outcomes and times: the loop ends within its rounds, the
recorded calls are numbered from one without a gap, the errors of the
verdict each name one rule of the table and quote calls that succeeded, and
there is a verdict only where the whole bundle was measured.

`Kept` is what one turn of the loop keeps.
-/

namespace Cine.Grading

open Cine.Lib

/-- The ids of `n` recorded calls. -/
def callIds (n : Nat) : List String :=
  (List.range n).map fun i => "tc-" ++ toString (i + 1)

theorem callIds_succ (n : Nat) : callIds (n + 1) = callIds n ++ ["tc-" ++ toString (n + 1)] := by
  simp [callIds, List.range_succ]

namespace Inquiry

variable {W : Type} (deps : InvestigateDeps W) {budget : InvestigationBudget}
  (tools : InvestigateComponents) {s : Inquiry W}

/-- The recorded calls are numbered and within the budget, and so are the
rounds. -/
structure Kept (budget : InvestigationBudget) (s : Inquiry W) : Prop where
  ids : s.toolCalls.map ToolCall.id = callIds s.toolCalls.length
  toolCalls : s.toolCalls.length ≤ budget.maxToolCalls
  rounds : s.rounds ≤ budget.maxRounds

theorem kept_new (world : W) : Kept budget (.new world) :=
  ⟨rfl, Nat.zero_le _, Nat.zero_le _⟩

/-! ## One call -/

theorem oneCall_spec (call : ModelCall) :
    (∃ t, t.id = s.nextId ∧ (s.oneCall deps tools call).toolCalls = s.toolCalls ++ [t]) ∧
      (s.oneCall deps tools call).rounds = s.rounds := by
  simp only [oneCall]
  split_ifs
  · exact ⟨⟨_, rfl, rfl⟩, rfl⟩
  · exact ⟨⟨_, rfl, rfl⟩, rfl⟩
  · exact ⟨⟨_, rfl, rfl⟩, rfl⟩

theorem Kept.oneCall (h : Kept budget s) (hroom : s.toolCalls.length < budget.maxToolCalls)
    (call : ModelCall) : Kept budget (s.oneCall deps tools call) := by
  obtain ⟨⟨t, hid, hcalls⟩, hrounds⟩ := oneCall_spec deps tools (s := s) call
  constructor
  · rw [hcalls, List.map_append, h.ids, List.length_append, List.length_singleton, callIds_succ,
      List.map_singleton, hid]
    rfl
  · rw [hcalls, List.length_append, List.length_singleton]
    omega
  · rw [hrounds]
    exact h.rounds

theorem Kept.runCalls (h : Kept budget s) (calls : List ModelCall) :
    Kept budget (s.runCalls deps budget tools calls).2 ∧
      (s.runCalls deps budget tools calls).2.rounds = s.rounds := by
  induction calls generalizing s with
  | nil => exact ⟨h, rfl⟩
  | cons call calls ih =>
    by_cases hfull : budget.maxToolCalls ≤ s.toolCalls.length
    · simp only [Inquiry.runCalls, hfull, if_true]
      exact ⟨h, trivial⟩
    · have hkept : Kept budget (s.elapsed deps).2 := ⟨h.ids, h.toolCalls, h.rounds⟩
      have hcall := hkept.oneCall deps tools (not_le.1 hfull) call
      have hrounds := (oneCall_spec deps tools (s := (s.elapsed deps).2) call).2
      simp only [Inquiry.runCalls, hfull, if_false]
      split_ifs
      · exact ⟨hkept, rfl⟩
      · exact ⟨hcall, hrounds⟩
      · obtain ⟨hrest, heq⟩ := ih hcall
        exact ⟨hrest, heq.trans hrounds⟩

/-! ## One turn -/

theorem ask_spec :
    (s.ask deps).2.toolCalls = s.toolCalls ∧ (s.ask deps).2.rounds = s.rounds ∧
      (s.ask deps).2.structured = s.structured := by
  simp only [ask]
  cases (deps.ask s.world).1 <;> exact ⟨rfl, rfl, rfl⟩

theorem Kept.ask (h : Kept budget s) : Kept budget (s.ask deps).2 := by
  obtain ⟨hcalls, hrounds, _⟩ := ask_spec deps (s := s)
  constructor
  · rw [hcalls]
    exact h.ids
  · rw [hcalls]
    exact h.toolCalls
  · rw [hrounds]
    exact h.rounds

theorem stalled_spec (h : Kept budget s) :
    Kept budget (s.stalled deps).2 ∧ (s.stalled deps).2.rounds = s.rounds := by
  unfold stalled
  split
  · exact ⟨⟨h.ids, h.toolCalls, h.rounds⟩, rfl⟩
  · exact ⟨h, rfl⟩

theorem Kept.onReply (h : Kept budget s) (value : ModelReply) :
    Kept budget (s.onReply deps budget tools value).2 ∧
      (s.onReply deps budget tools value).2.rounds = s.rounds := by
  cases value with
  | final verdict => exact ⟨⟨h.ids, h.toolCalls, h.rounds⟩, rfl⟩
  | call calls =>
    have hcalls := h.runCalls deps tools (calls.take maxCallsPerRound)
    simp only [Inquiry.onReply]
    rcases hs : s.runCalls deps budget tools (calls.take maxCallsPerRound) with ⟨reason, s'⟩
    rw [hs] at hcalls
    cases reason <;> exact hcalls

theorem Kept.askTurn (h : Kept budget s) (hrounds : s.rounds < budget.maxRounds) :
    Kept budget (s.askTurn deps budget tools).2 ∧
      ∀ s', s.askTurn deps budget tools = (.again, s') → s'.rounds = s.rounds + 1 := by
  have hask := h.ask deps
  obtain ⟨_, heq, _⟩ := ask_spec deps (s := s)
  unfold Inquiry.askTurn
  rcases hs : s.ask deps with ⟨asked, s₁⟩
  rw [hs] at hask heq
  cases asked with
  | reply value =>
    have hnext : Kept budget ({ s₁ with rounds := s₁.rounds + 1 } : Inquiry W) := by
      refine ⟨hask.ids, hask.toolCalls, ?_⟩
      show s₁.rounds + 1 ≤ budget.maxRounds
      have : s₁.rounds = s.rounds := heq
      omega
    obtain ⟨hkept, hr⟩ := hnext.onReply deps tools value
    refine ⟨hkept, fun s' hs' => ?_⟩
    have hs₁ : s₁.rounds = s.rounds := heq
    simp only at hs'
    rw [hs'] at hr
    rw [show s'.rounds = _ from hr, ← hs₁]
  | modelsExhausted => exact ⟨hask, nofun⟩
  | deadlineExceeded => exact ⟨hask, nofun⟩
  | thrown error => exact ⟨hask, nofun⟩

theorem Kept.turn (h : Kept budget s) :
    Kept budget (s.turn deps budget tools).2 ∧
      ∀ s', s.turn deps budget tools = (.again, s') →
        s'.rounds = s.rounds + 1 ∧ s.rounds < budget.maxRounds := by
  have hclock : Kept budget (s.elapsed deps).2 := ⟨h.ids, h.toolCalls, h.rounds⟩
  simp only [Inquiry.turn]
  split_ifs with hrounds hwall htokens hcalls
  · exact ⟨h, nofun⟩
  · exact ⟨hclock, nofun⟩
  · exact ⟨hclock, nofun⟩
  · exact ⟨hclock, nofun⟩
  · obtain ⟨hstalled, heq⟩ := stalled_spec deps hclock
    rcases hs : (s.elapsed deps).2.stalled deps with ⟨isStalled, s₁⟩
    rw [hs] at hstalled heq
    have hroom : s₁.rounds < budget.maxRounds := by
      have : s₁.rounds = s.rounds := heq
      omega
    cases isStalled with
    | true => exact ⟨hstalled, nofun⟩
    | false =>
      obtain ⟨hkept, hagain⟩ := hstalled.askTurn deps tools hroom
      refine ⟨hkept, fun s' hs' => ?_⟩
      rw [hagain s' hs', show s₁.rounds = s.rounds from heq]
      exact ⟨rfl, not_le.1 hrounds⟩

/-! ## The whole loop -/

variable {deps tools}

theorem Kept.loop (h : Kept budget s) {fuel : Nat} {reason : StopReason} {s' : Inquiry W}
    (hloop : s.loop deps budget tools fuel = some (.ok (reason, s'))) : Kept budget s' := by
  induction fuel generalizing s with
  | zero => cases hloop
  | succ fuel ih =>
    have hturn := (h.turn deps tools).1
    rcases hs : s.turn deps budget tools with ⟨turn, s₁⟩
    rw [hs] at hturn
    simp only [Inquiry.loop, hs] at hloop
    cases turn with
    | again => exact ih hturn hloop
    | stop r =>
      cases hloop
      exact hturn
    | throw e => cases hloop

theorem Kept.loop_ends (h : Kept budget s) {fuel : Nat} (hfuel : budget.maxRounds < s.rounds + fuel) :
    (s.loop deps budget tools fuel).isSome = true := by
  induction fuel generalizing s with
  | zero =>
    have := h.rounds
    omega
  | succ fuel ih =>
    obtain ⟨hturn, hagain⟩ := h.turn deps tools
    rcases hs : s.turn deps budget tools with ⟨turn, s₁⟩
    rw [hs] at hturn hagain
    simp only [Inquiry.loop, hs]
    cases turn with
    | again =>
      obtain ⟨hrounds, _⟩ := hagain s₁ rfl
      have hturn' : Kept budget s₁ := hturn
      exact ih hturn' (by omega)
    | stop r => rfl
    | throw e => rfl

theorem loop_add {fuel : Nat} {out : Except String (StopReason × Inquiry W)}
    (hloop : s.loop deps budget tools fuel = some out) (more : Nat) :
    s.loop deps budget tools (fuel + more) = some out := by
  induction fuel generalizing s with
  | zero => cases hloop
  | succ fuel ih =>
    rw [Nat.succ_add]
    simp only [Inquiry.loop] at hloop ⊢
    rcases hs : s.turn deps budget tools with ⟨turn, s₁⟩
    rw [hs] at hloop
    cases turn with
    | again => exact ih hloop
    | stop r => exact hloop
    | throw e => exact hloop

theorem Kept.forceFinal (h : Kept budget s) {reason stop : StopReason} {forcedFinal : Bool}
    {s' : Inquiry W} (hforce : s.forceFinal deps reason = .ok (stop, forcedFinal, s')) :
    Kept budget s' := by
  have hask := h.ask deps
  simp only [Inquiry.forceFinal] at hforce
  split_ifs at hforce
  · rcases hs : s.ask deps with ⟨asked, s₁⟩
    rw [hs] at hask hforce
    cases asked with
    | reply value =>
      cases value with
      | final verdict =>
        cases hforce
        exact ⟨hask.ids, hask.toolCalls, hask.rounds⟩
      | call calls =>
        cases hforce
        exact hask
    | modelsExhausted =>
      cases hforce
      exact hask
    | deadlineExceeded =>
      cases hforce
      exact hask
    | thrown error => cases hforce
  · cases hforce
    exact h

end Inquiry

/-! ## The errors that are accepted -/

/-- Each accepted error names a rule of the table, no rule is named twice,
and the calls that are quoted succeeded. -/
structure Accepting.Sound (known okIds : List String) (a : Accepting) : Prop where
  seen : a.errors.map VerdictError.ruleKey = a.seen
  nodup : a.seen.Nodup
  known : ∀ e ∈ a.errors, e.ruleKey ∈ known
  quoted : ∀ e ∈ a.errors, e.toolCallIds ≠ [] ∧ ∀ id ∈ e.toolCallIds, id ∈ okIds

theorem Accepting.Sound.acceptError {known allIds okIds : List String} {a : Accepting}
    (h : a.Sound known okIds) (e : VerdictError) :
    (acceptError known allIds okIds a e).Sound known okIds := by
  simp only [Cine.Grading.acceptError]
  split_ifs with hknown hall hempty hseen
  · exact ⟨h.seen, h.nodup, h.known, h.quoted⟩
  · exact ⟨h.seen, h.nodup, h.known, h.quoted⟩
  · exact h
  · constructor
    · simp [h.seen]
    · refine List.nodup_append.2 ⟨h.nodup, List.nodup_singleton _, ?_⟩
      rintro k hk k' hk' rfl
      rw [List.mem_singleton.1 hk'] at hk
      exact hseen hk
    · intro e' he'
      rcases List.mem_append.1 he' with h' | h'
      · exact h.known e' h'
      · rw [List.mem_singleton.1 h']
        exact hknown
    · intro e' he'
      rcases List.mem_append.1 he' with h' | h'
      · exact h.quoted e' h'
      · rw [List.mem_singleton.1 h']
        exact ⟨hempty, fun id hid => by simpa using (List.mem_filter.1 hid).2⟩
  · exact ⟨h.seen, h.nodup, h.known, h.quoted⟩

theorem acceptErrors_sound (known : List String) (toolCalls : List ToolCall)
    (errors : List VerdictError) :
    (acceptErrors known toolCalls errors).Sound known
      ((toolCalls.filter fun t => t.status = .ok).map ToolCall.id) := by
  unfold acceptErrors
  refine List.foldlRecOn errors _ ?_ fun a ha e _ => ha.acceptError e
  exact ⟨rfl, List.nodup_nil, nofun, nofun⟩

/-! ## The floor -/

theorem of_ungradableReason_eq_none {cases : List BundleCase} {stop : StopReason}
    {accepted : Option Verdict} {W : Type} {s : Inquiry W}
    (h : ungradableReason cases stop accepted s = none) :
    0 < s.okCount ∧ stop ≠ .modelsExhausted ∧ cases ≠ [] ∧
      uncoveredCases cases s.toolCalls s.structured = [] ∧ accepted.isSome = true := by
  simp only [ungradableReason] at h
  split_ifs at h with hok hstop hcases hmissing haccepted
  exact ⟨Nat.pos_of_ne_zero hok, hstop, hcases, not_not.1 hmissing,
    Option.isSome_iff_ne_none.2 haccepted⟩

/-! ## What an investigation ends with -/

/-- What holds of the result of an investigation. -/
structure InquiryResult.Sound (ruleKeys : List String) (cases : List BundleCase)
    (budget : InvestigationBudget) (r : InquiryResult) : Prop where
  rounds : r.rounds ≤ budget.maxRounds
  toolCalls : r.toolCalls.length ≤ budget.maxToolCalls
  ids : r.toolCalls.map ToolCall.id = callIds r.toolCalls.length
  known : ∀ v ∈ r.verdict, ∀ e ∈ v.errors, e.ruleKey ∈ ruleKeys
  nodup : ∀ v ∈ r.verdict, (v.errors.map VerdictError.ruleKey).Nodup
  quoted : ∀ v ∈ r.verdict, ∀ e ∈ v.errors, e.toolCallIds ≠ [] ∧
    ∀ id ∈ e.toolCallIds, ∃ t ∈ r.toolCalls, t.id = id ∧ t.status = .ok
  floor : r.kind = .verdict → (∃ t ∈ r.toolCalls, t.status = .ok) ∧ cases ≠ [] ∧
    (∀ c ∈ cases, ∃ t ∈ r.toolCalls, Measures r.structuredResults t c) ∧
    r.stopReason ≠ .modelsExhausted

theorem invalidProgram_sound (ruleKeys : List String) (cases : List BundleCase)
    (budget : InvestigationBudget) (ungradable : Ungradable) :
    (invalidProgram ungradable).Sound ruleKeys cases budget :=
  ⟨Nat.zero_le _, Nat.zero_le _, rfl, nofun, nofun, nofun, nofun⟩

theorem finish_sound {W : Type} {budget : InvestigationBudget} {s : Inquiry W}
    (h : s.Kept budget) (ruleKeys : List String) (cases : List BundleCase) (stop : StopReason)
    (forcedFinal : Bool) : (finish ruleKeys cases stop forcedFinal s).Sound ruleKeys cases budget := by
  have haccepted := acceptErrors_sound ruleKeys s.toolCalls
    ((s.verdict.map Verdict.errors).getD [])
  have hverdict : ∀ v ∈ (finish ruleKeys cases stop forcedFinal s).verdict,
      v.errors = (acceptErrors ruleKeys s.toolCalls
        ((s.verdict.map Verdict.errors).getD [])).errors := by
    intro v hv
    simp only [finish] at hv
    split_ifs at hv
    · cases hv
    · obtain ⟨v₀, _, rfl⟩ := Option.map_eq_some_iff.1 hv
      rfl
  refine ⟨h.rounds, h.toolCalls, h.ids, fun v hv => ?_, fun v hv => ?_, fun v hv => ?_, ?_⟩
  · rw [hverdict v hv]
    exact haccepted.known
  · rw [hverdict v hv, haccepted.seen]
    exact haccepted.nodup
  · rw [hverdict v hv]
    intro e he
    obtain ⟨hne, hids⟩ := haccepted.quoted e he
    refine ⟨hne, fun id hid => ?_⟩
    obtain ⟨t, ht, rfl⟩ := List.mem_map.1 (hids id hid)
    obtain ⟨ht, hok⟩ := List.mem_filter.1 ht
    exact ⟨t, ht, rfl, of_decide_eq_true hok⟩
  · intro hkind
    have hreason : ungradableReason cases stop (s.verdict.map fun v =>
        { v with errors := (acceptErrors ruleKeys s.toolCalls
          ((s.verdict.map Verdict.errors).getD [])).errors }) s = none := by
      by_contra hsome
      simp only [finish, Option.isSome_iff_ne_none.2 hsome, if_true] at hkind
      cases hkind
    obtain ⟨hok, hstop, hcases, hmissing, _⟩ := of_ungradableReason_eq_none hreason
    obtain ⟨t, ht, htok⟩ := List.countP_pos_iff.1 hok
    exact ⟨⟨t, ht, of_decide_eq_true htok⟩, hcases, uncoveredCases_eq_nil.1 hmissing, hstop⟩

/-- Every investigation ends, and what it ends with is sound: it is within
its rounds and its calls, the calls are numbered without a gap, the errors
of the verdict are proved by calls that succeeded, and there is a verdict
only over a bundle that was measured as a whole. -/
theorem investigate_sound {W : Type} (programProblem : InvestigationContext → Option Ungradable)
    (ctx : InvestigationContext) (deps : InvestigateDeps W) (budget : InvestigationBudget)
    (tools : InvestigateComponents) (world : W) :
    ∃ out, (∀ fuel, budget.maxRounds < fuel →
        investigate programProblem ctx deps budget tools fuel world = some out) ∧
      ∀ r, out = .ok r → r.Sound (ctx.rules.map RuleEntry.ruleKey)
        (ctx.cases.map fun c => { name := c.name, group := c.group }) budget := by
  cases hproblem : programProblem ctx with
  | some ungradable =>
    refine ⟨.ok (invalidProgram ungradable), fun fuel _ => ?_, fun r hr => ?_⟩
    · simp only [investigate, hproblem]
    · cases hr
      exact invalidProgram_sound _ _ _ _
  | none =>
    have hnew : (Inquiry.new world).Kept budget := Inquiry.kept_new world
    have hends : ((Inquiry.new world).loop deps budget tools (budget.maxRounds + 1)).isSome :=
      hnew.loop_ends (by simp [Inquiry.new])
    obtain ⟨ended, hended⟩ := Option.isSome_iff_exists.1 hends
    have hloop : ∀ fuel, budget.maxRounds < fuel →
        (Inquiry.new world).loop deps budget tools fuel = some ended := by
      intro fuel hfuel
      have := Inquiry.loop_add hended (fuel - (budget.maxRounds + 1))
      rwa [Nat.add_sub_cancel' hfuel] at this
    cases ended with
    | error e =>
      refine ⟨.error e, fun fuel hfuel => ?_, nofun⟩
      simp only [investigate, hproblem, hloop fuel hfuel]
    | ok p =>
      obtain ⟨reason, s⟩ := p
      have hkept := hnew.loop hended
      cases hforce : s.forceFinal deps reason with
      | error e =>
        refine ⟨.error e, fun fuel hfuel => ?_, nofun⟩
        simp only [investigate, hproblem, hloop fuel hfuel, hforce]
      | ok p =>
        obtain ⟨stop, forcedFinal, s'⟩ := p
        let ruleKeys := ctx.rules.map RuleEntry.ruleKey
        let cases : List BundleCase := ctx.cases.map fun c => { name := c.name, group := c.group }
        refine ⟨.ok (finish ruleKeys cases stop forcedFinal s'), fun fuel hfuel => ?_,
          fun r hr => ?_⟩
        · simp only [investigate, hproblem, hloop fuel hfuel, hforce, ruleKeys, cases]
        · cases hr
          exact finish_sound (hkept.forceFinal hforce) _ _ _ _

end Cine.Grading
