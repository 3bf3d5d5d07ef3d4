import Cine.Grading.Investigator.LoopInvariants
import Cine.Grading.Investigator.PoolAccounts

/-!
# The token budget of an investigation

`grading/investigator/investigate.ts` on its own `ModelPool`.

The loop looks at the token budget before it asks.  The last question, where
calls or rounds ran out, does not, although the comment above it gives the
reason not to ask once a token budget is reached: one request more goes past
the very limit.  So a run keeps to its budget except where both limits are
reached in the same round.

* `PooledDeps`: the surroundings of the loop with a pool in them, and every
  request with the tokens counted when it was sent;
* `SameCount` and `InBudget`: what the steps of the loop do to the counter;
* `sentRequests`: the requests of a run, and when they are in budget.

Tokens are counted where an `ask` ends, so all the requests of one `ask` go
with the same count.
-/

namespace Cine.Grading

open Cine.Lib

variable {R W : Type}

/-! ## An ask that sends -/

section Sends

variable {T : Type} (deps : PoolDeps R W) (input : AskInput R W T)

theorem pass_prefix (tier : ModelTier) (t : Tally) (s : Asking R W) :
    s.attempts <+: (deps.pass input tier t s).2.attempts := by
  rcases pass_cases deps input tier t s with hgive | ⟨a, _, _, hattempts, _⟩
  · rw [hgive]
  · rw [hattempts]
    exact List.prefix_append _ _

theorem pass_calls (tier : ModelTier) (t : Tally) (s : Asking R W)
    (htime : ¬ PoolDeps.isShort (PoolDeps.left input s.world) minAttemptMs = true) :
    (deps.pass input tier t s).2.attempts ≠ [] := by
  unfold PoolDeps.pass
  dsimp only
  rw [if_neg htime]
  rw [(onResult_spec deps input tier t ⟨tier, _, _, _⟩ _ s).1]
  exact List.append_ne_nil_of_right_ne_nil _ (List.cons_ne_nil _ _)

variable {s s' : Asking R W}

theorem askTier_prefix {tier : ModelTier} {fuel : Nat} {t : Tally} {e : Option (AskEnd T)}
    (hrun : deps.askTier input tier fuel t s = some (e, s')) : s.attempts <+: s'.attempts := by
  induction fuel generalizing t s with
  | zero => cases hrun
  | succ fuel ih =>
    have hpass := pass_prefix deps input tier t s
    unfold PoolDeps.askTier at hrun
    rcases hp : deps.pass input tier t s with ⟨p, s₁⟩
    rw [hp] at hpass hrun
    cases p with
    | again t' => exact hpass.trans (ih hrun)
    | nextTier =>
      cases hrun
      exact hpass
    | ends e' =>
      cases hrun
      exact hpass

theorem askTiers_prefix {tiers : List ModelTier} {e : AskEnd T}
    (hrun : deps.askTiers input tiers s = some (e, s')) : s.attempts <+: s'.attempts := by
  induction tiers generalizing s with
  | nil =>
    cases hrun
    exact List.prefix_rfl
  | cons tier tiers ih =>
    unfold PoolDeps.askTiers at hrun
    by_cases hexcluded : tier.label ∈ s.excluded
    · rw [if_pos hexcluded] at hrun
      exact ih hrun
    · rw [if_neg hexcluded] at hrun
      cases hvisit : deps.askTier input tier (deps.transientRetries + 2) .start s with
      | none =>
        rw [hvisit] at hrun
        cases hrun
      | some visit =>
        obtain ⟨e', s₁⟩ := visit
        have hfirst := askTier_prefix deps input hvisit
        rw [hvisit] at hrun
        cases e' with
        | none => exact hfirst.trans (ih hrun)
        | some e' =>
          cases hrun
          exact hfirst

theorem askTier_calls {tier : ModelTier} {fuel : Nat} {t : Tally} {e : Option (AskEnd T)}
    (hrun : deps.askTier input tier fuel t s = some (e, s'))
    (htime : ¬ PoolDeps.isShort (PoolDeps.left input s.world) minAttemptMs = true) :
    s'.attempts ≠ [] := by
  cases fuel with
  | zero => cases hrun
  | succ fuel =>
    have hcalls := pass_calls deps input tier t s htime
    unfold PoolDeps.askTier at hrun
    rcases hp : deps.pass input tier t s with ⟨p, s₁⟩
    rw [hp] at hcalls hrun
    cases p with
    | again t' =>
      obtain ⟨rest, hrest⟩ := askTier_prefix deps input hrun
      rw [← hrest]
      exact List.append_ne_nil_of_left_ne_nil hcalls _
    | nextTier =>
      cases hrun
      exact hcalls
    | ends e' =>
      cases hrun
      exact hcalls

theorem askTier_short (tier : ModelTier) (fuel : Nat) (t : Tally) (s : Asking R W)
    (hshort : PoolDeps.isShort (PoolDeps.left input s.world) minAttemptMs = true) :
    deps.askTier input tier (fuel + 1) t s = some (some .deadlineExceeded, s) := by
  unfold PoolDeps.askTier PoolDeps.pass
  dsimp only
  rw [if_pos hshort]

theorem askTiers_sends_iff {tiers : List ModelTier} {e : AskEnd T}
    (hrun : deps.askTiers input tiers s = some (e, s')) (hnone : s.attempts = []) :
    s'.attempts ≠ [] ↔ (∃ tier ∈ tiers, tier.label ∉ s.excluded) ∧
      ¬ PoolDeps.isShort (PoolDeps.left input s.world) minAttemptMs = true := by
  induction tiers with
  | nil =>
    cases hrun
    refine ⟨fun h => absurd hnone h, ?_⟩
    rintro ⟨⟨_, hmem, _⟩, _⟩
    exact absurd hmem List.not_mem_nil
  | cons tier tiers ih =>
    unfold PoolDeps.askTiers at hrun
    by_cases hexcluded : tier.label ∈ s.excluded
    · rw [if_pos hexcluded] at hrun
      rw [ih hrun, List.exists_mem_cons_iff]
      constructor
      · rintro ⟨hfresh, htime⟩
        exact ⟨Or.inr hfresh, htime⟩
      · rintro ⟨hfresh, htime⟩
        exact ⟨hfresh.resolve_left (not_not_intro hexcluded), htime⟩
    rw [if_neg hexcluded] at hrun
    have hfresh : ∃ tier' ∈ tier :: tiers, tier'.label ∉ s.excluded :=
      ⟨tier, List.mem_cons_self, hexcluded⟩
    by_cases hshort : PoolDeps.isShort (PoolDeps.left input s.world) minAttemptMs = true
    · rw [askTier_short deps input tier (deps.transientRetries + 1) .start s hshort] at hrun
      cases hrun
      exact ⟨fun h => absurd hnone h, fun h => absurd hshort h.2⟩
    · refine ⟨fun _ => ⟨hfresh, hshort⟩, fun _ => ?_⟩
      cases hvisit : deps.askTier input tier (deps.transientRetries + 2) .start s with
      | none =>
        rw [hvisit] at hrun
        cases hrun
      | some visit =>
        obtain ⟨e', s₁⟩ := visit
        have hcalls := askTier_calls deps input hvisit hshort
        rw [hvisit] at hrun
        cases e' with
        | none =>
          obtain ⟨rest, hrest⟩ := askTiers_prefix deps input hrun
          rw [← hrest]
          exact List.append_ne_nil_of_left_ne_nil hcalls _
        | some e' =>
          cases hrun
          exact hcalls

end Sends

/-! ## The loop on its pool -/

/-- A request to a provider, with the tokens that the investigation had
counted when it was sent. -/
structure SentRequest (R : Type) where
  counted : Nat
  attempt : Attempt R

/-- The surroundings of `investigate`: the pool with what `ask` hands to it,
the tools and the clock. -/
structure PooledDeps (R W : Type) where
  pool : PoolDeps R W
  request : W → ChatTextRequest R
  parseReply : String → Option ModelReply
  deadline : Int
  now : W → Int
  execute : String → CallArgs → W → ToolOutcome × W
  elapsed : W → Nat × W

/-- The world of the pool, its excluded tiers, and a history that the code
does not keep: the tokens of the asks so far and the requests they sent. -/
structure PooledWorld (R W : Type) where
  world : W
  excluded : List String
  counted : Nat
  sent : List (SentRequest R)

def PooledWorld.start (world : W) : PooledWorld R W where
  world := world
  excluded := []
  counted := 0
  sent := []

namespace PooledDeps

variable (env : PooledDeps R W)

def askInput (world : W) : AskInput R W ModelReply where
  request := env.request world
  parse := env.parseReply
  deadline := some env.deadline
  now := env.now

theorem ask_isSome (w : PooledWorld R W) :
    (env.pool.ask (env.askInput w.world) w.excluded w.world).isSome = true := by
  obtain ⟨e, s, hrun, _⟩ := ask_sound env.pool (env.askInput w.world) w.excluded w.world
  rw [hrun]
  rfl

/-- `pool.ask`. -/
def poolAsk (w : PooledWorld R W) : AskEnd ModelReply × Asking R W :=
  (env.pool.ask (env.askInput w.world) w.excluded w.world).get (env.ask_isSome w)

/-- The tokens that an `ask` adds to the counter. -/
def tokensOf (s : Asking R W) : Nat :=
  s.spent.inputTokens + s.spent.outputTokens

def askOutcome (e : AskEnd ModelReply) (s : Asking R W) : AskOutcome :=
  match e with
  | .reply value model => .reply value model (tokensOf s)
  | .modelsExhausted => .modelsExhausted s.reasons (tokensOf s)
  | .deadlineExceeded => .deadlineExceeded (tokensOf s)

/-- The world after an `ask`. -/
def asked (w : PooledWorld R W) (s : Asking R W) : PooledWorld R W where
  world := s.world
  excluded := s.excluded
  counted := w.counted + tokensOf s
  sent := w.sent ++ s.attempts.map fun attempt => { counted := w.counted, attempt }

def investigateDeps : InvestigateDeps (PooledWorld R W) where
  ask := fun w =>
    let (e, s) := env.poolAsk w
    (askOutcome e s, asked w s)
  execute := fun id args w =>
    let (out, world) := env.execute id args w.world
    (out, { w with world })
  elapsed := fun w =>
    let (ms, world) := env.elapsed w.world
    (ms, { w with world })

/-- An `ask` at this point sends a request: a tier is left, and a second. -/
def CanSend (w : PooledWorld R W) : Prop :=
  (∃ tier ∈ env.pool.tiers, tier.label ∉ w.excluded) ∧ minAttemptMs ≤ env.deadline - env.now w.world

theorem poolAsk_sends_iff (w : PooledWorld R W) :
    (env.poolAsk w).2.attempts ≠ [] ↔ env.CanSend w := by
  have hrun : env.pool.askTiers (env.askInput w.world) env.pool.tiers _ =
      some ((env.poolAsk w).1, (env.poolAsk w).2) := (Option.some_get (env.ask_isSome w)).symm
  rw [askTiers_sends_iff env.pool (env.askInput w.world) hrun rfl]
  refine and_congr Iff.rfl ?_
  show ¬ decide (env.deadline - env.now w.world < minAttemptMs) = true ↔ _
  rw [decide_eq_true_iff, Int.not_lt]

end PooledDeps

/-! ## The counter -/

namespace Inquiry

variable (env : PooledDeps R W) {budget : InvestigationBudget} (tools : InvestigateComponents)

/-- Nothing was asked between the two states. -/
structure SameCount (s s' : Inquiry (PooledWorld R W)) : Prop where
  tokens : s'.tokens = s.tokens
  counted : s'.world.counted = s.world.counted
  sent : s'.world.sent = s.world.sent

theorem SameCount.refl (s : Inquiry (PooledWorld R W)) : SameCount s s := ⟨rfl, rfl, rfl⟩

variable {s : Inquiry (PooledWorld R W)}

theorem SameCount.trans {s' s'' : Inquiry (PooledWorld R W)} (h : SameCount s s')
    (h' : SameCount s' s'') : SameCount s s'' :=
  ⟨h'.tokens.trans h.tokens, h'.counted.trans h.counted, h'.sent.trans h.sent⟩

theorem elapsed_sameCount (s : Inquiry (PooledWorld R W)) :
    SameCount s (s.elapsed env.investigateDeps).2 := ⟨rfl, rfl, rfl⟩

theorem oneCall_sameCount (s : Inquiry (PooledWorld R W)) (call : ModelCall) :
    SameCount s (s.oneCall env.investigateDeps tools call) := by
  simp only [oneCall]
  split_ifs
  · exact ⟨rfl, rfl, rfl⟩
  · exact ⟨rfl, rfl, rfl⟩
  · exact ⟨rfl, rfl, rfl⟩

theorem runCalls_sameCount (calls : List ModelCall) (s : Inquiry (PooledWorld R W)) :
    SameCount s (s.runCalls env.investigateDeps budget tools calls).2 := by
  induction calls generalizing s with
  | nil => exact .refl s
  | cons call calls ih =>
    have hclock := elapsed_sameCount env s
    have hcall := hclock.trans (oneCall_sameCount env tools (s.elapsed env.investigateDeps).2 call)
    simp only [runCalls]
    split_ifs
    · exact .refl s
    · exact hclock
    · exact hcall
    · exact hcall.trans (ih _)

theorem stalled_sameCount (s : Inquiry (PooledWorld R W)) :
    SameCount s (s.stalled env.investigateDeps).2 := by
  unfold stalled
  split
  · exact elapsed_sameCount env s
  · exact .refl s

theorem onReply_sameCount (s : Inquiry (PooledWorld R W)) (value : ModelReply) :
    SameCount s (s.onReply env.investigateDeps budget tools value).2 := by
  cases value with
  | final verdict => exact ⟨rfl, rfl, rfl⟩
  | call calls =>
    have hcalls : SameCount s
        (s.runCalls env.investigateDeps budget tools (calls.take maxCallsPerRound)).2 :=
      runCalls_sameCount env tools _ s
    simp only [onReply]
    rcases hs : s.runCalls env.investigateDeps budget tools (calls.take maxCallsPerRound) with
      ⟨reason, s'⟩
    rw [hs] at hcalls
    cases reason <;> exact hcalls

theorem ask_counts (s : Inquiry (PooledWorld R W)) :
    (s.ask env.investigateDeps).2.tokens = s.tokens + PooledDeps.tokensOf (env.poolAsk s.world).2 ∧
      (s.ask env.investigateDeps).2.world = PooledDeps.asked s.world (env.poolAsk s.world).2 ∧
      ∀ error, (s.ask env.investigateDeps).1 ≠ .thrown error := by
  rcases hask : env.poolAsk s.world with ⟨e, a⟩
  have hdeps : env.investigateDeps.ask s.world =
      (PooledDeps.askOutcome e a, PooledDeps.asked s.world a) := by
    show (PooledDeps.askOutcome (env.poolAsk s.world).1 (env.poolAsk s.world).2,
      PooledDeps.asked s.world (env.poolAsk s.world).2) = _
    rw [hask]
  unfold ask
  rw [hdeps]
  cases e with
  | reply value model => exact ⟨rfl, rfl, fun _ h => (nomatch h)⟩
  | deadlineExceeded => exact ⟨rfl, rfl, fun _ h => (nomatch h)⟩
  | modelsExhausted => exact ⟨rfl, rfl, fun _ h => (nomatch h)⟩

/-- The counter is the tokens of the asks so far, and every request was sent
with a count below `maxTokens`. -/
structure InBudget (maxTokens : Nat) (s : Inquiry (PooledWorld R W)) : Prop where
  counted : s.world.counted = s.tokens
  sent : ∀ r ∈ s.world.sent, r.counted < maxTokens

theorem InBudget.same {maxTokens : Nat} {s' : Inquiry (PooledWorld R W)} (h : s.InBudget maxTokens)
    (hs : SameCount s s') : s'.InBudget maxTokens := by
  constructor
  · rw [hs.counted, hs.tokens, h.counted]
  · rw [hs.sent]
    exact h.sent

theorem ask_counted (h : s.world.counted = s.tokens) :
    (s.ask env.investigateDeps).2.world.counted = (s.ask env.investigateDeps).2.tokens := by
  obtain ⟨htokens, hworld, _⟩ := ask_counts env s
  rw [hworld, htokens, ← h]
  rfl

theorem ask_sent_iff {maxTokens : Nat} (h : s.InBudget maxTokens) :
    (∀ r ∈ (s.ask env.investigateDeps).2.world.sent, r.counted < maxTokens) ↔
      (maxTokens ≤ s.tokens → ¬ env.CanSend s.world) := by
  have hsent : (s.ask env.investigateDeps).2.world.sent = s.world.sent ++
      (env.poolAsk s.world).2.attempts.map fun attempt =>
        { counted := s.world.counted, attempt } := by
    rw [(ask_counts env s).2.1]
    rfl
  rw [hsent]
  constructor
  · intro hall hfull hcan
    obtain ⟨a, ha⟩ := List.exists_mem_of_ne_nil _ ((env.poolAsk_sends_iff s.world).2 hcan)
    have hlt : s.world.counted < maxTokens :=
      hall _ (List.mem_append_right _ (List.mem_map_of_mem ha))
    have := h.counted
    omega
  · intro hroom r hr
    rcases List.mem_append.1 hr with hr | hr
    · exact h.sent r hr
    · obtain ⟨a, ha, rfl⟩ := List.mem_map.1 hr
      show s.world.counted < maxTokens
      rw [h.counted]
      by_contra hfull
      exact hroom (not_lt.1 hfull) ((env.poolAsk_sends_iff s.world).1 (List.ne_nil_of_mem ha))

/-! ## The loop -/

theorem askTurn_inBudget (h : s.InBudget budget.maxTokens) (hroom : s.tokens < budget.maxTokens) :
    (s.askTurn env.investigateDeps budget tools).2.InBudget budget.maxTokens ∧
      ∀ error, (s.askTurn env.investigateDeps budget tools).1 ≠ .throw error := by
  have hask : (s.ask env.investigateDeps).2.InBudget budget.maxTokens :=
    ⟨ask_counted env h.counted, (ask_sent_iff env h).2 fun hfull => absurd hroom (not_lt.2 hfull)⟩
  have hthrown := (ask_counts env s).2.2
  unfold askTurn
  rcases hs : s.ask env.investigateDeps with ⟨asked, s₁⟩
  rw [hs] at hask hthrown
  cases asked with
  | reply value =>
    have hnext : SameCount s₁ { s₁ with rounds := s₁.rounds + 1 } := ⟨rfl, rfl, rfl⟩
    refine ⟨hask.same (hnext.trans (onReply_sameCount env tools _ value)), fun error h => ?_⟩
    cases value with
    | final verdict => cases h
    | call calls =>
      simp only [onReply] at h
      split at h <;> cases h
  | modelsExhausted => exact ⟨hask, by rintro _ ⟨⟩⟩
  | deadlineExceeded => exact ⟨hask, by rintro _ ⟨⟩⟩
  | thrown error => exact absurd rfl (hthrown error)

theorem turn_inBudget (h : s.InBudget budget.maxTokens) :
    (s.turn env.investigateDeps budget tools).2.InBudget budget.maxTokens ∧
      ∀ error, (s.turn env.investigateDeps budget tools).1 ≠ .throw error := by
  have hclock := elapsed_sameCount env s
  simp only [turn]
  split_ifs with hrounds hwall htokens hcalls
  · exact ⟨h, by rintro _ ⟨⟩⟩
  · exact ⟨h.same hclock, by rintro _ ⟨⟩⟩
  · exact ⟨h.same hclock, by rintro _ ⟨⟩⟩
  · exact ⟨h.same hclock, by rintro _ ⟨⟩⟩
  · have hsame := hclock.trans (stalled_sameCount env (s.elapsed env.investigateDeps).2)
    rcases hs : (s.elapsed env.investigateDeps).2.stalled env.investigateDeps with ⟨isStalled, s₁⟩
    rw [hs] at hsame
    cases isStalled with
    | true => exact ⟨h.same hsame, by rintro _ ⟨⟩⟩
    | false =>
      refine askTurn_inBudget env tools (h.same hsame) ?_
      rw [show s₁.tokens = s.tokens from hsame.tokens]
      exact not_le.1 htokens

theorem loop_inBudget {fuel : Nat} (h : s.InBudget budget.maxTokens)
    {out : Except String (StopReason × Inquiry (PooledWorld R W))}
    (hloop : s.loop env.investigateDeps budget tools fuel = some out) :
    ∃ reason s', out = .ok (reason, s') ∧ s'.InBudget budget.maxTokens := by
  induction fuel generalizing s with
  | zero => cases hloop
  | succ fuel ih =>
    obtain ⟨hturn, hthrow⟩ := turn_inBudget env tools h
    simp only [loop] at hloop
    rcases hs : s.turn env.investigateDeps budget tools with ⟨turn, s₁⟩
    rw [hs] at hturn hthrow hloop
    cases turn with
    | again => exact ih hturn hloop
    | stop reason =>
      cases hloop
      exact ⟨reason, s₁, rfl, hturn⟩
    | throw error => exact absurd rfl (hthrow error)

def AsksLast (reason : StopReason) (s : Inquiry (PooledWorld R W)) : Prop :=
  (reason = .maxToolCalls ∨ reason = .maxRounds) ∧ 0 < s.okCount

theorem forceFinal_sent_iff (h : s.InBudget budget.maxTokens) (reason : StopReason) :
    ∃ stop forcedFinal s', s.forceFinal env.investigateDeps reason = .ok (stop, forcedFinal, s') ∧
      s'.world.counted = s'.tokens ∧
      ((∀ r ∈ s'.world.sent, r.counted < budget.maxTokens) ↔
        (AsksLast reason s → budget.maxTokens ≤ s.tokens → ¬ env.CanSend s.world)) := by
  unfold forceFinal
  by_cases hlast : (reason = .maxToolCalls ∨ reason = .maxRounds) ∧ 0 < s.okCount
  · rw [if_pos hlast]
    have hcounted := ask_counted env h.counted
    have hsent := ask_sent_iff env h
    have hthrown := (ask_counts env s).2.2
    rcases hs : s.ask env.investigateDeps with ⟨asked, s₁⟩
    rw [hs] at hcounted hsent hthrown
    have hiff := hsent.trans
      (⟨fun h _ => h, fun h => h hlast⟩ : _ ↔ (AsksLast reason s → budget.maxTokens ≤ s.tokens →
        ¬ env.CanSend s.world))
    cases asked with
    | reply value => cases value <;> exact ⟨_, _, _, rfl, hcounted, hiff⟩
    | modelsExhausted => exact ⟨_, _, _, rfl, hcounted, hiff⟩
    | deadlineExceeded => exact ⟨_, _, _, rfl, hcounted, hiff⟩
    | thrown error => exact absurd rfl (hthrown error)
  · rw [if_neg hlast]
    exact ⟨_, _, _, rfl, h.counted, fun _ hasks => absurd hasks hlast, fun _ => h.sent⟩

end Inquiry

/-! ## A whole run -/

section Run

variable (env : PooledDeps R W) (programProblem : InvestigationContext → Option Ungradable)
  (ctx : InvestigationContext) (budget : InvestigationBudget) (tools : InvestigateComponents)

/-- The state in which the loop ends, and the reason. -/
def loopEnd (world : W) : Option (Except String (StopReason × Inquiry (PooledWorld R W))) :=
  (Inquiry.new (.start world)).loop env.investigateDeps budget tools (budget.maxRounds + 1)

/-- The requests of a run of `investigate`, in the order they are sent. -/
def sentRequests (world : W) : List (SentRequest R) :=
  match programProblem ctx, loopEnd env budget tools world with
  | none, some (.ok (reason, s)) =>
    match s.forceFinal env.investigateDeps reason with
    | .ok (_, _, s) => s.world.sent
    | .error _ => []
  | _, _ => []

theorem investigate_run (world : W) (hprogram : programProblem ctx = none) :
    ∃ reason s stop forcedFinal s', loopEnd env budget tools world = some (.ok (reason, s)) ∧
      s.forceFinal env.investigateDeps reason = .ok (stop, forcedFinal, s') ∧
      investigate programProblem ctx env.investigateDeps budget tools (budget.maxRounds + 1)
          (.start world) =
        some (.ok (finish (ctx.rules.map RuleEntry.ruleKey)
          (ctx.cases.map fun c => { name := c.name, group := c.group }) stop forcedFinal s')) ∧
      s'.world.counted = s'.tokens ∧
      ((∀ r ∈ s'.world.sent, r.counted < budget.maxTokens) ↔
        (Inquiry.AsksLast reason s → budget.maxTokens ≤ s.tokens → ¬ env.CanSend s.world)) := by
  have hnew : (Inquiry.new (.start world) : Inquiry (PooledWorld R W)).InBudget
      budget.maxTokens := ⟨rfl, fun r hr => absurd hr List.not_mem_nil⟩
  have hkept : (Inquiry.new (.start world) : Inquiry (PooledWorld R W)).Kept budget :=
    Inquiry.kept_new _
  have hends : (loopEnd env budget tools world).isSome = true :=
    hkept.loop_ends (by simp [Inquiry.new])
  obtain ⟨out, hout⟩ := Option.isSome_iff_exists.1 hends
  obtain ⟨reason, s, rfl, hs⟩ := Inquiry.loop_inBudget env tools hnew hout
  obtain ⟨stop, forcedFinal, s', hforce, hcounted, hsent⟩ :=
    Inquiry.forceFinal_sent_iff env hs reason
  refine ⟨reason, s, stop, forcedFinal, s', hout, hforce, ?_, hcounted, hsent⟩
  unfold loopEnd at hout
  simp only [investigate, hprogram, hout, hforce]

/-- No request is sent once the token budget is used up, except where the
loop has stopped for its calls or its rounds with a call that succeeded, the
budget is used up by then, and the pool has a tier and a second left. -/
theorem sentRequests_inBudget_iff (world : W) :
    (∀ r ∈ sentRequests env programProblem ctx budget tools world, r.counted < budget.maxTokens) ↔
      ∀ reason s, programProblem ctx = none →
        loopEnd env budget tools world = some (.ok (reason, s)) →
        (reason = .maxToolCalls ∨ reason = .maxRounds) ∧ 0 < s.okCount →
        budget.maxTokens ≤ s.tokens →
        ¬ ((∃ tier ∈ env.pool.tiers, tier.label ∉ s.world.excluded) ∧
          minAttemptMs ≤ env.deadline - env.now s.world.world) := by
  cases hprogram : programProblem ctx with
  | some ungradable =>
    have hnone : sentRequests env programProblem ctx budget tools world = [] := by
      unfold sentRequests
      rw [hprogram]
    rw [hnone]
    exact ⟨fun _ _ _ h => (nomatch h), fun _ r hr => absurd hr List.not_mem_nil⟩
  | none =>
    obtain ⟨reason, s, stop, forcedFinal, s', hloop, hforce, _, _, hsent⟩ :=
      investigate_run env programProblem ctx budget tools world hprogram
    have hrun : sentRequests env programProblem ctx budget tools world = s'.world.sent := by
      unfold sentRequests
      rw [hprogram, hloop]
      dsimp only
      rw [hforce]
    rw [hrun, hsent]
    constructor
    · intro h reason' s'' _ hloop'
      rw [hloop] at hloop'
      cases hloop'
      exact h
    · exact fun h => h reason s rfl hloop

end Run

/-! ## A run past its budget -/

/-- A tier that answers every request with a program run, at a hundred
tokens, and a sandbox that runs it. -/
def alwaysRuns : PooledDeps Unit Unit where
  pool :=
    { tiers := [⟨"GRADING_TIER1_", "model-a"⟩]
      transientRetries := 2
      call := fun _ _ _ =>
        (.reply "\x7b\"action\":\"call\",\"calls\":[\x7b\"tool\":\"run\"\x7d]\x7d"
          ⟨90, 10, 0, 0⟩ (some "stop"), ())
      sleep := fun _ _ => () }
  request := fun _ => ⟨(), some 90000⟩
  parseReply := fun _ => some (.call [⟨.run, none, none, none, none, none⟩])
  deadline := 600000
  now := fun _ => 0
  execute := fun _ _ _ => (⟨.ok, none⟩, ())
  elapsed := fun _ => (0, ())

/-- With one round and a hundred tokens, the round uses up both, and the
last question goes out with the hundred tokens counted. -/
theorem last_question_over_budget :
    ¬ ∀ r ∈ sentRequests alwaysRuns (fun _ => none) ⟨.cpp, "", none, [], "b1", [], false, []⟩
      ⟨30, 600000, 100, 1⟩ (fun _ => true) (), r.counted < 100 := by
  have hcounted : (sentRequests alwaysRuns (fun _ => none)
      ⟨.cpp, "", none, [], "b1", [], false, []⟩ ⟨30, 600000, 100, 1⟩ (fun _ => true) ()).map
        SentRequest.counted = [0, 100] := by
    decide
  intro h
  have hall : ∀ n ∈ [0, 100], n < 100 := by
    rw [← hcounted]
    exact fun n hn => by
      obtain ⟨r, hr, rfl⟩ := List.mem_map.1 hn
      exact h r hr
  exact absurd (hall 100 (by decide)) (by decide)

end Cine.Grading
