import Cine.Grading.Investigator.ModelPool

/-!
# Accounts and bounds of a pool

`pass_cases` says what one pass of the loop over a tier can be: it gives up
before a call, or it calls the tier once.  From it follow, for a visit of a
tier (`askTier_visits`), for `ask` (`ask_sound`) and for any number of asks
one after the other (`askAll_sound`)

* that the fuel suffices, so that `ask` ends,
* that the spent tokens are the tokens of all the calls,
* that a tier is called `transientRetries + 2` times at most and gives two
  outputs of no use at most,
* that every call has time enough, and
* that an excluded tier is not called again.

`ask_reads` says that the value `ask` ends with is the only one that was read.
-/

namespace Cine.Grading

open Cine.Lib

variable {R W T : Type}

/-! ## What is said of the calls -/

/-- The tokens of the calls, added up. -/
def totalUsage (attempts : List (Attempt R)) : ChatUsage :=
  attempts.foldl (fun u a => u.add a.result.usage) .zero

namespace Attempt

/-- The output of the call is of no use. -/
def isBad (parse : String → Option T) (a : Attempt R) : Bool :=
  match a.result with
  | .reply content _ _ => (parse content).isNone
  | .failed error _ _ => classifyProviderFailure error = .badOutput

/-- The call starts with at least a second left, and is not to last longer
than what is left. -/
structure InTime (a : Attempt R) : Prop where
  enough : ∀ l ∈ a.left, minAttemptMs ≤ l
  limited : ∃ ms, a.request.timeoutMs = some ms ∧ ∀ l ∈ a.left, ms ≤ l

end Attempt

/-- The tokens that are reported are the tokens of the calls, and the tokens
by model add up to them. -/
structure Asking.Accounted (s : Asking R W) : Prop where
  calls : s.spent = totalUsage s.attempts
  input : (s.spentBy.values.map ModelUsage.inputTokens).sum = s.spent.inputTokens
  output : (s.spentBy.values.map ModelUsage.outputTokens).sum = s.spent.outputTokens

theorem totalUsage_concat (attempts : List (Attempt R)) (a : Attempt R) :
    totalUsage (attempts ++ [a]) = (totalUsage attempts).add a.result.usage := by
  rw [totalUsage, List.foldl_append]
  rfl

theorem sum_charge (spentBy : UsageByModel) (model : String) (u : ChatUsage) :
    ((spentBy.charge model u).values.map ModelUsage.inputTokens).sum =
        (spentBy.values.map ModelUsage.inputTokens).sum + u.inputTokens ∧
      ((spentBy.charge model u).values.map ModelUsage.outputTokens).sum =
        (spentBy.values.map ModelUsage.outputTokens).sum + u.outputTokens := by
  unfold UsageByModel.charge
  dsimp only
  constructor
  · have hset := spentBy.sum_values_set model
      ⟨((spentBy.get? model).getD ⟨0, 0⟩).inputTokens + u.inputTokens,
        ((spentBy.get? model).getD ⟨0, 0⟩).outputTokens + u.outputTokens⟩ ModelUsage.inputTokens
    cases hget : spentBy.get? model <;> simp only [hget, Option.map_none, Option.map_some,
      Option.getD_none, Option.getD_some] at hset ⊢ <;> omega
  · have hset := spentBy.sum_values_set model
      ⟨((spentBy.get? model).getD ⟨0, 0⟩).inputTokens + u.inputTokens,
        ((spentBy.get? model).getD ⟨0, 0⟩).outputTokens + u.outputTokens⟩ ModelUsage.outputTokens
    cases hget : spentBy.get? model <;> simp only [hget, Option.map_none, Option.map_some,
      Option.getD_none, Option.getD_some] at hset ⊢ <;> omega

variable {s : Asking R W}

theorem Asking.Accounted.called_charge (h : s.Accounted) (a : Attempt R) (world : W)
    (model : String) : ((s.called a world).charge model a.result.usage).Accounted := by
  obtain ⟨hinput, houtput⟩ := sum_charge s.spentBy model a.result.usage
  refine ⟨?_, ?_, ?_⟩
  · show s.spent.add a.result.usage = totalUsage (s.attempts ++ [a])
    rw [totalUsage_concat, h.calls]
  · exact hinput.trans (by rw [h.input]; rfl)
  · exact houtput.trans (by rw [h.output]; rfl)

theorem Asking.Accounted.called (h : s.Accounted) {a : Attempt R} (ha : a.result.usage = .zero)
    (world : W) : (s.called a world).Accounted := by
  refine ⟨?_, h.input, h.output⟩
  show s.spent = totalUsage (s.attempts ++ [a])
  rw [totalUsage_concat, ← h.calls, ha]
  rfl

/-! ## One pass -/

section Pass

variable {deps : PoolDeps R W} {input : AskInput R W T}

/-- What a pass with a call leaves of the counters and of the excluded
tiers. -/
def Pass.After (retries : Nat) (tier : ModelTier) (t : Tally) (bad : Bool)
    (before after : List String) : Pass T → Prop
  | .again t' => after = before ∧
      ((bad = true ∧ t'.badOutputs = t.badOutputs + 1 ∧ t'.badOutputs ≤ 1 ∧
          t'.transients = t.transients) ∨
        (bad = false ∧ t'.badOutputs = t.badOutputs ∧ t'.transients = t.transients + 1 ∧
          t'.transients ≤ retries))
  | .nextTier => tier.label ∈ after ∧ before ⊆ after
  | .ends _ => after = before

/-- The state after a pass, against the state after its call. -/
structure Asking.SameCalls (s s' : Asking R W) : Prop where
  attempts : s'.attempts = s.attempts
  spent : s'.spent = s.spent
  spentBy : s'.spentBy = s.spentBy

theorem Asking.SameCalls.accounted {s s' : Asking R W} (h : s.SameCalls s') (hs : s.Accounted) :
    s'.Accounted := by
  refine ⟨?_, ?_, ?_⟩
  · rw [h.attempts, h.spent]
    exact hs.calls
  · rw [h.spentBy, h.spent]
    exact hs.input
  · rw [h.spentBy, h.spent]
    exact hs.output

theorem exclude_excluded (s : Asking R W) (tier : ModelTier) (reason : String) :
    tier.label ∈ (s.exclude tier reason).excluded ∧
      s.excluded ⊆ (s.exclude tier reason).excluded := by
  unfold Asking.exclude
  dsimp only
  split_ifs with h
  · exact ⟨h, List.Subset.refl _⟩
  · exact ⟨List.mem_append_right _ (List.mem_singleton_self _), List.subset_append_left _ _⟩

theorem onReply_spec (retries : Nat) (input : AskInput R W T) (tier : ModelTier) (t : Tally) (content : String)
    (finishReason : Option String) (s : Asking R W) :
    s.SameCalls (PoolDeps.onReply input tier t content finishReason s).2 ∧
      (PoolDeps.onReply input tier t content finishReason s).1.After retries tier t
        (input.parse content).isNone s.excluded
        (PoolDeps.onReply input tier t content finishReason s).2.excluded := by
  unfold PoolDeps.onReply
  cases hparse : input.parse content with
  | some value => exact ⟨⟨rfl, rfl, rfl⟩, rfl⟩
  | none =>
    dsimp only
    by_cases hbad : t.badOutputs + 1 ≥ 2
    · rw [if_pos hbad]
      exact ⟨⟨rfl, rfl, rfl⟩, exclude_excluded s tier _⟩
    · rw [if_neg hbad]
      refine ⟨⟨rfl, rfl, rfl⟩, rfl, Or.inl ⟨rfl, rfl, ?_, rfl⟩⟩
      show t.badOutputs + 1 ≤ 1
      omega

theorem onError_spec (deps : PoolDeps R W) (input : AskInput R W T) (tier : ModelTier) (t : Tally) (error : ProviderError) (text : String)
    (s : Asking R W) :
    s.SameCalls (deps.onError input tier t error text s).2 ∧
      (deps.onError input tier t error text s).1.After deps.transientRetries tier t
        (classifyProviderFailure error = .badOutput) s.excluded
        (deps.onError input tier t error text s).2.excluded := by
  unfold PoolDeps.onError
  dsimp only
  by_cases hbad : classifyProviderFailure error = .badOutput ∧ t.badOutputs + 1 < 2
  · rw [if_pos hbad]
    refine ⟨⟨rfl, rfl, rfl⟩, rfl, Or.inl ⟨decide_eq_true hbad.1, rfl, ?_, rfl⟩⟩
    show t.badOutputs + 1 ≤ 1
    omega
  rw [if_neg hbad]
  by_cases htransient : classifyProviderFailure error = .transient ∧
      t.transients < deps.transientRetries
  · rw [if_pos htransient]
    cases PoolDeps.isShort (PoolDeps.left input s.world)
        (minAttemptMs + ((1000 * (t.transients + 1) : Nat) : Int)) with
    | true => exact ⟨⟨rfl, rfl, rfl⟩, rfl⟩
    | false =>
      refine ⟨⟨rfl, rfl, rfl⟩, rfl, Or.inr ⟨decide_eq_false ?_, rfl, rfl, htransient.2⟩⟩
      rw [htransient.1]
      decide
  · rw [if_neg htransient]
    exact ⟨⟨rfl, rfl, rfl⟩, exclude_excluded s tier _⟩

theorem onResult_spec (deps : PoolDeps R W) (input : AskInput R W T) (tier : ModelTier) (t : Tally)
    (a : Attempt R) (world : W) (s : Asking R W) :
    (deps.onResult input tier t a.result (s.called a world)).2.attempts = s.attempts ++ [a] ∧
      (s.Accounted → (deps.onResult input tier t a.result (s.called a world)).2.Accounted) ∧
      (deps.onResult input tier t a.result (s.called a world)).1.After deps.transientRetries tier t
        (a.isBad input.parse) s.excluded
        (deps.onResult input tier t a.result (s.called a world)).2.excluded := by
  obtain ⟨_, _, _, result⟩ := a
  unfold PoolDeps.onResult Attempt.isBad
  cases result with
  | reply content usage finishReason =>
    obtain ⟨hsame, hafter⟩ := onReply_spec deps.transientRetries input tier t content finishReason
      ((s.called ⟨_, _, _, .reply content usage finishReason⟩ world).charge tier.model usage)
    exact ⟨hsame.attempts, fun hs => hsame.accounted (hs.called_charge _ world tier.model), hafter⟩
  | failed error text usage =>
    cases usage with
    | none =>
      obtain ⟨hsame, hafter⟩ := onError_spec deps input tier t error text
        (s.called ⟨_, _, _, .failed error text none⟩ world)
      exact ⟨hsame.attempts, fun hs => hsame.accounted (hs.called rfl world), hafter⟩
    | some usage =>
      obtain ⟨hsame, hafter⟩ := onError_spec deps input tier t error text
        ((s.called ⟨_, _, _, .failed error text (some usage)⟩ world).charge tier.model usage)
      exact ⟨hsame.attempts, fun hs => hsame.accounted (hs.called_charge _ world tier.model),
        hafter⟩

theorem inTime_of_not_short {tier : ModelTier} {left : Option Int} {result : CallResult}
    (h : ¬ PoolDeps.isShort left minAttemptMs = true) :
    (⟨tier, PoolDeps.attemptRequest input left, left, result⟩ : Attempt R).InTime := by
  unfold PoolDeps.isShort at h
  constructor
  · intro l hl
    obtain rfl : left = some l := hl
    simpa using h
  · refine ⟨_, rfl, fun l hl => ?_⟩
    obtain rfl : left = some l := hl
    exact min_le_right _ _

theorem pass_cases (deps : PoolDeps R W) (input : AskInput R W T) (tier : ModelTier) (t : Tally)
    (s : Asking R W) :
    deps.pass input tier t s = (.ends .deadlineExceeded, s) ∨
      ∃ a : Attempt R, a.tier = tier ∧ a.InTime ∧
        (deps.pass input tier t s).2.attempts = s.attempts ++ [a] ∧
        (s.Accounted → (deps.pass input tier t s).2.Accounted) ∧
        (deps.pass input tier t s).1.After deps.transientRetries tier t (a.isBad input.parse)
          s.excluded (deps.pass input tier t s).2.excluded := by
  unfold PoolDeps.pass
  dsimp only
  by_cases hshort : PoolDeps.isShort (PoolDeps.left input s.world) minAttemptMs
  · rw [if_pos hshort]
    exact Or.inl rfl
  · rw [if_neg hshort]
    let left := PoolDeps.left input s.world
    let ended := deps.call tier (PoolDeps.attemptRequest input left) s.world
    let a : Attempt R := ⟨tier, PoolDeps.attemptRequest input left, left, ended.1⟩
    exact Or.inr ⟨a, rfl, inTime_of_not_short hshort, onResult_spec deps input tier t a ended.2 s⟩

end Pass

/-! ## A visit of a tier -/

/-- The calls `new` of a visit of the tier `tier`. -/
structure Visits (retries : Nat) (parse : String → Option T) (tier : ModelTier)
    (s s' : Asking R W) (new : List (Attempt R)) : Prop where
  attempts : s'.attempts = s.attempts ++ new
  tier : ∀ a ∈ new, a.tier = tier
  inTime : ∀ a ∈ new, a.InTime
  accounted : s.Accounted → s'.Accounted
  excluded : s.excluded ⊆ s'.excluded

theorem askTier_visits (deps : PoolDeps R W) (input : AskInput R W T) (tier : ModelTier)
    {fuel : Nat} {t : Tally} (s : Asking R W) (hbad : t.badOutputs ≤ 1)
    (htransients : t.transients ≤ deps.transientRetries)
    (hfuel : deps.transientRetries + 2 ≤ fuel + t.badOutputs + t.transients) :
    ∃ e s' new, deps.askTier input tier fuel t s = some (e, s') ∧
      Visits deps.transientRetries input.parse tier s s' new ∧
      new.length + t.badOutputs + t.transients ≤ deps.transientRetries + 2 ∧
      new.countP (Attempt.isBad input.parse) + t.badOutputs ≤ 2 ∧
      (e = none → tier.label ∈ s'.excluded) := by
  induction fuel generalizing t s with
  | zero => omega
  | succ fuel ih =>
    unfold PoolDeps.askTier
    rcases pass_cases deps input tier t s with hgive | ⟨a, htier, htime, hattempts, haccounted, hafter⟩
    · rw [hgive]
      refine ⟨_, s, [], rfl, ⟨(List.append_nil _).symm, ?_, ?_, id, List.Subset.refl _⟩, ?_, ?_, ?_⟩
      · exact fun a ha => absurd ha List.not_mem_nil
      · exact fun a ha => absurd ha List.not_mem_nil
      · rw [List.length_nil]
        omega
      · rw [List.countP_nil]
        omega
      · exact fun h => by cases h
    · have hone : ∀ b ∈ [a], b = a := fun b hb => List.mem_singleton.1 hb
      have hvisit : ∀ {s'}, s'.attempts = s.attempts ++ [a] → (s.Accounted → s'.Accounted) →
          s.excluded ⊆ s'.excluded →
          Visits deps.transientRetries input.parse tier s s' [a] := fun h h' h'' =>
        ⟨h, fun b hb => hone b hb ▸ htier, fun b hb => hone b hb ▸ htime, h', h''⟩
      have hcount : [a].countP (Attempt.isBad input.parse) ≤ 1 := List.countP_le_length
      rcases hpass : deps.pass input tier t s with ⟨p, s₁⟩
      rw [hpass] at hattempts haccounted hafter
      cases p with
      | again t' =>
        obtain ⟨hexcluded, hstep⟩ := hafter
        have hbad' : t'.badOutputs ≤ 1 := by omega
        have htransients' : t'.transients ≤ deps.transientRetries := by omega
        have hfuel' : deps.transientRetries + 2 ≤ fuel + t'.badOutputs + t'.transients := by omega
        obtain ⟨e, s', new, hrun, hvisits, hlength, hcountBad, hnext⟩ :=
          ih s₁ hbad' htransients' hfuel'
        refine ⟨e, s', a :: new, hrun, ⟨?_, ?_, ?_, ?_, ?_⟩, ?_, ?_, hnext⟩
        · rw [hvisits.attempts, hattempts, List.append_assoc]
          rfl
        · exact List.forall_mem_cons.2 ⟨htier, hvisits.tier⟩
        · exact List.forall_mem_cons.2 ⟨htime, hvisits.inTime⟩
        · exact fun h => hvisits.accounted (haccounted h)
        · exact hexcluded ▸ hvisits.excluded
        · rw [List.length_cons]
          omega
        · rw [List.countP_cons]
          rcases hstep with ⟨hisBad, hcounters⟩ | ⟨hisBad, hcounters⟩
          · rw [if_pos hisBad]
            omega
          · rw [if_neg (by rw [hisBad]; exact Bool.false_ne_true)]
            omega
      | nextTier =>
        refine ⟨_, s₁, [a], rfl, hvisit hattempts haccounted hafter.2, ?_, ?_, fun _ => hafter.1⟩
        · rw [List.length_singleton]
          omega
        · omega
      | ends e =>
        have hsub : s.excluded ⊆ s₁.excluded := by
          rw [show s₁.excluded = s.excluded from hafter]
          exact List.Subset.refl _
        refine ⟨_, s₁, [a], rfl, hvisit hattempts haccounted hsub, ?_, ?_, fun h => by cases h⟩
        · rw [List.length_singleton]
          omega
        · omega

/-! ## One ask -/

/-- The calls to tiers of the label. -/
def callsTo (attempts : List (Attempt R)) (label : String) : List (Attempt R) :=
  attempts.filter fun a => a.tier.label = label

/-- The accounts and the bounds of one `ask`. -/
structure AskSound (retries : Nat) (parse : String → Option T) (s : Asking R W) : Prop where
  accounted : s.Accounted
  inTime : ∀ a ∈ s.attempts, a.InTime
  calls : ∀ label, (callsTo s.attempts label).length ≤ retries + 2
  bad : ∀ label, (callsTo s.attempts label).countP (Attempt.isBad parse) ≤ 2

/-- An `ask` that began with the excluded tiers `before` has called none of
them, and keeps them excluded. -/
structure AskKeeps (before : List String) (s : Asking R W) : Prop where
  fresh : ∀ a ∈ s.attempts, a.tier.label ∉ before
  grows : before ⊆ s.excluded

theorem AskSound.visit {retries : Nat} {parse : String → Option T} {s' : Asking R W}
    {tier : ModelTier} {new : List (Attempt R)} (h : AskSound retries parse s)
    (hseen : ∀ a ∈ s.attempts, a.tier.label ∈ s.excluded) (htier : tier.label ∉ s.excluded)
    (hvisits : Visits retries parse tier s s' new) (hlength : new.length ≤ retries + 2)
    (hbad : new.countP (Attempt.isBad parse) ≤ 2) : AskSound retries parse s' := by
  have hnone : callsTo s.attempts tier.label = [] := by
    refine List.filter_eq_nil_iff.2 fun a ha hlabel => htier ?_
    rw [← of_decide_eq_true hlabel]
    exact hseen a ha
  have hother : ∀ label, label ≠ tier.label → callsTo new label = [] := by
    intro label hne
    refine List.filter_eq_nil_iff.2 fun a ha hlabel => hne ?_
    rw [← of_decide_eq_true hlabel, hvisits.tier a ha]
  have hsplit : ∀ label, callsTo s'.attempts label =
      if label = tier.label then callsTo new label else callsTo s.attempts label := by
    intro label
    have happend : callsTo s'.attempts label = callsTo s.attempts label ++ callsTo new label := by
      rw [callsTo, hvisits.attempts, List.filter_append]
      rfl
    rw [happend]
    split_ifs with hlabel
    · rw [hlabel, hnone, List.nil_append]
    · rw [hother label hlabel, List.append_nil]
  have hsub : ∀ label, (callsTo new label).Sublist new := fun label => List.filter_sublist
  refine ⟨hvisits.accounted h.accounted, ?_, ?_, ?_⟩
  · rw [hvisits.attempts]
    exact fun a ha => (List.mem_append.1 ha).elim (h.inTime a) (hvisits.inTime a)
  · intro label
    rw [hsplit]
    split_ifs
    · exact (hsub label).length_le.trans hlength
    · exact h.calls label
  · intro label
    rw [hsplit]
    split_ifs
    · exact ((hsub label).countP_le).trans hbad
    · exact h.bad label

theorem AskKeeps.visit {retries : Nat} {parse : String → Option T} {before : List String}
    {s' : Asking R W} {tier : ModelTier} {new : List (Attempt R)} (h : AskKeeps before s)
    (htier : tier.label ∉ s.excluded) (hvisits : Visits retries parse tier s s' new) :
    AskKeeps before s' := by
  constructor
  · rw [hvisits.attempts]
    intro a ha
    rcases List.mem_append.1 ha with ha | ha
    · exact h.fresh a ha
    · rw [hvisits.tier a ha]
      exact fun hmem => htier (h.grows hmem)
  · exact fun label hlabel => hvisits.excluded (h.grows hlabel)

theorem askTiers_sound (deps : PoolDeps R W) (input : AskInput R W T) {before : List String}
    (tiers : List ModelTier) (s : Asking R W)
    (h : AskSound deps.transientRetries input.parse s) (hkeeps : AskKeeps before s)
    (hseen : ∀ a ∈ s.attempts, a.tier.label ∈ s.excluded) :
    ∃ e s', deps.askTiers input tiers s = some (e, s') ∧
      AskSound deps.transientRetries input.parse s' ∧ AskKeeps before s' := by
  induction tiers generalizing s with
  | nil => exact ⟨_, s, rfl, h, hkeeps⟩
  | cons tier tiers ih =>
    unfold PoolDeps.askTiers
    by_cases hexcluded : tier.label ∈ s.excluded
    · rw [if_pos hexcluded]
      exact ih s h hkeeps hseen
    rw [if_neg hexcluded]
    obtain ⟨e, s', new, hrun, hvisits, hlength, hbad, hnext⟩ :=
      @askTier_visits _ _ _ deps input tier (deps.transientRetries + 2) .start s
        (Nat.zero_le 1) (Nat.zero_le _) le_rfl
    have hsound := h.visit hseen hexcluded hvisits hlength hbad
    rw [hrun]
    cases e with
    | some e => exact ⟨e, s', rfl, hsound, hkeeps.visit hexcluded hvisits⟩
    | none =>
      refine ih s' hsound (hkeeps.visit hexcluded hvisits) ?_
      rw [hvisits.attempts]
      intro a ha
      rcases List.mem_append.1 ha with ha | ha
      · exact hvisits.excluded (hseen a ha)
      · rw [hvisits.tier a ha]
        exact hnext rfl

theorem ask_sound (deps : PoolDeps R W) (input : AskInput R W T) (excluded : List String) (w : W) :
    ∃ e s, deps.ask input excluded w = some (e, s) ∧
      AskSound deps.transientRetries input.parse s ∧ AskKeeps excluded s := by
  refine askTiers_sound deps input deps.tiers _ ⟨⟨rfl, rfl, rfl⟩, ?_, ?_, ?_⟩ ⟨?_, ?_⟩ ?_
  · exact fun a ha => absurd ha List.not_mem_nil
  · exact fun _ => Nat.zero_le _
  · exact fun _ => Nat.zero_le _
  · exact fun a ha => absurd ha List.not_mem_nil
  · exact List.Subset.refl _
  · exact fun a ha => absurd ha List.not_mem_nil

/-! ## What an ask reads -/

/-- The value that is read from the output of a call. -/
def Attempt.read (parse : String → Option T) (a : Attempt R) : Option T :=
  match a.result with
  | .reply content _ _ => parse content
  | .failed _ _ _ => none

/-- Nothing was read so far. -/
def Asking.Unread (parse : String → Option T) (s : Asking R W) : Prop :=
  ∀ a ∈ s.attempts, a.read parse = none

/-- What was read is what `ask` ends with. -/
def Asking.Reads (parse : String → Option T) (e : AskEnd T) (s : Asking R W) : Prop :=
  ∀ v, (∃ a ∈ s.attempts, a.read parse = some v) ↔ ∃ model, e = .reply v model

/-- What a pass leaves: nothing read, or the end that it was read for. -/
def Pass.Leaves (parse : String → Option T) (s : Asking R W) : Pass T → Prop
  | .again _ => s.Unread parse
  | .nextTier => s.Unread parse
  | .ends e => s.Reads parse e

section Reads

variable {parse : String → Option T}

variable {s s' : Asking R W} {a : Attempt R} {input : AskInput R W T} {t : Tally} {tier : ModelTier}

theorem Asking.Unread.reads (h : s.Unread parse) {e : AskEnd T} (he : ∀ v model, e ≠ .reply v model) :
    s.Reads parse e := by
  intro v
  constructor
  · rintro ⟨a, ha, hread⟩
    rw [h a ha] at hread
    cases hread
  · rintro ⟨model, heq⟩
    exact absurd heq (he v model)

theorem Asking.Unread.concat (h : s.Unread parse) (ha : a.read parse = none)
    (hs' : s'.attempts = s.attempts ++ [a]) : s'.Unread parse := by
  intro b hb
  rw [hs'] at hb
  rcases List.mem_append.1 hb with hb | hb
  · exact h b hb
  · obtain rfl := List.mem_singleton.1 hb
    exact ha

theorem Asking.Unread.reads_last (h : s.Unread parse) {v : T} (ha : a.read parse = some v)
    (hs' : s'.attempts = s.attempts ++ [a]) (model : String) : s'.Reads parse (.reply v model) := by
  intro w
  constructor
  · rintro ⟨b, hb, hread⟩
    rw [hs'] at hb
    rcases List.mem_append.1 hb with hb | hb
    · rw [h b hb] at hread
      cases hread
    · obtain rfl := List.mem_singleton.1 hb
      rw [ha] at hread
      exact ⟨model, by rw [Option.some.inj hread]⟩
  · rintro ⟨_, heq⟩
    cases heq
    exact ⟨a, by rw [hs']; exact List.mem_append_right _ (List.mem_singleton_self a), ha⟩

theorem onError_leaves (deps : PoolDeps R W) {error : ProviderError} {text : String}
    (h : s.Unread input.parse) :
    (deps.onError input tier t error text s).1.Leaves input.parse
      (deps.onError input tier t error text s).2 := by
  unfold PoolDeps.onError
  dsimp only
  split_ifs
  · exact h
  · exact h.reads fun _ _ heq => (nomatch heq)
  · exact h
  · exact h

theorem onResult_leaves (deps : PoolDeps R W) {world : W} (h : s.Unread input.parse) :
    (deps.onResult input tier t a.result (s.called a world)).1.Leaves input.parse
      (deps.onResult input tier t a.result (s.called a world)).2 := by
  obtain ⟨tier', request, left, result⟩ := a
  cases result with
  | failed error text usage =>
    have hcalled : (s.called ⟨tier', request, left, .failed error text usage⟩ world).Unread
        input.parse := h.concat rfl rfl
    cases usage with
    | none => exact onError_leaves deps hcalled
    | some usage => exact onError_leaves deps hcalled
  | reply content usage finishReason =>
    have hread : (⟨tier', request, left, .reply content usage finishReason⟩ : Attempt R).read
        input.parse = input.parse content := rfl
    unfold PoolDeps.onResult PoolDeps.onReply
    dsimp only
    cases hparse : input.parse content with
    | some value => exact h.reads_last (hread.trans hparse) rfl tier.model
    | none =>
      dsimp only
      split_ifs
      · exact h.concat (hread.trans hparse) rfl
      · exact h.concat (hread.trans hparse) rfl

theorem pass_leaves (deps : PoolDeps R W) (tier : ModelTier) (t : Tally) (h : s.Unread input.parse) :
    (deps.pass input tier t s).1.Leaves input.parse (deps.pass input tier t s).2 := by
  unfold PoolDeps.pass
  dsimp only
  split_ifs
  · exact h.reads fun _ _ heq => (nomatch heq)
  · exact onResult_leaves deps (a := ⟨tier, _, _, _⟩) h

theorem askTier_reads (deps : PoolDeps R W) {fuel : Nat} (h : s.Unread input.parse)
    {e : Option (AskEnd T)} (hrun : deps.askTier input tier fuel t s = some (e, s')) :
    (e = none → s'.Unread input.parse) ∧ ∀ end', e = some end' → s'.Reads input.parse end' := by
  induction fuel generalizing t s with
  | zero => cases hrun
  | succ fuel ih =>
    have hleaves := pass_leaves deps tier t h
    unfold PoolDeps.askTier at hrun
    rcases hpass : deps.pass input tier t s with ⟨p, s₁⟩
    rw [hpass] at hleaves hrun
    cases p with
    | again t' => exact ih hleaves hrun
    | nextTier =>
      cases hrun
      exact ⟨fun _ => hleaves, fun _ heq => (nomatch heq)⟩
    | ends end' =>
      cases hrun
      refine ⟨fun heq => (nomatch heq), fun _ heq => ?_⟩
      cases heq
      exact hleaves

theorem askTiers_reads (deps : PoolDeps R W) {tiers : List ModelTier} (h : s.Unread input.parse)
    {e : AskEnd T} (hrun : deps.askTiers input tiers s = some (e, s')) :
    s'.Reads input.parse e := by
  induction tiers generalizing s with
  | nil =>
    cases hrun
    exact h.reads fun _ _ heq => (nomatch heq)
  | cons tier tiers ih =>
    unfold PoolDeps.askTiers at hrun
    by_cases hexcluded : tier.label ∈ s.excluded
    · rw [if_pos hexcluded] at hrun
      exact ih h hrun
    · rw [if_neg hexcluded] at hrun
      cases hvisit : deps.askTier input tier (deps.transientRetries + 2) .start s with
      | none =>
        rw [hvisit] at hrun
        cases hrun
      | some visit =>
        obtain ⟨e', s₁⟩ := visit
        rw [hvisit] at hrun
        obtain ⟨hunread, hreads⟩ := askTier_reads deps h hvisit
        cases e' with
        | none => exact ih (hunread rfl) hrun
        | some end' =>
          cases hrun
          exact hreads _ rfl

theorem ask_reads (deps : PoolDeps R W) (input : AskInput R W T) (excluded : List String) (w : W) :
    ∃ e s, deps.ask input excluded w = some (e, s) ∧ s.Reads input.parse e := by
  obtain ⟨e, s, hask, _⟩ := ask_sound deps input excluded w
  exact ⟨e, s, hask, askTiers_reads deps (fun _ ha => absurd ha List.not_mem_nil) hask⟩

end Reads

/-! ## Any number of asks -/

theorem askAll_spec (deps : PoolDeps R W) (inputs : List (AskInput R W T)) (excluded : List String)
    (w : W) :
    ∃ runs, deps.askAll inputs excluded w = some runs ∧
      List.Forall₂ (fun (input : AskInput R W T) (run : AskEnd T × Asking R W) =>
        AskSound deps.transientRetries input.parse run.2) inputs runs ∧
      (∀ run ∈ runs, ∀ a ∈ run.2.attempts, a.tier.label ∉ excluded) ∧
      runs.Pairwise fun earlier later =>
        ∀ a ∈ later.2.attempts, a.tier.label ∉ earlier.2.excluded := by
  induction inputs generalizing excluded w with
  | nil => exact ⟨[], rfl, .nil, fun run hrun => absurd hrun List.not_mem_nil, .nil⟩
  | cons input inputs ih =>
    obtain ⟨e, s, hrun, hsound, hkeeps⟩ := ask_sound deps input excluded w
    obtain ⟨runs, hruns, hall, hfresh, hpairs⟩ := ih s.excluded s.world
    refine ⟨(e, s) :: runs, ?_, .cons hsound hall, ?_, .cons ?_ hpairs⟩
    · unfold PoolDeps.askAll
      rw [hrun]
      dsimp only
      rw [hruns]
      rfl
    · intro run hmem a ha
      rcases List.mem_cons.1 hmem with rfl | hmem
      · exact hkeeps.fresh a ha
      · exact fun hlabel => hfresh run hmem a ha (hkeeps.grows hlabel)
    · exact fun run hmem a ha => hfresh run hmem a ha

/-- Every sequence of asks of a new pool ends.  The accounts and the bounds
of every ask hold, and a tier that an ask has excluded is not called in a
later one. -/
theorem askAll_sound (deps : PoolDeps R W) (inputs : List (AskInput R W T)) (w : W) :
    ∃ runs, deps.askAll inputs [] w = some runs ∧
      List.Forall₂ (fun (input : AskInput R W T) (run : AskEnd T × Asking R W) =>
        AskSound deps.transientRetries input.parse run.2) inputs runs ∧
      runs.Pairwise fun earlier later =>
        ∀ a ∈ later.2.attempts, a.tier.label ∉ earlier.2.excluded := by
  obtain ⟨runs, hruns, hall, _, hpairs⟩ := askAll_spec deps inputs [] w
  exact ⟨runs, hruns, hall, hpairs⟩

end Cine.Grading
