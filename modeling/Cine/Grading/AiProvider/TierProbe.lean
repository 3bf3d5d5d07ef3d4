import Cine.Grading.AiProvider.TierChain

/-!
# The probing mark of a tier

A half-open breaker lets one run through and sets the probing mark, and
while the mark is set every other run passes the tier over.  So the mark
must never stay behind: `probing_settles` says that as long as it is set,
a run is at the tier whose return clears it, and that a run that begins
when nothing is in flight comes to every tier whose cooldown is over.

`visit_cases` says what a run does between two awaits.  Everything about a
move follows from it and from the three ways in which a call comes back.
-/

namespace Cine.Grading

open Cine.Lib

/-! ## One look at a breaker -/

/-- The cooldown of the tier, if there is one, is over at `now`. -/
def TierState.CooledDown (tier : TierState) (now : Nat) : Prop :=
  ∀ openedAt, tier.openedAt = some openedAt → openedAt + breakerCooldownMs ≤ now

/-- The tier as a run leaves it that has gone on to call it. -/
def TierState.entered (tier : TierState) : TierState :=
  { tier with probing := tier.probing || tier.openedAt.isSome }

theorem isBreakerOpen_cases (tier : TierState) (now : Nat) :
    ((isBreakerOpen tier now).1 = true ∧ tier.openedAt.isSome = true ∧
        (tier.CooledDown now → tier.probing = true)) ∨
      ((isBreakerOpen tier now).1 = false ∧ (isBreakerOpen tier now).2 = tier.entered ∧
        tier.CooledDown now ∧ (tier.openedAt.isSome = true → tier.probing = false)) := by
  obtain ⟨openedAt, probing⟩ := tier
  unfold isBreakerOpen TierState.CooledDown TierState.entered
  cases openedAt with
  | none => simp
  | some openedAt =>
    by_cases hcool : now < openedAt + breakerCooldownMs
    · simp only [hcool, if_true]
      refine Or.inl ⟨trivial, rfl, fun hcooled => ?_⟩
      have hover := hcooled openedAt rfl
      omega
    · cases probing with
      | true => simp [hcool]
      | false =>
        simp only [hcool, if_false]
        simp
        omega

theorem not_open_of_cooledDown {tier : TierState} {now : Nat} (hcool : tier.CooledDown now)
    (hprobing : tier.probing = false) : (isBreakerOpen tier now).1 = false := by
  rcases isBreakerOpen_cases tier now with ⟨_, _, himp⟩ | ⟨hopen, _⟩
  · rw [himp hcool] at hprobing
    cases hprobing
  · exact hopen

/-- The run goes through the tiers in order. -/
def Flight.InOrder (f : Flight) : Prop :=
  (f.tier :: f.ahead).Pairwise (· < ·)

namespace TierChain

@[simp] theorem setTier_tiers (c : TierChain) (i : Nat) (t : TierState) :
    (c.setTier i t).tiers = Function.update c.tiers i t := rfl

@[simp] theorem setTier_flights (c : TierChain) (i : Nat) (t : TierState) :
    (c.setTier i t).flights = c.flights := rfl

@[simp] theorem setTier_history (c : TierChain) (i : Nat) (t : TierState) :
    (c.setTier i t).history = c.history := rfl

@[simp] theorem setTier_clock (c : TierChain) (i : Nat) (t : TierState) :
    (c.setTier i t).clock = c.clock := rfl

@[simp] theorem setTier_count (c : TierChain) (i : Nat) (t : TierState) :
    (c.setTier i t).count = c.count := rfl

@[simp] theorem record_tiers (c : TierChain) (e : TierEvent) : (c.record e).tiers = c.tiers := rfl

@[simp] theorem record_flights (c : TierChain) (e : TierEvent) :
    (c.record e).flights = c.flights := rfl

@[simp] theorem record_history (c : TierChain) (e : TierEvent) :
    (c.record e).history = c.history ++ [(c.clock, e)] := rfl

@[simp] theorem record_clock (c : TierChain) (e : TierEvent) : (c.record e).clock = c.clock := rfl

@[simp] theorem record_count (c : TierChain) (e : TierEvent) : (c.record e).count = c.count := rfl

/-! ## From one await to the next -/

/-- The state in which a run that began at `now` has called the tier `i`. -/
def enter (c : TierChain) (now i : Nat) (ahead : List Nat) (lastError : Option ProviderError) :
    TierChain :=
  { (c.setTier i (c.tiers i).entered).record (.called i) with
    flights :=
      { now, tier := i, ahead, retried := false, probe := (c.tiers i).openedAt.isSome,
        lastError } :: c.flights }

theorem visit_cases (c : TierChain) (now : Nat) (lastError : Option ProviderError)
    (ahead : List Nat) :
    ((∀ i ∈ ahead, (isBreakerOpen (c.tiers i) now).1 = true) ∧
        c.visit now lastError ahead = c.record (.exhausted lastError)) ∨
      ∃ passed i rest, ahead = passed ++ i :: rest ∧
        (∀ j ∈ passed, (isBreakerOpen (c.tiers j) now).1 = true) ∧
        (isBreakerOpen (c.tiers i) now).1 = false ∧
        c.visit now lastError ahead = c.enter now i rest lastError := by
  induction ahead with
  | nil => exact Or.inl ⟨by simp, rfl⟩
  | cons i ahead ih =>
    by_cases hi : (isBreakerOpen (c.tiers i) now).1 = true
    · have hvisit : c.visit now lastError (i :: ahead) = c.visit now lastError ahead := by
        simp only [visit, hi, if_true]
      rcases ih with ⟨hall, heq⟩ | ⟨passed, j, rest, rfl, hpassed, hj, heq⟩
      · refine Or.inl ⟨?_, by rw [hvisit, heq]⟩
        simpa [hi] using hall
      · refine Or.inr ⟨i :: passed, j, rest, rfl, ?_, hj, by rw [hvisit, heq]⟩
        simpa [hi] using hpassed
    · have hopen : (isBreakerOpen (c.tiers i) now).1 = false := by simpa using hi
      have htier : (isBreakerOpen (c.tiers i) now).2 = (c.tiers i).entered := by
        rcases isBreakerOpen_cases (c.tiers i) now with ⟨h, _⟩ | ⟨_, h, _⟩
        · exact absurd h hi
        · exact h
      refine Or.inr ⟨[], i, ahead, rfl, by simp, hopen, ?_⟩
      simp only [visit, hopen, htier, enter, Bool.false_eq_true, if_false]

/-- The state before a run goes on after the failure of its visit. -/
def failed (c : TierChain) (f : Flight) (kind : ProviderFailureKind) : TierChain :=
  let released := (c.releaseProbe f).record (.failed f.tier kind f.probe)
  if kind = .tierDead then released.setTier f.tier { openedAt := some f.now, probing := false }
  else released

/-- An outcome that ends the visit: any but a first output of no use. -/
def EndsVisit (f : Flight) : CallOutcome → Prop
  | .success => True
  | .failure error => classifyProviderFailure error = .badOutput → f.retried = true

theorem settle_cases (c : TierChain) (f : Flight) (others : List Flight) (outcome : CallOutcome) :
    (¬ EndsVisit f outcome ∧ c.settle f others outcome =
        { c.record (.called f.tier) with flights := { f with retried := true } :: others }) ∨
      (EndsVisit f outcome ∧ outcome = .success ∧ c.settle f others outcome =
        ({ c with flights := others } : TierChain).onSuccess f) ∨
      ∃ error, EndsVisit f outcome ∧ outcome = .failure error ∧
        let kind := classifyProviderFailure error
        (kind = .transient ∧ c.settle f others outcome =
            ({ c with flights := others } : TierChain).failed f kind ∨
          kind ≠ .transient ∧ c.settle f others outcome =
            (({ c with flights := others } : TierChain).failed f kind).visit f.now (some error)
              f.ahead) := by
  cases outcome with
  | success => exact Or.inr (Or.inl ⟨trivial, rfl, rfl⟩)
  | failure error =>
    by_cases hretry : classifyProviderFailure error = .badOutput ∧ f.retried = false
    · refine Or.inl ⟨?_, by simp only [settle, hretry, and_self, if_true]⟩
      intro hends
      rw [hends hretry.1] at hretry
      cases hretry.2
    · refine Or.inr (Or.inr ⟨error, ?_, rfl, ?_⟩)
      · intro hbad
        by_contra hne
        exact hretry ⟨hbad, by simpa using hne⟩
      · simp only [settle, if_neg hretry, onFailure, failed]
        cases hkind : classifyProviderFailure error with
        | transient => exact Or.inl ⟨rfl, rfl⟩
        | tierDead => exact Or.inr ⟨nofun, rfl⟩
        | badOutput => exact Or.inr ⟨nofun, rfl⟩

theorem failed_tiers (c : TierChain) (f : Flight) (kind : ProviderFailureKind) :
    ((c.failed f kind).tiers f.tier).probing = false ∧
      ∀ i, i ≠ f.tier → (c.failed f kind).tiers i = c.tiers i := by
  unfold failed releaseProbe
  cases hp : (c.tiers f.tier).probing <;> split_ifs <;> simp_all [Function.update_of_ne]

theorem onSuccess_tiers (c : TierChain) (f : Flight) :
    ((c.onSuccess f).tiers f.tier).probing = false ∧
      ∀ i, i ≠ f.tier → (c.onSuccess f).tiers i = c.tiers i := by
  unfold onSuccess
  cases hp : (c.tiers f.tier).probing <;> simp_all [Function.update_of_ne]

@[simp] theorem failed_flights (c : TierChain) (f : Flight) (kind : ProviderFailureKind) :
    (c.failed f kind).flights = c.flights := by
  unfold failed releaseProbe
  split_ifs <;> rfl

@[simp] theorem onSuccess_flights (c : TierChain) (f : Flight) :
    (c.onSuccess f).flights = c.flights := by
  simp only [onSuccess]
  split_ifs <;> rfl

@[simp] theorem failed_clock (c : TierChain) (f : Flight) (kind : ProviderFailureKind) :
    (c.failed f kind).clock = c.clock := by
  unfold failed releaseProbe
  split_ifs <;> rfl

@[simp] theorem onSuccess_clock (c : TierChain) (f : Flight) :
    (c.onSuccess f).clock = c.clock := by
  simp only [onSuccess]
  split_ifs <;> rfl

@[simp] theorem failed_history (c : TierChain) (f : Flight) (kind : ProviderFailureKind) :
    (c.failed f kind).history = c.history ++ [(c.clock, .failed f.tier kind f.probe)] := by
  unfold failed releaseProbe
  split_ifs <;> rfl

@[simp] theorem onSuccess_history (c : TierChain) (f : Flight) :
    (c.onSuccess f).history = c.history ++ [(c.clock, .succeeded f.tier)] := by
  simp only [onSuccess]
  split_ifs <;> rfl

/-! ## What holds between two moves -/

/-- A tier with the probing mark has a run at it, and the runs go through
the tiers in order. -/
structure Marked (c : TierChain) : Prop where
  marks : ∀ i, (c.tiers i).probing = true → ∃ f ∈ c.flights, f.tier = i
  order : ∀ f ∈ c.flights, f.InOrder

theorem marked_new (count clock : Nat) : (TierChain.new count clock).Marked := by
  constructor <;> simp [TierChain.new]

variable {c s : TierChain} {f : Flight} {k i : Nat} {outcome : CallOutcome}

theorem Marked.visit (h : c.Marked) {now : Nat} {lastError : Option ProviderError}
    {ahead : List Nat} (hahead : ahead.Pairwise (· < ·)) :
    (c.visit now lastError ahead).Marked := by
  rcases visit_cases c now lastError ahead with ⟨_, heq⟩ | ⟨passed, i, rest, rfl, _, _, heq⟩
  · rw [heq]
    exact ⟨h.marks, h.order⟩
  · rw [heq]
    have horder : (i :: rest).Pairwise (· < ·) := (List.pairwise_append.1 hahead).2.1
    constructor
    · intro j hj
      by_cases hij : j = i
      · exact ⟨_, List.mem_cons_self, hij.symm⟩
      · have hold : (c.tiers j).probing = true := by
          simpa [enter, Function.update_of_ne hij] using hj
        obtain ⟨f, hf, htier⟩ := h.marks j hold
        exact ⟨f, List.mem_cons_of_mem _ hf, htier⟩
    · intro f hf
      rcases List.mem_cons.1 hf with rfl | hf
      · exact horder
      · exact h.order f hf

theorem Marked.of_ended {c' : TierChain} (h : c.Marked) {others : List Flight}
    (hf : c.flights.Perm (f :: others)) (hflights : c'.flights = others)
    (htier : (c'.tiers f.tier).probing = false) (hrest : ∀ i, i ≠ f.tier → c'.tiers i = c.tiers i) :
    c'.Marked := by
  constructor
  · intro i hi
    by_cases hif : i = f.tier
    · rw [hif, htier] at hi
      cases hi
    · rw [hrest i hif] at hi
      obtain ⟨g, hg, rfl⟩ := h.marks i hi
      rcases List.mem_cons.1 (hf.mem_iff.1 hg) with rfl | hg
      · exact absurd rfl hif
      · exact ⟨g, by rw [hflights]; exact hg, rfl⟩
  · intro g hg
    rw [hflights] at hg
    exact h.order g (hf.mem_iff.2 (List.mem_cons_of_mem _ hg))

theorem Marked.settle (h : c.Marked) {others : List Flight} (hf : c.flights.Perm (f :: others))
    (outcome : CallOutcome) : (c.settle f others outcome).Marked := by
  have hmem : f ∈ c.flights := hf.mem_iff.2 List.mem_cons_self
  have hahead : f.ahead.Pairwise (· < ·) := (List.pairwise_cons.1 (h.order f hmem)).2
  rcases settle_cases c f others outcome with ⟨_, heq⟩ | ⟨_, _, heq⟩ | ⟨error, _, _, hcases⟩
  · rw [heq]
    constructor
    · intro i hi
      obtain ⟨g, hg, rfl⟩ := h.marks i hi
      rcases List.mem_cons.1 (hf.mem_iff.1 hg) with rfl | hg
      · exact ⟨_, List.mem_cons_self, rfl⟩
      · exact ⟨g, List.mem_cons_of_mem _ hg, rfl⟩
    · intro g hg
      rcases List.mem_cons.1 hg with rfl | hg
      · exact h.order f hmem
      · exact h.order g (hf.mem_iff.2 (List.mem_cons_of_mem _ hg))
  · rw [heq]
    obtain ⟨htier, hrest⟩ := onSuccess_tiers { c with flights := others } f
    exact h.of_ended hf (by simp) htier hrest
  · obtain ⟨htier, hrest⟩ :=
      failed_tiers { c with flights := others } f (classifyProviderFailure error)
    have hended := h.of_ended hf (by simp) htier hrest
    rcases hcases with ⟨_, heq⟩ | ⟨_, heq⟩
    · rw [heq]
      exact hended
    · rw [heq]
      exact hended.visit hahead

theorem flight_perm (h : c.flights[k]? = some f) : c.flights.Perm (f :: c.flights.eraseIdx k) := by
  obtain ⟨hk, rfl⟩ := List.getElem?_eq_some_iff.1 h
  exact (List.getElem_cons_eraseIdx_perm hk).symm

theorem move_of_none (h : c.flights[k]? = none) : c.move (.settle k outcome) = c := by
  simp only [TierChain.move, h]

theorem move_of_some (h : c.flights[k]? = some f) :
    c.move (.settle k outcome) = c.settle f (c.flights.eraseIdx k) outcome := by
  simp only [TierChain.move, h]

theorem Marked.move (h : c.Marked) (m : TierMove) : (c.move m).Marked := by
  cases m with
  | tick ms => exact ⟨h.marks, h.order⟩
  | begin => exact h.visit List.pairwise_lt_range
  | settle k outcome =>
    cases hk : c.flights[k]? with
    | none =>
      rw [move_of_none hk]
      exact h
    | some f =>
      rw [move_of_some hk]
      exact h.settle (flight_perm hk) outcome

theorem Reachable.marked (h : c.Reachable) : c.Marked := by
  obtain ⟨count, clock, hrun⟩ := h
  exact hrun.invariant (marked_new count clock) fun _ m hc _ => hc.move m

theorem Marked.cleared (h : c.Marked) (hk : c.flights[k]? = some f) (hends : EndsVisit f outcome) :
    ((c.move (.settle k outcome)).tiers f.tier).probing = false := by
  have hmem : f ∈ c.flights := List.mem_of_getElem? hk
  have horder := List.pairwise_cons.1 (h.order f hmem)
  rw [move_of_some hk]
  rcases settle_cases c f (c.flights.eraseIdx k) outcome with
    ⟨hnot, _⟩ | ⟨_, _, heq⟩ | ⟨error, _, _, hcases⟩
  · exact absurd hends hnot
  · rw [heq]
    exact (onSuccess_tiers _ f).1
  · have hcleared := (failed_tiers { c with flights := c.flights.eraseIdx k } f
      (classifyProviderFailure error)).1
    rcases hcases with ⟨_, heq⟩ | ⟨_, heq⟩
    · rw [heq]
      exact hcleared
    · rw [heq]
      -- the loop goes on with later tiers only
      rcases visit_cases _ f.now (some error) f.ahead with ⟨_, hv⟩ | ⟨passed, i, rest, ha, _, _, hv⟩
      · rw [hv]
        exact hcleared
      · have hne : f.tier ≠ i := by
          have := horder.1 i (by rw [ha]; simp)
          omega
        rw [hv]
        simp only [enter, record_tiers, setTier_tiers, Function.update_of_ne hne]
        exact hcleared

/-! ## A run on its own -/

/-- The run that `TierChain.begin` starts in `c`, as long as no other run
begins, has called the tier `i`, or is over because of an earlier tier,
or is on its way to it. -/
def OnTheWay (c : TierChain) (i : Nat) (s : TierChain) : Prop :=
  ∃ new, s.history = c.history ++ new ∧
    ((∃ t, (t, TierEvent.called i) ∈ new) ∨
      (∃ t, ∃ j < i, (t, TierEvent.succeeded j) ∈ new ∨
        ∃ probe, (t, TierEvent.failed j .transient probe) ∈ new) ∨
      (s.tiers i = c.tiers i ∧
        ∃ f, s.flights = [f] ∧ f.now = c.clock ∧ i ∈ f.ahead ∧ f.InOrder))

theorem OnTheWay.of_called {new : List (Nat × TierEvent)} (hs : s.history = c.history ++ new)
    {t : Nat} (h : (t, TierEvent.called i) ∈ new) : c.OnTheWay i s :=
  ⟨new, hs, Or.inl ⟨t, h⟩⟩

theorem OnTheWay.visit {new : List (Nat × TierEvent)} (hs : s.history = c.history ++ new)
    (htier : s.tiers i = c.tiers i) (hflights : s.flights = []) {ahead : List Nat}
    (hmem : i ∈ ahead) (hahead : ahead.Pairwise (· < ·))
    (hclosed : (isBreakerOpen (c.tiers i) c.clock).1 = false) (lastError : Option ProviderError) :
    c.OnTheWay i (s.visit c.clock lastError ahead) := by
  rcases visit_cases s c.clock lastError ahead with
    ⟨hall, _⟩ | ⟨passed, j, rest, rfl, hpassed, _, heq⟩
  · have := hall i hmem
    rw [htier, hclosed] at this
    cases this
  · rw [heq]
    have hnotPassed : i ∉ passed := by
      intro hi
      have := hpassed i hi
      rw [htier, hclosed] at this
      cases this
    refine ⟨new ++ [(s.clock, .called j)], ?_, ?_⟩
    · rw [← List.append_assoc, ← hs]
      rfl
    · by_cases hij : i = j
      · subst hij
        exact Or.inl ⟨s.clock, by simp⟩
      · have hrest : i ∈ rest := by
          rcases List.mem_append.1 hmem with h | h
          · exact absurd h hnotPassed
          · exact (List.mem_cons.1 h).resolve_left hij
        have hflight : (s.enter c.clock j rest lastError).flights =
            [⟨c.clock, j, rest, false, (s.tiers j).openedAt.isSome, lastError⟩] := by
          simp only [enter, hflights]
        refine Or.inr (Or.inr ⟨?_, _, hflight, rfl, hrest, ?_⟩)
        · simp only [enter, record_tiers, setTier_tiers, Function.update_of_ne hij]
          exact htier
        · exact (List.pairwise_append.1 hahead).2.1

theorem move_history (c : TierChain) (m : TierMove) :
    ∃ new, (c.move m).history = c.history ++ new := by
  have hvisit : ∀ (s : TierChain) now e ahead, ∃ new, (s.visit now e ahead).history =
      s.history ++ new := by
    intro s now e ahead
    rcases visit_cases s now e ahead with ⟨_, heq⟩ | ⟨_, i, _, _, _, _, heq⟩
    · exact ⟨_, by rw [heq]; rfl⟩
    · exact ⟨_, by rw [heq]; rfl⟩
  cases m with
  | tick ms => exact ⟨[], by simp [TierChain.move]⟩
  | begin => exact hvisit _ _ _ _
  | settle k outcome =>
    cases hk : c.flights[k]? with
    | none => exact ⟨[], by rw [move_of_none hk, List.append_nil]⟩
    | some f =>
      rw [move_of_some hk]
      rcases settle_cases c f (c.flights.eraseIdx k) outcome with
        ⟨_, heq⟩ | ⟨_, _, heq⟩ | ⟨error, _, _, ⟨_, heq⟩ | ⟨_, heq⟩⟩
      · exact ⟨_, by rw [heq]; rfl⟩
      · exact ⟨_, by rw [heq, onSuccess_history]⟩
      · exact ⟨_, by rw [heq, failed_history]⟩
      · rw [heq]
        obtain ⟨new, hnew⟩ := hvisit _ f.now (some error) f.ahead
        rw [failed_history] at hnew
        exact ⟨_, by rw [hnew, List.append_assoc]⟩

/-- No other run begins. -/
def Alone (_ : TierChain) : TierMove → Prop
  | .begin => False
  | _ => True

theorem OnTheWay.move (h : c.OnTheWay i s) (hclosed : (isBreakerOpen (c.tiers i) c.clock).1 = false)
    {m : TierMove} (hm : Alone s m) : c.OnTheWay i (s.move m) := by
  obtain ⟨new, hs, hcases⟩ := h
  obtain ⟨more, hmore⟩ := move_history s m
  have hgrown : (s.move m).history = c.history ++ (new ++ more) := by
    rw [hmore, hs, List.append_assoc]
  rcases hcases with ⟨t, ht⟩ | ⟨t, j, hj, hended⟩ | ⟨htier, f, hflights, hnow, hmem, horder⟩
  · exact .of_called hgrown (List.mem_append_left _ ht)
  · refine ⟨_, hgrown, Or.inr (Or.inl ⟨t, j, hj, ?_⟩)⟩
    exact hended.imp (List.mem_append_left _) fun ⟨p, hp⟩ => ⟨p, List.mem_append_left _ hp⟩
  · have hlt : f.tier < i := (List.pairwise_cons.1 horder).1 i hmem
    have hne : i ≠ f.tier := by omega
    cases m with
    | begin => exact absurd hm not_false
    | tick ms => exact ⟨new, hs, Or.inr (Or.inr ⟨htier, f, hflights, hnow, hmem, horder⟩)⟩
    | settle k outcome =>
      cases k with
      | succ k =>
        rw [move_of_none (by rw [hflights]; rfl)]
        exact ⟨new, hs, Or.inr (Or.inr ⟨htier, f, hflights, hnow, hmem, horder⟩)⟩
      | zero =>
        rw [move_of_some (by rw [hflights]; rfl), show s.flights.eraseIdx 0 = [] by rw [hflights]; rfl]
        rcases settle_cases s f [] outcome with
          ⟨_, heq⟩ | ⟨_, _, heq⟩ | ⟨error, _, _, ⟨hkind, heq⟩ | ⟨_, heq⟩⟩
        · rw [heq]
          refine ⟨new ++ [(s.clock, .called f.tier)], ?_,
            Or.inr (Or.inr ⟨htier, _, rfl, hnow, hmem, horder⟩)⟩
          rw [← List.append_assoc, ← hs]
          rfl
        · rw [heq]
          refine ⟨new ++ [(s.clock, .succeeded f.tier)], ?_,
            Or.inr (Or.inl ⟨s.clock, f.tier, hlt, Or.inl (by simp)⟩)⟩
          rw [onSuccess_history, hs, List.append_assoc]
        · rw [heq]
          refine ⟨new ++ [(s.clock, .failed f.tier .transient f.probe)], ?_,
            Or.inr (Or.inl ⟨s.clock, f.tier, hlt, Or.inr ⟨f.probe, by simp⟩⟩)⟩
          rw [failed_history, hkind, hs, List.append_assoc]
        · rw [heq, hnow]
          have hs' : (({ s with flights := [] } : TierChain).failed f
              (classifyProviderFailure error)).history = c.history ++
                (new ++ [(s.clock, .failed f.tier (classifyProviderFailure error) f.probe)]) := by
            rw [failed_history, ← List.append_assoc, ← hs]
          refine OnTheWay.visit hs' ?_ (failed_flights _ _ _) hmem (List.pairwise_cons.1 horder).2
            hclosed _
          rw [(failed_tiers _ f _).2 i hne]
          exact htier

/-- The probing mark of a tier is set only while a run is at the tier; every
return that ends a visit of the tier clears it; and a run that begins when
no call is in flight and the cooldown of a tier is over calls that tier,
unless a result or a transient error of an earlier tier ends the run. -/
theorem probing_settles {c : TierChain} (h : c.Reachable) :
    (∀ i, (c.tiers i).probing = true → ∃ f ∈ c.flights, f.tier = i) ∧
      (∀ k f outcome, c.flights[k]? = some f → EndsVisit f outcome →
        ((c.move (.settle k outcome)).tiers f.tier).probing = false) ∧
      (c.flights = [] → ∀ i < c.count, (c.tiers i).CooledDown c.clock →
        ∀ s, Reach TierChain.move Alone (c.move .begin) s → s.flights = [] →
          ∃ new, s.history = c.history ++ new ∧
            ((∃ t, (t, TierEvent.called i) ∈ new) ∨
              ∃ t, ∃ j < i, (t, TierEvent.succeeded j) ∈ new ∨
                ∃ probe, (t, TierEvent.failed j .transient probe) ∈ new)) := by
  have hmarked := h.marked
  refine ⟨hmarked.marks, fun k f outcome hk hends => hmarked.cleared hk hends, ?_⟩
  intro hidle i hi hcool s hrun hdone
  have hclosed : (isBreakerOpen (c.tiers i) c.clock).1 = false := by
    refine not_open_of_cooledDown hcool ?_
    by_contra hmark
    obtain ⟨f, hf, _⟩ := hmarked.marks i (by simpa using hmark)
    rw [hidle] at hf
    cases hf
  have hstart : c.OnTheWay i (c.move .begin) :=
    OnTheWay.visit (List.append_nil _).symm rfl hidle (List.mem_range.2 hi)
      List.pairwise_lt_range hclosed none
  obtain ⟨new, hs, hcases⟩ :=
    hrun.invariant hstart fun t m ht hm => ht.move hclosed hm
  refine ⟨new, hs, ?_⟩
  rcases hcases with hcalled | hended | ⟨_, f, hf, _⟩
  · exact Or.inl hcalled
  · exact Or.inr hended
  · rw [hdone] at hf
    cases hf

/-! ## A tier that died -/

/-- An account without money. -/
def accessDenied : ProviderError :=
  .mk false (some "access_denied") (some 403) none none

/-- The first of two tiers died, and the cooldown is over. -/
def afterCooldown : TierChain :=
  [.begin, .settle 0 (.failure accessDenied), .settle 0 .success, .tick 60000].foldl
    TierChain.move (TierChain.new 2 0)

theorem afterCooldown_reachable : afterCooldown.Reachable :=
  ⟨2, 0, reach_foldl ⟨trivial, trivial, trivial, trivial, trivial⟩⟩

/-- The next run, which gets a result. -/
def nextRun : TierChain :=
  [.settle 0 .success].foldl TierChain.move (afterCooldown.move .begin)

/-- The next run calls the tier that died. -/
theorem nextRun_calls_deadTier :
    ∃ new, nextRun.history = afterCooldown.history ++ new ∧
      ∃ t, (t, TierEvent.called 0) ∈ new := by
  have hcool : (afterCooldown.tiers 0).CooledDown afterCooldown.clock := by
    intro openedAt h
    cases h
    decide
  have hrun : Reach TierChain.move Alone (afterCooldown.move .begin) nextRun :=
    reach_foldl ⟨trivial, trivial⟩
  obtain ⟨new, hnew, hcases⟩ :=
    (probing_settles afterCooldown_reachable).2.2 rfl 0 (by decide) hcool nextRun hrun rfl
  refine ⟨new, hnew, hcases.resolve_right ?_⟩
  rintro ⟨_, j, hj, _⟩
  omega

end TierChain

end Cine.Grading
