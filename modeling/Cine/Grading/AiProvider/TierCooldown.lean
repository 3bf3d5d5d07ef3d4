import Cine.Grading.AiProvider.TierProbe

/-!
# The cooldown of a tier

A tier trips when a call ends with a dead tier or a probe of it fails.
`CoolsDown` says of a history that no call to a tier starts within the
cooldown of a trip unless the tier has succeeded since, and `OneProbe`
that a tier is probed by one run at a time.

The breaker keeps both only in part.  It counts the cooldown from the
moment the failing run began, not from the moment it failed; it does not
look at a breaker again before a second call; and the mark of a probe is
cleared by whichever run comes back first.  `Careful` excludes the three
moves, in terms of the state before them, and `coolsDown_of_careful` says
that every run without them keeps both.
-/

namespace Cine.Grading

open Cine.Lib

/-! ## Trips -/

/-- The tier is seen to be dead, or a probe of it to have failed. -/
def TierEvent.IsTrip (i : Nat) : TierEvent → Prop
  | .failed tier kind probe => tier = i ∧ (kind = .tierDead ∨ probe = true)
  | _ => False

instance (i : Nat) (e : TierEvent) : Decidable (e.IsTrip i) := by
  unfold TierEvent.IsTrip
  split <;> infer_instance

def TierEvent.IsSuccess (i : Nat) : TierEvent → Bool
  | .succeeded tier => tier = i
  | _ => false

/-- The time of the last trip, where the tier has not succeeded since. -/
def coolingStep (i : Nat) (last : Option Nat) (e : Nat × TierEvent) : Option Nat :=
  if e.2.IsTrip i then some e.1
  else if e.2.IsSuccess i then none
  else last

def cooling (history : List (Nat × TierEvent)) (i : Nat) : Option Nat :=
  history.foldl (coolingStep i) none

/-- A call of the tier `i` at the time `s` is late enough for every trip of
the past that no success has followed. -/
def LateEnough (past : List (Nat × TierEvent)) (i s : Nat) : Prop :=
  ∀ before t e between, past = before ++ (t, e) :: between → e.IsTrip i →
    t + breakerCooldownMs ≤ s ∨ ∃ u, (u, TierEvent.succeeded i) ∈ between

/-- Every call of a tier is late enough. -/
def CoolsDown (history : List (Nat × TierEvent)) : Prop :=
  ∀ past s i, past ++ [(s, TierEvent.called i)] <+: history → LateEnough past i s

/-- At most one run in flight probes the tier. -/
def TierChain.OneProbe (c : TierChain) : Prop :=
  ∀ i, c.flights.countP (fun f => f.tier = i ∧ f.probe = true) ≤ 1

@[simp] theorem cooling_concat (history : List (Nat × TierEvent)) (e : Nat × TierEvent) (i : Nat) :
    cooling (history ++ [e]) i = coolingStep i (cooling history i) e := by
  simp [cooling]

private theorem foldl_coolingStep {i t : Nat} {between : List (Nat × TierEvent)}
    (hlate : ∀ e ∈ between, t ≤ e.1) (hno : ∀ u, (u, TierEvent.succeeded i) ∉ between) :
    ∀ {t₁}, t ≤ t₁ → ∃ t', between.foldl (coolingStep i) (some t₁) = some t' ∧ t ≤ t' := by
  induction between with
  | nil => exact fun {t₁} h => ⟨t₁, rfl, h⟩
  | cons e between ih =>
    intro t₁ ht₁
    have ih' := @ih (fun e he => hlate e (List.mem_cons_of_mem _ he))
      fun u hu => hno u (List.mem_cons_of_mem _ hu)
    obtain ⟨u, e⟩ := e
    have hsuccess : e.IsSuccess i = false := by
      cases e with
      | succeeded tier =>
        by_cases htier : tier = i
        · subst htier
          exact absurd List.mem_cons_self (hno u)
        · simp [TierEvent.IsSuccess, htier]
      | _ => rfl
    simp only [List.foldl_cons, coolingStep, hsuccess, Bool.false_eq_true, if_false]
    split_ifs
    · exact ih' (hlate _ List.mem_cons_self)
    · exact ih' ht₁

theorem lateEnough_of_cooling {past : List (Nat × TierEvent)} {i s : Nat}
    (hsorted : past.Pairwise (fun e e' => e.1 ≤ e'.1))
    (h : ∀ t, cooling past i = some t → t + breakerCooldownMs ≤ s) : LateEnough past i s := by
  rintro before t e between rfl htrip
  by_cases hno : ∃ u, (u, TierEvent.succeeded i) ∈ between
  · exact Or.inr hno
  · have hlate : ∀ e' ∈ between, t ≤ e'.1 :=
      (List.pairwise_cons.1 (List.pairwise_append.1 hsorted).2.1).1
    obtain ⟨t', ht', hle⟩ := foldl_coolingStep hlate (not_exists.1 hno) (Nat.le_refl t)
    have := h t' (by
      rw [cooling, List.foldl_append, List.foldl_cons, coolingStep, if_pos htrip]
      exact ht')
    exact Or.inl (by omega)

theorem CoolsDown.concat {history : List (Nat × TierEvent)} (h : CoolsDown history) {s : Nat}
    {e : TierEvent} (hcall : ∀ i, e = .called i → LateEnough history i s) :
    CoolsDown (history ++ [(s, e)]) := by
  intro past s' i hprefix
  rcases List.prefix_concat_iff.1 hprefix with heq | hold
  · obtain ⟨rfl, hlast⟩ := List.append_inj' heq rfl
    obtain ⟨rfl, rfl⟩ : s' = s ∧ TierEvent.called i = e := by simpa using hlast
    exact hcall i rfl
  · exact h past s' i hold

/-! ## The moves that do harm -/

namespace TierChain

/-- A run that began at `now` does not find the cooldown of the tier over
by the clock of the run that tripped it, but not by the clock on which the
trip was seen. -/
def OnTime (c : TierChain) (now i : Nat) : Prop :=
  ∀ t ∈ cooling c.history i, ∀ openedAt ∈ (c.tiers i).openedAt,
    openedAt + breakerCooldownMs ≤ now → t + breakerCooldownMs ≤ now

/-- `OnTime` for the tiers that the run looks at. -/
def LooksOnTime (c : TierChain) (now : Nat) : List Nat → Prop
  | [] => True
  | i :: ahead =>
    c.OnTime now i ∧ ((isBreakerOpen (c.tiers i) now).1 = true → c.LooksOnTime now ahead)

/-- The flight comes back in a way that does no harm: a second call is not
made within the cooldown, a visit that ends is the probe wherever there is
one, and the rest of the loop looks at the breakers on time. -/
def CarefulReturn (c : TierChain) (f : Flight) (outcome : CallOutcome) : Prop :=
  match outcome with
  | .success => (c.tiers f.tier).probing = true → f.probe = true
  | .failure error =>
    let kind := classifyProviderFailure error
    if kind = .badOutput ∧ f.retried = false then
      ∀ t ∈ cooling c.history f.tier, t + breakerCooldownMs ≤ c.clock
    else
      ((c.tiers f.tier).probing = true → f.probe = true) ∧
        (kind ≠ .transient → c.LooksOnTime f.now f.ahead)

def Careful (c : TierChain) : TierMove → Prop
  | .tick _ => True
  | .begin => c.LooksOnTime c.clock (List.range c.count)
  | .settle k outcome => ∀ f ∈ c.flights[k]?, c.CarefulReturn f outcome

/-! ## What a careful run keeps -/

/-- The number of runs in flight that probe the tier. -/
def probes (flights : List Flight) (i : Nat) : Nat :=
  flights.countP fun f => f.tier = i ∧ f.probe = true

/-- The history and the breakers of a careful run. -/
structure Calm (c : TierChain) : Prop where
  sorted : c.history.Pairwise fun e e' => e.1 ≤ e'.1
  past : ∀ e ∈ c.history, e.1 ≤ c.clock
  began : ∀ f ∈ c.flights, f.now ≤ c.clock
  coolsDown : CoolsDown c.history
  opened : ∀ i, (cooling c.history i).isSome = true → (c.tiers i).openedAt.isSome = true
  probes : ∀ i, TierChain.probes c.flights i = if (c.tiers i).probing then 1 else 0

theorem calm_new (count clock : Nat) : (TierChain.new count clock).Calm := by
  constructor <;> simp [TierChain.new, CoolsDown, cooling, TierChain.probes]

variable {c : TierChain} {now : Nat} {f : Flight} {others : List Flight}

theorem Calm.record_sorted (h : c.Calm) (e : TierEvent) :
    ((c.record e).history.Pairwise fun e e' => e.1 ≤ e'.1) ∧
      ∀ e' ∈ (c.record e).history, e'.1 ≤ c.clock := by
  rw [record_history]
  constructor
  · rw [List.pairwise_append]
    refine ⟨h.sorted, List.pairwise_singleton _ _, fun e' he' e'' he'' => ?_⟩
    rw [List.mem_singleton.1 he'']
    exact h.past e' he'
  · intro e' he'
    rcases List.mem_append.1 he' with h' | h'
    · exact h.past e' h'
    · rw [List.mem_singleton.1 h']

theorem OneProbe.of_calm (h : c.Calm) : c.OneProbe := by
  intro i
  have := h.probes i
  unfold TierChain.probes at this
  rw [this]
  split_ifs <;> omega

@[simp] theorem coolingStep_called (i j t : Nat) (last : Option Nat) :
    coolingStep i last (t, .called j) = last := by
  simp [coolingStep, TierEvent.IsTrip, TierEvent.IsSuccess]

@[simp] theorem coolingStep_exhausted (i t : Nat) (last : Option Nat)
    (error : Option ProviderError) : coolingStep i last (t, .exhausted error) = last := by
  simp [coolingStep, TierEvent.IsTrip, TierEvent.IsSuccess]

theorem LooksOnTime.at {i : Nat} {passed rest : List Nat}
    (h : c.LooksOnTime now (passed ++ i :: rest))
    (hpassed : ∀ j ∈ passed, (isBreakerOpen (c.tiers j) now).1 = true) : c.OnTime now i := by
  induction passed with
  | nil => exact h.1
  | cons j passed ih =>
    exact ih (h.2 (hpassed j List.mem_cons_self)) fun k hk => hpassed k (List.mem_cons_of_mem _ hk)

theorem Calm.enter (h : c.Calm) {i : Nat} (hnow : now ≤ c.clock)
    (hclosed : (isBreakerOpen (c.tiers i) now).1 = false) (honTime : c.OnTime now i)
    (ahead : List Nat) (lastError : Option ProviderError) :
    (c.enter now i ahead lastError).Calm := by
  obtain ⟨_, _, hcool, hfree⟩ := (isBreakerOpen_cases (c.tiers i) now).resolve_left
    fun h' => by rw [hclosed] at h'; cases h'.1
  -- the trip that counts is over by the clock on which it was seen
  have hlate : LateEnough c.history i c.clock := by
    refine lateEnough_of_cooling h.sorted fun t ht => ?_
    have hsome := h.opened i (by rw [ht]; rfl)
    obtain ⟨openedAt, hopened⟩ := Option.isSome_iff_exists.1 hsome
    have := honTime t ht openedAt hopened (hcool openedAt hopened)
    omega
  obtain ⟨hsorted, hpast⟩ := h.record_sorted (.called i)
  refine ⟨hsorted, hpast, ?_, h.coolsDown.concat ?_, ?_, ?_⟩
  · intro f hf
    rcases List.mem_cons.1 hf with rfl | hf
    · exact hnow
    · exact h.began f hf
  · rintro j hj
    obtain rfl : i = j := by simpa using hj
    exact hlate
  · intro j hj
    simp only [TierChain.enter, record_history, setTier_history, setTier_clock, cooling_concat,
      coolingStep_called] at hj
    have hold := h.opened j hj
    by_cases hij : j = i
    · subst hij
      simpa [TierChain.enter, TierState.entered] using hold
    · simpa [TierChain.enter, Function.update_of_ne hij] using hold
  · intro j
    have hold := h.probes j
    unfold TierChain.probes at hold ⊢
    by_cases hij : j = i
    · subst hij
      simp only [TierChain.enter, List.countP_cons, record_tiers, setTier_tiers,
        Function.update_self, TierState.entered, hold]
      cases hsome : (c.tiers j).openedAt.isSome with
      | true => simp [hfree hsome]
      | false => simp
    · simp only [TierChain.enter, List.countP_cons, record_tiers, setTier_tiers,
        Function.update_of_ne hij, hold]
      simp [Ne.symm hij]

theorem Calm.visit (h : c.Calm) (hnow : now ≤ c.clock) {lastError : Option ProviderError}
    {ahead : List Nat} (hlooks : c.LooksOnTime now ahead) : (c.visit now lastError ahead).Calm := by
  rcases visit_cases c now lastError ahead with ⟨_, heq⟩ | ⟨passed, i, rest, rfl, hpassed, hi, heq⟩
  · rw [heq]
    obtain ⟨hsorted, hpast⟩ := h.record_sorted (.exhausted lastError)
    refine ⟨hsorted, hpast, h.began, h.coolsDown.concat nofun, fun i hi => ?_, h.probes⟩
    rw [record_history, cooling_concat, coolingStep_exhausted] at hi
    exact h.opened i hi
  · rw [heq]
    exact h.enter hnow hi (hlooks.at hpassed) rest lastError

theorem probes_cons (f : Flight) (others : List Flight) (i : Nat) :
    TierChain.probes (f :: others) i =
      TierChain.probes others i + if f.tier = i ∧ f.probe = true then 1 else 0 := by
  unfold TierChain.probes
  rw [List.countP_cons]
  simp

theorem probes_perm (hf : c.flights.Perm (f :: others)) (i : Nat) :
    TierChain.probes c.flights i =
      TierChain.probes others i + if f.tier = i ∧ f.probe = true then 1 else 0 := by
  rw [← probes_cons]
  exact hf.countP_eq _

theorem Calm.probes_ended {c' : TierChain} (h : c.Calm) (hf : c.flights.Perm (f :: others))
    (hprobe : (c.tiers f.tier).probing = true → f.probe = true) (hflights : c'.flights = others)
    (htier : (c'.tiers f.tier).probing = false) (hrest : ∀ i, i ≠ f.tier → c'.tiers i = c.tiers i)
    (i : Nat) : TierChain.probes c'.flights i = if (c'.tiers i).probing then 1 else 0 := by
  have hold := h.probes i
  rw [probes_perm hf] at hold
  rw [hflights]
  by_cases hi : i = f.tier
  · subst hi
    rw [htier]
    cases hp : (c.tiers f.tier).probing with
    | true => simpa [hp, hprobe hp] using hold
    | false =>
      simp [hp] at hold
      simp [hold.1]
  · rw [hrest i hi]
    simpa [Ne.symm hi] using hold

theorem Calm.probe_of_free (h : c.Calm) (hf : c.flights.Perm (f :: others))
    (hfree : (c.tiers f.tier).probing = false) : f.probe = false := by
  have hold := h.probes f.tier
  rw [probes_perm hf, hfree] at hold
  by_contra hprobe
  simp [hprobe] at hold

theorem failed_openedAt (c : TierChain) (f : Flight) (kind : ProviderFailureKind) :
    ((c.failed f kind).tiers f.tier).openedAt =
      if kind = .tierDead ∨ (c.tiers f.tier).probing = true then some f.now
      else (c.tiers f.tier).openedAt := by
  unfold TierChain.failed releaseProbe
  split_ifs <;> simp_all

theorem Calm.onSuccess (h : c.Calm) (hf : c.flights.Perm (f :: others))
    (hprobe : (c.tiers f.tier).probing = true → f.probe = true) :
    (({ c with flights := others } : TierChain).onSuccess f).Calm := by
  obtain ⟨hsorted, hpast⟩ := h.record_sorted (.succeeded f.tier)
  obtain ⟨htier, hrest⟩ := onSuccess_tiers { c with flights := others } f
  refine ⟨?_, ?_, ?_, ?_, ?_, h.probes_ended hf hprobe (onSuccess_flights _ _) htier hrest⟩
  · rw [onSuccess_history]
    exact hsorted
  · rw [onSuccess_history, onSuccess_clock]
    exact hpast
  · intro g hg
    rw [onSuccess_flights] at hg
    rw [onSuccess_clock]
    exact h.began g (hf.mem_iff.2 (List.mem_cons_of_mem _ hg))
  · rw [onSuccess_history]
    exact h.coolsDown.concat nofun
  · intro i hi
    rw [onSuccess_history, cooling_concat] at hi
    by_cases hif : i = f.tier
    · subst hif
      simp [coolingStep, TierEvent.IsTrip, TierEvent.IsSuccess] at hi
    · rw [hrest i hif]
      refine h.opened i ?_
      simpa [coolingStep, TierEvent.IsTrip, TierEvent.IsSuccess, Ne.symm hif] using hi

theorem Calm.failed (h : c.Calm) (hf : c.flights.Perm (f :: others))
    (hprobe : (c.tiers f.tier).probing = true → f.probe = true) (kind : ProviderFailureKind) :
    (({ c with flights := others } : TierChain).failed f kind).Calm := by
  obtain ⟨hsorted, hpast⟩ := h.record_sorted (.failed f.tier kind f.probe)
  obtain ⟨htier, hrest⟩ := failed_tiers { c with flights := others } f kind
  refine ⟨?_, ?_, ?_, ?_, ?_, h.probes_ended hf hprobe (failed_flights _ _ _) htier hrest⟩
  · rw [failed_history]
    exact hsorted
  · rw [failed_history, failed_clock]
    exact hpast
  · intro g hg
    rw [failed_flights] at hg
    rw [failed_clock]
    exact h.began g (hf.mem_iff.2 (List.mem_cons_of_mem _ hg))
  · rw [failed_history]
    exact h.coolsDown.concat nofun
  · intro i hi
    rw [failed_history, cooling_concat] at hi
    by_cases hif : i = f.tier
    · subst hif
      rw [failed_openedAt]
      split_ifs with htrip
      · rfl
      · obtain ⟨hkind, hfree⟩ := not_or.1 htrip
        have hnot : f.probe = false := h.probe_of_free hf (by simpa using hfree)
        refine h.opened f.tier ?_
        simpa [coolingStep, TierEvent.IsTrip, TierEvent.IsSuccess, hkind, hnot] using hi
    · rw [hrest i hif]
      refine h.opened i ?_
      simpa [coolingStep, TierEvent.IsTrip, TierEvent.IsSuccess, Ne.symm hif] using hi

theorem LooksOnTime.failed {kind : ProviderFailureKind} {ahead : List Nat}
    (hahead : ∀ i ∈ ahead, i ≠ f.tier) (h : c.LooksOnTime now ahead) :
    (({ c with flights := others } : TierChain).failed f kind).LooksOnTime now ahead := by
  induction ahead with
  | nil => trivial
  | cons i ahead ih =>
    have hi : i ≠ f.tier := hahead i List.mem_cons_self
    have htier := (failed_tiers { c with flights := others } f kind).2 i hi
    constructor
    · intro t ht
      rw [failed_history, cooling_concat] at ht
      rw [htier]
      refine h.1 t ?_
      simpa [coolingStep, TierEvent.IsTrip, TierEvent.IsSuccess, Ne.symm hi] using ht
    · intro hopen
      rw [htier] at hopen
      exact ih (fun j hj => hahead j (List.mem_cons_of_mem _ hj)) (h.2 hopen)

theorem Calm.settle (h : c.Calm) (hmarked : c.Marked) (hf : c.flights.Perm (f :: others))
    {outcome : CallOutcome} (hcareful : c.CarefulReturn f outcome) :
    (c.settle f others outcome).Calm := by
  have hmem : f ∈ c.flights := hf.mem_iff.2 List.mem_cons_self
  rcases settle_cases c f others outcome with
    ⟨hretry, heq⟩ | ⟨_, rfl, heq⟩ | ⟨error, hends, rfl, hcases⟩
  · rw [heq]
    obtain ⟨hsorted, hpast⟩ := h.record_sorted (.called f.tier)
    have hlate : LateEnough c.history f.tier c.clock := by
      cases outcome with
      | success => exact absurd trivial hretry
      | failure error =>
        have hagain : classifyProviderFailure error = .badOutput ∧ f.retried = false := by
          simpa [EndsVisit] using hretry
        simp only [CarefulReturn, hagain, and_self, if_true] at hcareful
        exact lateEnough_of_cooling h.sorted hcareful
    refine ⟨hsorted, hpast, ?_, h.coolsDown.concat ?_, ?_, ?_⟩
    · intro g hg
      rcases List.mem_cons.1 hg with rfl | hg
      · exact h.began f hmem
      · exact h.began g (hf.mem_iff.2 (List.mem_cons_of_mem _ hg))
    · rintro i hi
      obtain rfl : f.tier = i := by simpa using hi
      exact hlate
    · intro i hi
      rw [record_history, cooling_concat, coolingStep_called] at hi
      exact h.opened i hi
    · intro i
      have hold := h.probes i
      rw [probes_perm hf] at hold
      rw [probes_cons]
      exact hold
  · rw [heq]
    exact h.onSuccess hf hcareful
  · have hends' : ¬ (classifyProviderFailure error = .badOutput ∧ f.retried = false) := by
      rintro ⟨hbad, hfirst⟩
      rw [hends hbad] at hfirst
      cases hfirst
    simp only [CarefulReturn, if_neg hends'] at hcareful
    have hfailed := h.failed hf hcareful.1 (classifyProviderFailure error)
    rcases hcases with ⟨_, heq⟩ | ⟨hkind, heq⟩
    · rw [heq]
      exact hfailed
    · rw [heq]
      refine hfailed.visit (by rw [failed_clock]; exact h.began f hmem) ?_
      refine LooksOnTime.failed (fun i hi => ?_) (hcareful.2 hkind)
      have := (List.pairwise_cons.1 (hmarked.order f hmem)).1 i hi
      omega

theorem Calm.move (h : c.Calm) (hmarked : c.Marked) {m : TierMove} (hm : c.Careful m) :
    (c.move m).Calm := by
  cases m with
  | tick ms =>
    refine ⟨h.sorted, fun e he => ?_, fun f hf => ?_, h.coolsDown, h.opened, h.probes⟩
    · exact Nat.le_add_right_of_le (h.past e he)
    · exact Nat.le_add_right_of_le (h.began f hf)
  | begin => exact h.visit (Nat.le_refl _) hm
  | settle k outcome =>
    cases hk : c.flights[k]? with
    | none =>
      rw [move_of_none hk]
      exact h
    | some f =>
      rw [move_of_some hk]
      exact h.settle hmarked (flight_perm hk) (hm f hk)

/-- In a run whose moves are all careful, no call of a tier starts within
the cooldown of a trip unless the tier has succeeded since, and a tier is
probed by one run at a time. -/
theorem coolsDown_of_careful {count clock : Nat} {c : TierChain}
    (h : Reach TierChain.move TierChain.Careful (TierChain.new count clock) c) :
    CoolsDown c.history ∧ c.OneProbe := by
  have hcalm : c.Calm ∧ c.Marked :=
    h.invariant (I := fun s => s.Calm ∧ s.Marked) ⟨calm_new count clock, marked_new count clock⟩
      fun _ m hs hm => ⟨hs.1.move hs.2 hm, hs.2.move m⟩
  exact ⟨hcalm.1.coolsDown, OneProbe.of_calm hcalm.1⟩

/-! ## Runs that do harm -/

/-- A call takes half a minute to find that the tier is dead, and a run
begins a minute after the first one began. -/
def slowFailure : TierChain :=
  [.begin, .tick 30000, .settle 0 (.failure accessDenied), .tick 30000, .begin].foldl
    TierChain.move (TierChain.new 1 0)

/-- Of two runs that began together, one trips the tier, and the other
comes back with the same error while a third run probes it. -/
def strayFailure : TierChain :=
  [.begin, .begin, .settle 0 (.failure accessDenied), .tick 60000, .begin,
    .settle 1 (.failure accessDenied), .begin].foldl TierChain.move (TierChain.new 1 0)

/-- The second call starts thirty seconds after the trip, and the tier is
probed by two runs. -/
theorem coolsDown_fails :
    slowFailure.Reachable ∧ ¬ CoolsDown slowFailure.history ∧
      strayFailure.Reachable ∧ ¬ strayFailure.OneProbe := by
  refine ⟨⟨1, 0, reach_foldl (by simp [AllAllowed])⟩, fun h => ?_,
    ⟨1, 0, reach_foldl (by simp [AllAllowed])⟩, fun h => ?_⟩
  · have hcall : slowFailure.history.take 3 ++ [(60000, .called 0)] <+: slowFailure.history :=
      List.prefix_rfl
    rcases h _ _ _ hcall (slowFailure.history.take 1) 30000 (.failed 0 .tierDead false)
      [(30000, .exhausted (some accessDenied))] rfl ⟨rfl, Or.inl rfl⟩ with hlate | ⟨u, hu⟩
    · revert hlate
      decide
    · simp at hu
  · have := h 0
    revert this
    decide

/-- A run that trips the tier at once; the tier is probed a minute later. -/
def quickFailure : List TierMove :=
  [.begin, .settle 0 (.failure accessDenied), .tick 60000, .begin]

theorem coolsDown_quickFailure :
    CoolsDown (quickFailure.foldl TierChain.move (TierChain.new 1 0)).history ∧
      (quickFailure.foldl TierChain.move (TierChain.new 1 0)).OneProbe := by
  refine coolsDown_of_careful (reach_foldl ⟨?_, ?_, trivial, ?_, trivial⟩)
  · exact ⟨nofun, fun _ => trivial⟩
  · intro f hf
    cases hf
    have hdead : classifyProviderFailure accessDenied = .tierDead := by decide
    simp only [CarefulReturn, hdead]
    exact ⟨nofun, fun _ => trivial⟩
  · refine ⟨fun t ht openedAt hopened _ => ?_, fun _ => trivial⟩
    cases ht
    decide

end TierChain

end Cine.Grading
