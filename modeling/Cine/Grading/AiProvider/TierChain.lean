import Cine.Grading.AiProvider.ProviderFailure
import Cine.Lib.Machine
import Mathlib.Data.List.Perm.Basic

/-!
# The chain of tiers and its circuit breakers

`grading/ai-provider/tier-chain.ts`.  A chain has one breaker for each
tier, and any number of calls of `TierChain.run` share it.  Between two
awaits a run is not interrupted, so a move of the machine is one of three
things: time passes, a run begins, or a call to a provider comes back.
Each of the last two goes on, in the same move, until the run waits for
its next call or is over.

Times are milliseconds.  Labels, names and the reason of a breaker only
go to the log and are left out, and so are the requests and the results,
which the chain hands through.  Two things are kept for the statements:
a `Flight` says whether its visit set the probing mark, and the chain has
a `history` of what happened at its tiers.
-/

namespace Cine.Grading

open Cine.Lib

/-- `BREAKER_COOLDOWN_MS`. -/
def breakerCooldownMs : Nat := 60000

structure TierState where
  openedAt : Option Nat
  probing : Bool
deriving DecidableEq, Repr

/-- `isBreakerOpen`: whether the tier is passed over by a run that began at
`now`, and the tier afterwards. -/
def isBreakerOpen (tier : TierState) (now : Nat) : Bool × TierState :=
  match tier.openedAt with
  | none => (false, tier)
  | some openedAt =>
    if now < openedAt + breakerCooldownMs then (true, tier)
    else if tier.probing then (true, tier)
    else (false, { tier with probing := true })

def openBreaker (_ : TierState) (now : Nat) : TierState :=
  { openedAt := some now, probing := false }

/-- A run that waits for a call to the tier `tier`. -/
structure Flight where
  /-- `now`, the clock as the run read it when it began. -/
  now : Nat
  tier : Nat
  /-- The tiers that the loop has not come to. -/
  ahead : List Nat
  /-- The call is the second one, after an output that was no use. -/
  retried : Bool
  /-- This visit of the tier set the probing mark. -/
  probe : Bool
  lastError : Option ProviderError

/-- What comes back from a provider. -/
inductive CallOutcome
  | success
  | failure (error : ProviderError)

/-- What happens at a tier, or to a run. -/
inductive TierEvent
  /-- A call to the tier starts. -/
  | called (tier : Nat)
  /-- A visit of the tier ends with a result. -/
  | succeeded (tier : Nat)
  /-- A visit of the tier ends with an error. -/
  | failed (tier : Nat) (kind : ProviderFailureKind) (probe : Bool)
  /-- No tier is left for a run. -/
  | exhausted (error : Option ProviderError)

structure TierChain where
  tiers : Nat → TierState
  /-- `tiers.length`. -/
  count : Nat
  clock : Nat
  flights : List Flight
  /-- Every event with its time, in order. -/
  history : List (Nat × TierEvent)

namespace TierChain

def new (count clock : Nat) : TierChain where
  tiers := fun _ => { openedAt := none, probing := false }
  count := count
  clock := clock
  flights := []
  history := []

def setTier (c : TierChain) (i : Nat) (t : TierState) : TierChain :=
  { c with tiers := Function.update c.tiers i t }

def record (c : TierChain) (e : TierEvent) : TierChain :=
  { c with history := c.history ++ [(c.clock, e)] }

/-- The loop over the tiers `ahead`, up to the next call or to the end. -/
def visit (now : Nat) (lastError : Option ProviderError) : List Nat → TierChain → TierChain
  | [], c => c.record (.exhausted lastError)
  | i :: ahead, c =>
    let (isOpen, tier) := isBreakerOpen (c.tiers i) now
    if isOpen then visit now lastError ahead c
    else
      let flight : Flight :=
        { now, tier := i, ahead, retried := false, probe := (c.tiers i).openedAt.isSome,
          lastError }
      { (c.setTier i tier).record (.called i) with flights := flight :: c.flights }

/-- `run`, up to its first await. -/
def begin (c : TierChain) : TierChain :=
  c.visit c.clock none (List.range c.count)

/-- A call comes back with a result. -/
def onSuccess (c : TierChain) (f : Flight) : TierChain :=
  let tier := c.tiers f.tier
  (if tier.probing then c.setTier f.tier { openedAt := none, probing := false } else c).record
    (.succeeded f.tier)

/-- `if (tier.probing) …` of the catch block. -/
def releaseProbe (c : TierChain) (f : Flight) : TierChain :=
  if (c.tiers f.tier).probing then
    c.setTier f.tier { openedAt := some f.now, probing := false }
  else c

/-- The catch block, and the rest of the loop. -/
def onFailure (c : TierChain) (f : Flight) (error : ProviderError) : TierChain :=
  let kind := classifyProviderFailure error
  let c := (c.releaseProbe f).record (.failed f.tier kind f.probe)
  match kind with
  | .transient => c
  | .tierDead =>
    (c.setTier f.tier (openBreaker (c.tiers f.tier) f.now)).visit f.now (some error) f.ahead
  | .badOutput => c.visit f.now (some error) f.ahead

/-- The call of the flight `f` comes back; the other runs are in `others`. -/
def settle (c : TierChain) (f : Flight) (others : List Flight) (outcome : CallOutcome) :
    TierChain :=
  match outcome with
  | .success => ({ c with flights := others } : TierChain).onSuccess f
  | .failure error =>
    if classifyProviderFailure error = .badOutput ∧ f.retried = false then
      { c.record (.called f.tier) with flights := { f with retried := true } :: others }
    else ({ c with flights := others } : TierChain).onFailure f error

end TierChain

inductive TierMove
  | tick (ms : Nat)
  | begin
  /-- The call of the `k`th run in flight comes back. -/
  | settle (k : Nat) (outcome : CallOutcome)

def TierChain.move (c : TierChain) : TierMove → TierChain
  | .tick ms => { c with clock := c.clock + ms }
  | .begin => c.begin
  | .settle k outcome =>
    match c.flights[k]? with
    | none => c
    | some f => c.settle f (c.flights.eraseIdx k) outcome

/-- A state that some interleaving of runs leads to. -/
def TierChain.Reachable (c : TierChain) : Prop :=
  ∃ count clock, Reach TierChain.move (fun _ _ => True) (TierChain.new count clock) c

end Cine.Grading
