import Mathlib.Data.List.Basic

/-!
# Runs of a machine

A machine moves from state to state, and a label says which of the moves
that are possible it makes: the choices of the environment are all in the
label.  `Reach step allowed start s` says that a run from `start` whose
moves are all allowed ends in `s`.

`Reach.invariant` is the rule by which everything about a run is proved:
what holds at the start and is kept by every allowed move holds in every
state that is reached.
-/

namespace Cine.Lib

variable {σ ε : Type}

/-- The states that allowed moves lead to. -/
inductive Reach (step : σ → ε → σ) (allowed : σ → ε → Prop) (start : σ) : σ → Prop
  | start : Reach step allowed start start
  | move {s : σ} (e : ε) (run : Reach step allowed start s) (ok : allowed s e) :
      Reach step allowed start (step s e)

variable {step : σ → ε → σ} {allowed allowed' : σ → ε → Prop} {start s : σ}

variable {I P : σ → Prop} {es : List ε}

theorem Reach.invariant (hstart : I start) (hmove : ∀ s e, I s → allowed s e → I (step s e))
    (h : Reach step allowed start s) : I s := by
  induction h with
  | start => exact hstart
  | move e _ hok ih => exact hmove _ e ih hok

/-- Every move of a list is allowed in the state it is made in. -/
def AllAllowed (step : σ → ε → σ) (allowed : σ → ε → Prop) : σ → List ε → Prop
  | _, [] => True
  | s, e :: es => allowed s e ∧ AllAllowed step allowed (step s e) es

theorem allAllowed_append {es' : List ε} : AllAllowed step allowed s (es ++ es') ↔
    AllAllowed step allowed s es ∧ AllAllowed step allowed (es.foldl step s) es' := by
  induction es generalizing s with
  | nil => exact ⟨fun h => ⟨trivial, h⟩, fun h => h.2⟩
  | cons e es ih =>
    show allowed s e ∧ AllAllowed step allowed (step s e) (es ++ es') ↔ _
    rw [ih, ← and_assoc]
    rfl

/-- `AllAllowed` is decided move by move. -/
def decideAllAllowed [∀ s e, Decidable (allowed s e)] :
    ∀ (s : σ) (es : List ε), Decidable (AllAllowed step allowed s es)
  | _, [] => .isTrue trivial
  | s, e :: es => @instDecidableAnd _ _ _ (decideAllAllowed (step s e) es)

instance [∀ s e, Decidable (allowed s e)] (s : σ) (es : List ε) :
    Decidable (AllAllowed step allowed s es) :=
  decideAllAllowed s es

/-- Two conditions that agree wherever a run comes by agree on the run. -/
theorem allAllowed_congr (hI : ∀ s e, I s → I (step s e))
    (heq : ∀ s e, I s → (allowed s e ↔ allowed' s e)) (hs : I s) (es : List ε) :
    AllAllowed step allowed s es ↔ AllAllowed step allowed' s es := by
  induction es generalizing s with
  | nil => exact Iff.rfl
  | cons e es ih => exact and_congr (heq s e hs) (ih (hI s e hs))

theorem Reach.foldl (h : Reach step allowed start s) (hall : AllAllowed step allowed s es) :
    Reach step allowed start (es.foldl step s) := by
  induction es generalizing s with
  | nil => exact h
  | cons e es ih => exact ih (.move e h hall.1) hall.2

theorem reach_foldl (hall : AllAllowed step allowed start es) :
    Reach step allowed start (es.foldl step start) :=
  Reach.foldl .start hall

/-- `P` holds where a list of moves starts and after every one of them. -/
def Throughout (step : σ → ε → σ) (P : σ → Prop) : σ → List ε → Prop
  | s, [] => P s
  | s, e :: es => P s ∧ Throughout step P (step s e) es

theorem Throughout.head (h : Throughout step P s es) : P s := by
  cases es with
  | nil => exact h
  | cons e es => exact h.1

theorem Throughout.last (h : Throughout step P s es) : P (es.foldl step s) := by
  induction es generalizing s with
  | nil => exact h
  | cons e es ih => exact ih h.2

theorem throughout_iff_allAllowed (hI : ∀ s e, I s → I (step s e))
    (hP : ∀ s e, I s → P s → (P (step s e) ↔ allowed s e)) (hi : I s) (hp : P s) :
    Throughout step P s es ↔ AllAllowed step allowed s es := by
  induction es generalizing s with
  | nil => exact ⟨fun _ => trivial, fun _ => hp⟩
  | cons e es ih =>
    constructor
    · intro h
      have hnext := h.2.head
      exact ⟨(hP s e hi hp).1 hnext, (ih (hI s e hi) hnext).1 h.2⟩
    · intro h
      have hnext := (hP s e hi hp).2 h.1
      exact ⟨hp, (ih (hI s e hi) hnext).2 h.2⟩

end Cine.Lib
