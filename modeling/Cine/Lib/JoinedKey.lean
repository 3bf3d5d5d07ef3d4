import Mathlib.Data.List.Basic

/-!
# Two texts joined to one key

A pair of texts is joined to one text with a separator between them.  Where
the texts may contain the separator, two pairs may have one key:
`joined_eq_iff` says which.
-/

namespace Cine.Lib

variable {α : Type*}

/-- The key of a pair. -/
def joined (separator : α) (p : List α × List α) : List α :=
  p.1 ++ separator :: p.2

/-- The first text of `q` is that of `p` and reads on: behind a separator
comes what the second text of `p` begins with, and the second text of `q` is
what is left of it behind the next separator. -/
def Continues (separator : α) (p q : List α × List α) : Prop :=
  ∃ middle, q.1 = p.1 ++ separator :: middle ∧ p.2 = middle ++ separator :: q.2

variable {p q : List α × List α} {separator : α}

theorem Continues.ne (h : Continues separator p q) : p ≠ q := by
  rintro rfl
  obtain ⟨middle, hfirst, -⟩ := h
  have hlength := congrArg List.length hfirst
  simp at hlength

theorem Continues.joined_eq (h : Continues separator p q) :
    joined separator p = joined separator q := by
  obtain ⟨middle, hfirst, hsecond⟩ := h
  unfold joined
  rw [hfirst, hsecond, List.append_assoc, List.cons_append]

/-- Two pairs have one key when one of them reads on from the other. -/
theorem joined_eq_iff :
    joined separator p = joined separator q ↔
      p = q ∨ Continues separator p q ∨ Continues separator q p := by
  constructor
  · intro h
    unfold joined at h
    rcases List.append_eq_append_iff.1 h with ⟨rest, hfirst, hrest⟩ | ⟨rest, hfirst, hrest⟩
    · cases rest with
      | nil =>
        rw [List.nil_append, List.cons.injEq] at hrest
        rw [List.append_nil] at hfirst
        exact Or.inl (Prod.ext hfirst.symm hrest.2)
      | cons c middle =>
        rw [List.cons_append, List.cons.injEq] at hrest
        obtain ⟨rfl, hsecond⟩ := hrest
        exact Or.inr (Or.inl ⟨middle, hfirst, hsecond⟩)
    · cases rest with
      | nil =>
        rw [List.nil_append, List.cons.injEq] at hrest
        rw [List.append_nil] at hfirst
        exact Or.inl (Prod.ext hfirst hrest.2.symm)
      | cons c middle =>
        rw [List.cons_append, List.cons.injEq] at hrest
        obtain ⟨rfl, hsecond⟩ := hrest
        exact Or.inr (Or.inr ⟨middle, hfirst, hsecond⟩)
  · rintro (rfl | h | h)
    · rfl
    · exact h.joined_eq
    · exact h.joined_eq.symm

end Cine.Lib
