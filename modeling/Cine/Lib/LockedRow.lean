import Mathlib.Tactic.SplitIfs

/-!
# A row under read-committed transactions

One row of a table, and the transactions that change it.  A statement reads
what is committed.  A statement that changes the row waits until no
transaction holds it, judges the row that is committed by then, and holds
the row until its transaction ends.

`Within` is the invariant of such a row: the version that waits for its
commit is in relation to the one that is committed.  Nothing commits while
the row is held, so every commit is then along the relation.
-/

namespace Cine.Lib

/-- A row, and the transaction that holds it with its version. -/
structure LockedRow (ι ρ : Type) where
  committed : ρ
  pending : Option (ι × ρ)
deriving DecidableEq, Repr

namespace LockedRow

variable {ι ρ : Type} [DecidableEq ι]

/-- `UPDATE … SET change WHERE guard` of a transaction: whether the row was
affected, and the row.  There is no answer while the row is held. -/
def update (row : LockedRow ι ρ) (i : ι) (guard : ρ → Bool) (change : ρ → ρ) :
    Option (Bool × LockedRow ι ρ) :=
  match row.pending with
  | some _ => none
  | none =>
    if guard row.committed then
      some (true, { row with pending := some (i, change row.committed) })
    else some (false, row)

def commit (row : LockedRow ι ρ) (i : ι) : LockedRow ι ρ :=
  match row.pending with
  | none => row
  | some (j, version) => if j = i then ⟨version, none⟩ else row

def rollback (row : LockedRow ι ρ) (i : ι) : LockedRow ι ρ :=
  match row.pending with
  | none => row
  | some (j, _) => if j = i then { row with pending := none } else row

/-- An `UPDATE` that is a transaction of its own. -/
def statement (row : LockedRow ι ρ) (i : ι) (guard : ρ → Bool) (change : ρ → ρ) :
    Option (Bool × LockedRow ι ρ) :=
  (row.update i guard change).map fun answer => (answer.1, answer.2.commit i)

/-- The row as a transaction sees it: its own version, or the one that is committed. -/
def seen (row : LockedRow ι ρ) (i : ι) : ρ :=
  match row.pending with
  | none => row.committed
  | some (j, version) => if j = i then version else row.committed

/-- A write of a transaction, which may hold the row already.  There is no
answer while another transaction holds it. -/
def rewrite (row : LockedRow ι ρ) (i : ι) (change : ρ → ρ) : Option (LockedRow ι ρ) :=
  if row.pending.any fun p => p.1 ≠ i then none
  else some { row with pending := some (i, change (row.seen i)) }

/-- The version that is pending is in the relation. -/
def Within (R : ρ → ρ → Prop) (row : LockedRow ι ρ) : Prop :=
  ∀ i version, row.pending = some (i, version) → R row.committed version

omit [DecidableEq ι] in
theorem Within.free (R : ρ → ρ → Prop) (row : ρ) : Within R (⟨row, none⟩ : LockedRow ι ρ) :=
  fun _ _ h => nomatch h

omit [DecidableEq ι] in
theorem update_cases {row row' : LockedRow ι ρ} {i : ι} {guard : ρ → Bool} {change : ρ → ρ}
    {affected : Bool} (h : row.update i guard change = some (affected, row')) :
    (affected = true ∧ guard row.committed = true ∧
        row' = { row with pending := some (i, change row.committed) }) ∨
      (affected = false ∧ row' = row) := by
  unfold update at h
  split at h
  · cases h
  · split_ifs at h with hguard
    · cases h
      exact .inl ⟨rfl, hguard, rfl⟩
    · cases h
      exact .inr ⟨rfl, rfl⟩

section Rules

variable {R : ρ → ρ → Prop} {row row' : LockedRow ι ρ} {i : ι} {guard : ρ → Bool}
  {change : ρ → ρ} {affected : Bool}

omit [DecidableEq ι] in
theorem update_free (h : row.update i guard change = some (affected, row')) :
    row.pending = none := by
  unfold LockedRow.update at h
  split at h
  · cases h
  · assumption

omit [DecidableEq ι] in
theorem update_committed (h : row.update i guard change = some (affected, row')) :
    row'.committed = row.committed := by
  obtain ⟨_, _, rfl⟩ | ⟨_, rfl⟩ := update_cases h <;> rfl

variable {version : ρ} {j : ι}

theorem seen_of_pending (h : row.pending = some (i, version)) : row.seen i = version := by
  unfold seen
  rw [h]
  exact if_pos rfl

theorem seen_of_not_held (h : ∀ version, row.pending ≠ some (i, version)) :
    row.seen i = row.committed := by
  unfold seen
  split
  · rfl
  · rename_i j version hpending
    refine if_neg fun heq => h version ?_
    rw [hpending, heq]

theorem commit_committed : (row.commit i).committed = row.seen i := by
  unfold LockedRow.commit seen
  split
  · rfl
  · split_ifs <;> rfl

theorem pending_of_commit (h : (row.commit i).pending = some (j, version)) :
    row.pending = some (j, version) ∧ j ≠ i := by
  unfold LockedRow.commit at h
  split at h
  · rename_i hpending
    rw [hpending] at h
    cases h
  · rename_i k v hpending
    split_ifs at h with heq
    rw [hpending] at h
    cases h
    exact ⟨hpending, heq⟩

theorem commit_of_not_held (h : ∀ version, row.pending ≠ some (i, version)) :
    row.commit i = row := by
  unfold LockedRow.commit
  split
  · rfl
  · rename_i j version hpending
    refine if_neg fun heq => h version ?_
    rw [hpending, heq]

theorem seen_commit_of_pending (h : row.pending = some (i, version)) (j : ι) :
    (row.commit i).seen j = version := by
  have hcommit : row.commit i = ⟨version, none⟩ := by
    unfold LockedRow.commit
    rw [h]
    exact if_pos rfl
  rw [hcommit]
  rfl

theorem pending_of_rollback (h : (row.rollback i).pending = some (j, version)) :
    row.pending = some (j, version) ∧ j ≠ i := by
  unfold LockedRow.rollback at h
  split at h
  · rename_i hpending
    rw [hpending] at h
    cases h
  · rename_i k v hpending
    split_ifs at h with heq
    rw [hpending] at h
    cases h
    exact ⟨hpending, heq⟩

theorem rollback_pending (h : row.pending = some (j, version)) (hne : j ≠ i) :
    (row.rollback i).pending = some (j, version) := by
  unfold LockedRow.rollback
  rw [h]
  show (if j = i then { row with pending := none } else row).pending = _
  rw [if_neg hne, h]

theorem seen_rollback (hne : j ≠ i) : (row.rollback i).seen j = row.seen j := by
  unfold LockedRow.rollback
  split
  · rfl
  · rename_i k version hpending
    split_ifs with heq
    · unfold seen
      rw [hpending]
      exact (if_neg fun hk => hne (hk.symm.trans heq)).symm
    · rfl

theorem rewrite_spec (h : row.rewrite i change = some row') :
    row' = ⟨row.committed, some (i, change (row.seen i))⟩ ∧
      ∀ j version, row.pending = some (j, version) → j = i := by
  unfold LockedRow.rewrite at h
  split_ifs at h with hheld
  obtain rfl := Option.some.inj h
  refine ⟨rfl, fun j version hpending => ?_⟩
  rw [hpending] at hheld
  exact Decidable.byContradiction fun hne => hheld (decide_eq_true hne)

omit [DecidableEq ι] in
theorem Within.update (hrow : Within R row)
    (h : row.update i guard change = some (affected, row'))
    (hchange : guard row.committed = true → R row.committed (change row.committed)) :
    Within R row' := by
  obtain ⟨_, hguard, rfl⟩ | ⟨_, rfl⟩ := update_cases h
  · intro j version hpending
    cases hpending
    exact hchange hguard
  · exact hrow

theorem Within.commit (hrow : Within R row) : Within R (row.commit i) := by
  unfold LockedRow.commit
  split
  · exact hrow
  · split_ifs
    · exact .free R _
    · exact hrow

theorem Within.rollback (hrow : Within R row) : Within R (row.rollback i) := by
  unfold LockedRow.rollback
  split
  · exact hrow
  · split_ifs
    · exact .free R _
    · exact hrow

@[simp] theorem rollback_committed : (row.rollback i).committed = row.committed := by
  unfold LockedRow.rollback
  split
  · rfl
  · split_ifs <;> rfl

theorem Within.commit_rel (hrefl : ∀ r, R r r) (hrow : Within R row) :
    R row.committed (row.commit i).committed := by
  unfold LockedRow.commit
  split
  · exact hrefl _
  · rename_i j version hpending
    split_ifs
    · exact hrow j version hpending
    · exact hrefl _

theorem Within.statement (hrefl : ∀ r, R r r) (hrow : Within R row)
    (h : row.statement i guard change = some (affected, row'))
    (hchange : guard row.committed = true → R row.committed (change row.committed)) :
    Within R row' ∧ R row.committed row'.committed := by
  obtain ⟨answer, hupdate, heq⟩ := Option.map_eq_some_iff.1 h
  cases heq
  have hkept : Within R answer.2 := hrow.update hupdate hchange
  refine ⟨hkept.commit, ?_⟩
  rw [← update_committed hupdate]
  exact hkept.commit_rel hrefl

end Rules

end LockedRow

end Cine.Lib
