import Cine.Course.Roster
import Cine.Lib.Machine

/-!
# The rosters stay consistent

`Consistent`: a student number is in one class of a course, and an enrolment has
the teacher of its class.  The requests do not keep it: an import locks the rows
that exist, and its class is read before its transaction.

* `Careful`: the statements that do not go wrong.
* `RosterCall.Inserts` and `Claimed`: the seats that are there, or may come.  Of
  the classes of a course one at most is claimed for a number (`Inv.claims`).
* `Inv`: with the claims, the home teachers that a transaction leaves behind
  (`Inv.homes`), and the rows that an assignment has not reached yet (`Inv.bulks`).
* What keeps it: the next statement of a request (`Inv.setCall`), a write of a row
  (`Inv.write`), the end of a transaction (`Inv.commit`, `Inv.abort`).
* `roster_consistent`: a run whose steps are all careful is consistent throughout.
-/

namespace Cine.Course

open Cine.Lib

/-! ## The law -/

structure Consistent (env : RosterEnv) (s : RosterWorld) : Prop where
  /-- A number is in one class of a course. -/
  oneClass : ∀ k k' e e', (s.rows k).committed = some e → (s.rows k').committed = some e' →
    env.courseOf e.homeClassId = env.courseOf e'.homeClassId → e.number = e'.number →
      e.homeClassId = e'.homeClassId
  /-- An enrolment has the teacher of its class. -/
  teachers : ∀ k e, (s.rows k).committed = some e →
    e.homeTeacherId = (s.teachers e.homeClassId).committed

/-! ## The claims -/

namespace RosterCall

/-- The call may insert a row for the number into the class. -/
def Inserts (classId number : String) : RosterCall → Prop
  | .writeStudents sheet existing todo =>
    sheet.classId = classId ∧
      ∃ student ∈ todo, student.number = number ∧ rowOf existing number = none
  | .save _ entity none => entity.homeClassId = classId ∧ entity.number = number
  | _ => False

/-- The call may hold rows of `enrollment`. -/
def holdsRows : RosterCall → Bool
  | .lockSiblings .. => true
  | .writeStudents .. => true
  | .deleteMissing .. => true
  | .save .. => true
  | .commitName => true
  | .backfill .. => true
  | _ => false

/-- The class and the teacher of an assignment that has passed the row of the class. -/
def assigning : RosterCall → Option (String × Option String)
  | .startBackfill classId teacherId => some (classId, teacherId)
  | .backfill classId teacherId _ => some (classId, teacherId)
  | _ => none

/-- The call is between the `UPDATE` of the enrolments and its commit. -/
def isBackfill : RosterCall → Bool
  | .backfill .. => true
  | _ => false

end RosterCall

namespace RosterWorld

/-- The row is committed with these columns, or pending. -/
def Version (s : RosterWorld) (k : Nat) (e : Enrollment) : Prop :=
  (s.rows k).committed = some e ∨ ∃ j, (s.rows k).pending = some (j, some e)

/-- A row of the number is in the class, or a call may insert it. -/
def Claimed (s : RosterWorld) (classId number : String) : Prop :=
  (∃ k e, s.Version k e ∧ e.homeClassId = classId ∧ e.number = number) ∨
    ∃ j, (s.calls j).Inserts classId number

/-- No other class of the course is claimed for the number. -/
def Unclaimed (env : RosterEnv) (s : RosterWorld) (classId number : String) : Prop :=
  ∀ other, other ≠ classId → env.courseOf other = env.courseOf classId →
    ¬ s.Claimed other number

/-- The row that a write of the call starts from: it is there, and no other
transaction holds it. -/
def writable (s : RosterWorld) (i k : Nat) : Option Enrollment :=
  if ((s.rows k).rewrite i id).isSome then (s.rows k).seen i else none

/-- The class has the teacher, and will have it when an assignment commits whose
`UPDATE` does not find a row that is inserted now. -/
def Fresh (s : RosterWorld) (classId : String) (teacherId : Option String) : Prop :=
  teacherId = (s.teachers classId).committed ∧
    ∀ p ∈ (s.teachers classId).pending, (s.calls p.1).isBackfill = true → p.2 = teacherId

/-- The statement does not go wrong: a student that is found in no class of the
course is in none, nor comes to be there by another request; a row gets the teacher
that its class has; an assignment leaves no row out. -/
def CarefulStatement (env : RosterEnv) (catalog : Catalog) (s : RosterWorld) (i : Nat) :
    RosterCall → Prop
  | .lockSiblings sheet [] existing =>
    sheet.clashes existing = [] → ∀ student ∈ sheet.students,
      rowOf existing student.number = none → s.Unclaimed env sheet.classId student.number
  | .writeStudents sheet existing (student :: _) =>
    let studentId := sheet.studentIdOf catalog student
    match rowOf existing student.number with
    | none =>
      s.seatHeld i (sheet.newRow student studentId) = false →
        s.seatTaken i (sheet.newRow student studentId) = false →
          s.Fresh sheet.classId sheet.teacherId
    | some (k, current) =>
      sheet.writes current student studentId = true → ∀ e ∈ s.writable i k,
        sheet.teacherId = (s.teachers e.homeClassId).committed
  | .reload k entity =>
    (s.rows k).committed = none → s.Unclaimed env entity.homeClassId entity.number
  | .save k entity (some found) =>
    entity.homeTeacherId ≠ found.homeTeacherId → ∀ e ∈ s.writable i k,
      entity.homeTeacherId = (s.teachers e.homeClassId).committed
  | .save _ entity none =>
    s.seatHeld i entity = false → s.seatTaken i entity = false →
      s.Fresh entity.homeClassId entity.homeTeacherId
  | .startBackfill classId teacherId =>
    (s.teachers classId).pending = some (i, teacherId) → ∀ k < s.next, ∀ p ∈ (s.rows k).pending,
      ∀ e ∈ p.2, e.homeClassId = classId →
        (s.rows k).committed.any (fun e' => e'.homeClassId = classId) = true ∨
          e.homeTeacherId = teacherId
  | .backfill classId teacherId (k :: _) =>
    ∀ e ∈ s.writable i k, e.homeClassId = classId → teacherId = (s.teachers classId).seen i
  | _ => True

/-- The step does not go wrong. -/
def Careful (env : RosterEnv) (s : RosterWorld) (m : Nat × RosterMove) : Prop :=
  match m.2 with
  | .next catalog => s.CarefulStatement env catalog m.1 (s.calls m.1)
  | _ => True

/-! ## The invariant -/

/-- A version of the row that the transaction has not written over. -/
def Unwritten (s : RosterWorld) (j k : Nat) (e : Enrollment) : Prop :=
  ((s.rows k).committed = some e ∧ ∀ v, (s.rows k).pending ≠ some (j, v)) ∨
    ∃ j', j' ≠ j ∧ (s.rows k).pending = some (j', some e)

/-- The assignment has written the rows of the class, except those that are left. -/
def Passed (s : RosterWorld) (j : Nat) (classId : String) (teacherId : Option String)
    (todo : List Nat) : Prop :=
  ∀ k e, s.Unwritten j k e → e.homeClassId = classId → k ∈ todo ∨ e.homeTeacherId = teacherId

end RosterWorld

structure Inv (env : RosterEnv) (s : RosterWorld) : Prop where
  slots : ∀ k, s.next ≤ k → s.rows k = ⟨none, none⟩
  holders : ∀ k j v, (s.rows k).pending = some (j, v) → (s.calls j).holdsRows = true
  claims : ∀ c c' m, env.courseOf c = env.courseOf c' → s.Claimed c m → s.Claimed c' m → c = c'
  committed : ∀ k e, (s.rows k).committed = some e →
    e.homeTeacherId = (s.teachers e.homeClassId).committed
  /-- What a transaction leaves behind has the teacher that the class has then. -/
  homes : ∀ k j e, (s.rows k).pending = some (j, some e) →
    e.homeTeacherId = (s.teachers e.homeClassId).seen j
  assigning : ∀ c j t, (s.teachers c).pending = some (j, t) →
    (s.calls j).assigning = some (c, t)
  bulks : ∀ c j t todo, (s.teachers c).pending = some (j, t) →
    s.calls j = .backfill c t todo → s.Passed j c t todo

section Rules

variable {env : RosterEnv} {s : RosterWorld} {i k : Nat} {call : RosterCall}

variable {c : String} {e : Enrollment} {change : Option Enrollment → Option Enrollment}
    {t : Option String} {catalog : Catalog}

theorem RosterCall.Inserts.class_eq {c' m m' : String} (h : call.Inserts c m)
    (h' : call.Inserts c' m') : c = c' := by
  cases call with
  | writeStudents sheet existing todo => exact h.1.symm.trans h'.1
  | save row entity found =>
    cases found with
    | none => exact h.1.symm.trans h'.1
    | some found => exact h.elim
  | _ => exact h.elim

theorem Inv.consistent (h : Inv env s) : Consistent env s where
  oneClass k k' e e' he he' hcourse hnumber :=
    h.claims _ _ e.number hcourse (.inl ⟨k, e, .inl he, rfl, rfl⟩)
      (.inl ⟨k', e', .inl he', rfl, hnumber.symm⟩)
  teachers := h.committed

theorem Inv.start {rows : List Enrollment} {teachers : String → Option String}
    (h : Consistent env (RosterWorld.start rows teachers)) :
    Inv env (RosterWorld.start rows teachers) where
  slots k hk := by
    show (⟨rows[k]?, none⟩ : LockedRow Nat (Option Enrollment)) = _
    rw [List.getElem?_eq_none hk]
  holders _ _ _ hpending := nomatch hpending
  claims c c' m hcourse hc hc' := by
    obtain ⟨k, e, he | ⟨_, he⟩, rfl, rfl⟩ | ⟨_, hins⟩ := hc
    · obtain ⟨k', e', he' | ⟨_, he'⟩, rfl, hnumber⟩ | ⟨_, hins⟩ := hc'
      · exact h.oneClass k k' e e' he he' hcourse hnumber.symm
      · cases he'
      · exact hins.elim
    · cases he
    · exact hins.elim
  committed := h.teachers
  homes _ _ _ hpending := nomatch hpending
  assigning _ _ _ hpending := nomatch hpending
  bulks _ _ _ _ hpending := nomatch hpending

theorem Inv.setCall (h : Inv env s)
    (hinserts : ∀ c m, call.Inserts c m → s.Claimed c m ∨ s.Unclaimed env c m)
    (hholds : (s.calls i).holdsRows = true → call.holdsRows = true)
    (hassign : ∀ c t, (s.teachers c).pending = some (i, t) → call.assigning = some (c, t))
    (hbulk : ∀ c t todo, (s.teachers c).pending = some (i, t) → call = .backfill c t todo →
      s.Passed i c t todo) :
    Inv env (s.setCall i call) := by
  have hclaimed : ∀ c m, (s.setCall i call).Claimed c m →
      s.Claimed c m ∨ call.Inserts c m ∧ s.Unclaimed env c m := by
    intro c m hc
    obtain hrow | ⟨j, hins⟩ := hc
    · exact .inl (.inl hrow)
    · obtain rfl | hne := eq_or_ne j i
      · have hcall : call.Inserts c m := by
          simpa [RosterWorld.setCall] using hins
        exact (hinserts c m hcall).imp_right fun hun => ⟨hcall, hun⟩
      · have hold : (s.calls j).Inserts c m := by
          simpa [RosterWorld.setCall, hne] using hins
        exact .inl (.inr ⟨j, hold⟩)
  constructor
  case slots => exact h.slots
  case committed => exact h.committed
  case homes => exact h.homes
  case holders =>
    intro k j v hpending
    have hold := h.holders k j v hpending
    obtain rfl | hne := eq_or_ne j i
    · simpa [RosterWorld.setCall] using hholds hold
    · simpa [RosterWorld.setCall, hne] using hold
  case claims =>
    intro c c' m hcourse hc hc'
    obtain hc | ⟨hins, hun⟩ := hclaimed c m hc
    · obtain hc' | ⟨_, hun'⟩ := hclaimed c' m hc'
      · exact h.claims c c' m hcourse hc hc'
      · exact Decidable.byContradiction fun hne => hun' c hne hcourse hc
    · obtain hc' | ⟨hins', _⟩ := hclaimed c' m hc'
      · exact Decidable.byContradiction fun hne => hun c' (Ne.symm hne) hcourse.symm hc'
      · exact hins.class_eq hins'
  case assigning =>
    intro c j t hpending
    obtain rfl | hne := eq_or_ne j i
    · simpa [RosterWorld.setCall] using hassign c t hpending
    · simpa [RosterWorld.setCall, hne] using h.assigning c j t hpending
  case bulks =>
    intro c j t todo hpending hcall
    obtain rfl | hne := eq_or_ne j i
    · exact hbulk c t todo hpending (by simpa [RosterWorld.setCall] using hcall)
    · exact h.bulks c j t todo hpending (by simpa [RosterWorld.setCall, hne] using hcall)

theorem Inv.no_class (h : Inv env s) (hcall : (s.calls i).assigning = none) (c : String)
    (t : Option String) : (s.teachers c).pending ≠ some (i, t) := by
  intro hpending
  have hassign := h.assigning c i t hpending
  rw [hcall] at hassign
  cases hassign

theorem Inv.setCall_of_no_class (h : Inv env s) (hcall : (s.calls i).assigning = none)
    (hinserts : ∀ c m, call.Inserts c m → s.Claimed c m ∨ s.Unclaimed env c m)
    (hholds : (s.calls i).holdsRows = true → call.holdsRows = true) :
    Inv env (s.setCall i call) :=
  h.setCall hinserts hholds (fun c t hpending => absurd hpending (h.no_class hcall c t))
    fun c t _ hpending => absurd hpending (h.no_class hcall c t)

theorem Inv.write (h : Inv env s) {n : Nat} {v : Option Enrollment}
    (hheld : (s.calls i).holdsRows = true)
    (hfree : ∀ j v', (s.rows k).pending = some (j, v') → j = i)
    (hnext : s.next ≤ n) (hk : k < n)
    (hclaimed : ∀ e, v = some e → s.Claimed e.homeClassId e.number)
    (hhome : ∀ e, v = some e → e.homeTeacherId = (s.teachers e.homeClassId).seen i)
    (hpassed : ∀ e, v = some e → ∀ j t todo, j ≠ i →
      (s.teachers e.homeClassId).pending = some (j, t) →
        s.calls j = .backfill e.homeClassId t todo → k ∈ todo ∨ e.homeTeacherId = t) :
    Inv env
      { s with
        rows := Function.update s.rows k ⟨(s.rows k).committed, some (i, v)⟩
        next := n } := by
  have hpending : ∀ k' j v', (Function.update s.rows k
      ⟨(s.rows k).committed, some (i, v)⟩ k').pending = some (j, v') →
        (s.rows k').pending = some (j, v') ∨ k' = k ∧ j = i ∧ v' = v := by
    intro k' j v' hp
    obtain rfl | hne := eq_or_ne k' k
    · rw [Function.update_self] at hp
      cases hp
      exact .inr ⟨rfl, rfl, rfl⟩
    · rw [Function.update_of_ne hne] at hp
      exact .inl hp
  have hcommitted : ∀ k', (Function.update s.rows k
      ⟨(s.rows k).committed, some (i, v)⟩ k').committed = (s.rows k').committed := by
    intro k'
    obtain rfl | hne := eq_or_ne k' k
    · rw [Function.update_self]
    · rw [Function.update_of_ne hne]
  constructor
  case assigning => exact h.assigning
  case slots =>
    intro k' hk'
    show Function.update s.rows k _ k' = _
    rw [Function.update_of_ne (Nat.ne_of_gt (Nat.lt_of_lt_of_le hk hk'))]
    exact h.slots k' (Nat.le_trans hnext hk')
  case holders =>
    intro k' j v' hp
    obtain hp | ⟨-, rfl, -⟩ := hpending k' j v' hp
    · exact h.holders k' j v' hp
    · exact hheld
  case claims =>
    have hold : ∀ c m, RosterWorld.Claimed
        { s with
          rows := Function.update s.rows k ⟨(s.rows k).committed, some (i, v)⟩
          next := n } c m → s.Claimed c m := by
      rintro c m (⟨k', e, he | ⟨j, he⟩, rfl, rfl⟩ | hins)
      · exact .inl ⟨k', e, .inl ((hcommitted k').symm.trans he), rfl, rfl⟩
      · obtain he | ⟨-, -, he⟩ := hpending k' j _ he
        · exact .inl ⟨k', e, .inr ⟨j, he⟩, rfl, rfl⟩
        · exact hclaimed e he.symm
      · exact .inr hins
    exact fun c c' m hcourse hc hc' => h.claims c c' m hcourse (hold c m hc) (hold c' m hc')
  case committed => exact fun k' e he => h.committed k' e ((hcommitted k').symm.trans he)
  case homes =>
    intro k' j e hp
    obtain hold | ⟨-, rfl, he⟩ := hpending k' j _ hp
    · exact h.homes k' j e hold
    · exact hhome e he.symm
  case bulks =>
    intro c j t todo hclass hcall k' e hunwritten hc
    obtain ⟨he, hnot⟩ | ⟨j', hne, hp⟩ := hunwritten
    · refine h.bulks c j t todo hclass hcall k' e (.inl ⟨(hcommitted k').symm.trans he, ?_⟩) hc
      intro v' hp
      obtain rfl | hkne := eq_or_ne k' k
      · -- the one who held the row is the one who writes it
        have hj : j = i := hfree j v' hp
        exact hnot v (by rw [hj]; exact congrArg _ (Function.update_self ..))
      · exact hnot v' (by rw [← hp]; exact congrArg _ (Function.update_of_ne hkne ..))
    · obtain hold | ⟨rfl, rfl, he⟩ := hpending k' j' _ hp
      · exact h.bulks c j t todo hclass hcall k' e (.inr ⟨j', hne, hold⟩) hc
      · subst hc
        exact hpassed e he.symm j t todo hne.symm hclass hcall

theorem RosterWorld.version_of_seen (hseen : (s.rows k).seen i = some e) : s.Version k e := by
  by_cases hheld : ∃ v, (s.rows k).pending = some (i, v)
  · obtain ⟨v, hpending⟩ := hheld
    rw [LockedRow.seen_of_pending hpending] at hseen
    exact .inr ⟨i, hseen ▸ hpending⟩
  · rw [LockedRow.seen_of_not_held fun v hpending => hheld ⟨v, hpending⟩] at hseen
    exact .inl hseen

theorem RosterWorld.mem_writable (hseen : (s.rows k).seen i = some e)
    {row : LockedRow Nat (Option Enrollment)} (h : (s.rows k).rewrite i change = some row) :
    e ∈ s.writable i k := by
  unfold RosterWorld.writable LockedRow.rewrite
  unfold LockedRow.rewrite at h
  split_ifs at h ⊢ with hheld
  · exact hseen
  · simp_all

theorem RosterWorld.seen_of_writable (h : e ∈ s.writable i k) : (s.rows k).seen i = some e := by
  unfold RosterWorld.writable at h
  split_ifs at h
  · exact h
  · cases h

theorem Inv.home_of_seen (h : Inv env s) (hseen : (s.rows k).seen i = some e)
    (hclass : ∀ t, (s.teachers e.homeClassId).pending ≠ some (i, t)) :
    e.homeTeacherId = (s.teachers e.homeClassId).seen i := by
  by_cases hheld : ∃ v, (s.rows k).pending = some (i, v)
  · obtain ⟨v, hpending⟩ := hheld
    rw [LockedRow.seen_of_pending hpending] at hseen
    exact h.homes k i e (hseen ▸ hpending)
  · rw [LockedRow.seen_of_not_held fun v hpending => hheld ⟨v, hpending⟩] at hseen
    rw [LockedRow.seen_of_not_held hclass]
    exact h.committed k e hseen

theorem RosterWorld.unwritten_of_seen (hseen : (s.rows k).seen i = some e)
    (hfree : ∀ j v, (s.rows k).pending = some (j, v) → j = i) {j : Nat} (hne : j ≠ i) :
    s.Unwritten j k e := by
  by_cases hheld : ∃ v, (s.rows k).pending = some (i, v)
  · obtain ⟨v, hpending⟩ := hheld
    rw [LockedRow.seen_of_pending hpending] at hseen
    exact .inr ⟨i, hne.symm, hseen ▸ hpending⟩
  · rw [LockedRow.seen_of_not_held fun v hpending => hheld ⟨v, hpending⟩] at hseen
    exact .inl ⟨hseen, fun v hpending => hne (hfree j v hpending)⟩

theorem Inv.writeRow (h : Inv env s) (hheld : (s.calls i).holdsRows = true)
    (hrow : s.rows k ≠ ⟨none, none⟩) (hnone : change none = none)
    (hchange : ∀ e ∈ s.writable i k, ∀ e', change (some e) = some e' →
      e'.homeClassId = e.homeClassId ∧ e'.number = e.number ∧
        e'.homeTeacherId = (s.teachers e.homeClassId).seen i)
    (hcall : ∀ s', Inv env s' → s'.calls = s.calls → s'.teachers = s.teachers →
      (∀ e, ¬ s'.Unwritten i k e) → Inv env (s'.setCall i call)) :
    Inv env (s.writeRow i k change call) := by
  unfold RosterWorld.writeRow
  split
  · exact h
  · rename_i row hrewrite
    obtain ⟨rfl, hfree⟩ := LockedRow.rewrite_spec hrewrite
    have hk : k < s.next := Decidable.byContradiction fun hge =>
      hrow (h.slots k (Nat.le_of_not_lt hge))
    have hold : ∀ e', change ((s.rows k).seen i) = some e' → ∃ e,
        (s.rows k).seen i = some e ∧ e'.homeClassId = e.homeClassId ∧ e'.number = e.number ∧
          e'.homeTeacherId = (s.teachers e.homeClassId).seen i := by
      intro e' he'
      cases hseen : (s.rows k).seen i with
      | none =>
        rw [hseen, hnone] at he'
        cases he'
      | some e =>
        rw [hseen] at he'
        exact ⟨e, rfl, hchange e (RosterWorld.mem_writable hseen hrewrite) e' he'⟩
    refine hcall _ (h.write (n := s.next) hheld hfree (Nat.le_refl _) hk ?_ ?_ ?_) rfl rfl ?_
    · intro e' he'
      obtain ⟨e, hseen, hclass, hnumber, -⟩ := hold e' he'
      exact .inl ⟨k, e, RosterWorld.version_of_seen hseen, hclass.symm, hnumber.symm⟩
    · intro e' he'
      obtain ⟨e, -, hclass, -, hhome⟩ := hold e' he'
      rw [hclass]
      exact hhome
    · intro e' he' j t todo hne hpending hbackfill
      obtain ⟨e, hseen, hclass, -, hhome⟩ := hold e' he'
      rw [hclass] at hpending hbackfill
      -- another transaction has the class, so the row keeps its teacher
      have hother : ∀ t', (s.teachers e.homeClassId).pending ≠ some (i, t') := by
        intro t' hmine
        rw [hpending] at hmine
        cases hmine
        exact hne rfl
      rw [hhome, ← h.home_of_seen hseen hother]
      exact h.bulks _ j t todo hpending hbackfill k e
        (RosterWorld.unwritten_of_seen hseen hfree hne) rfl
    · intro e hunwritten
      obtain ⟨-, hnot⟩ | ⟨j', hne, hp⟩ := hunwritten
      · exact hnot _ (congrArg _ (Function.update_self ..))
      · have hmine := hp.symm.trans (congrArg _ (Function.update_self ..))
        exact hne (Prod.mk.inj (Option.some.inj hmine)).1

theorem Inv.updateRow (h : Inv env s) (hheld : (s.calls i).holdsRows = true)
    (hnone : change none = none) (hchange : ∀ e ∈ s.writable i k, ∀ e', change (some e) = some e' →
      e'.homeClassId = e.homeClassId ∧ e'.number = e.number ∧
        e'.homeTeacherId = (s.teachers e.homeClassId).seen i)
    (hcall : ∀ s', Inv env s' → s'.calls = s.calls → s'.teachers = s.teachers →
      (∀ e, ¬ s'.Unwritten i k e) → Inv env (s'.setCall i call)) :
    Inv env (s.updateRow i k change call) := by
  unfold RosterWorld.updateRow
  split_ifs with hrow
  · refine hcall s h rfl rfl fun e hunwritten => ?_
    obtain ⟨he, -⟩ | ⟨_, -, hp⟩ := hunwritten
    · rw [hrow] at he
      cases he
    · rw [hrow] at hp
      cases hp
  · exact h.writeRow hheld hrow hnone hchange hcall

theorem RosterWorld.Claimed.of_rows {s' : RosterWorld} {m : String} (h : s'.Claimed c m)
    (hrows : ∀ k e, s'.Version k e → s.Version k e) (hcalls : ∀ j, j ≠ i → s'.calls j = s.calls j)
    (hcall : s'.calls i = call) (hinserts : ∀ c m, ¬ call.Inserts c m) : s.Claimed c m := by
  obtain ⟨k, e, he, hclass, hnumber⟩ | ⟨j, hins⟩ := h
  · exact .inl ⟨k, e, hrows k e he, hclass, hnumber⟩
  · obtain rfl | hne := eq_or_ne j i
    · rw [hcall] at hins
      exact absurd hins (hinserts c m)
    · rw [hcalls j hne] at hins
      exact .inr ⟨j, hins⟩

/-- An error, with the rollback of what the call has written. -/
theorem Inv.abort (h : Inv env s) (i : Nat) (message : String) : Inv env (s.abort i message) := by
  have hpending : ∀ {α : Type} (row : LockedRow Nat α) (j : Nat) (v : α),
      (row.rollback i).pending = some (j, v) → row.pending = some (j, v) ∧ j ≠ i :=
    fun row j v => LockedRow.pending_of_rollback
  have hcalls : ∀ j, j ≠ i → (s.abort i message).calls j = s.calls j :=
    fun j hne => Function.update_of_ne hne ..
  have hcall : (s.abort i message).calls i = .failed message := Function.update_self ..
  constructor
  case slots =>
    intro k hk
    show (s.rows k).rollback i = _
    rw [h.slots k hk]
    rfl
  case holders =>
    intro k j v hp
    obtain ⟨hold, hne⟩ := hpending _ j v hp
    rw [hcalls j hne]
    exact h.holders k j v hold
  case claims =>
    have hold : ∀ c m, (s.abort i message).Claimed c m → s.Claimed c m := by
      refine fun c m hc => hc.of_rows ?_ hcalls hcall fun _ _ hins => hins
      rintro k e (he | ⟨j, hp⟩)
      · exact .inl (LockedRow.rollback_committed.symm.trans he)
      · exact .inr ⟨j, (hpending _ j _ hp).1⟩
    exact fun c c' m hcourse hc hc' => h.claims c c' m hcourse (hold c m hc) (hold c' m hc')
  case committed =>
    intro k e he
    show _ = ((s.teachers e.homeClassId).rollback i).committed
    rw [LockedRow.rollback_committed]
    exact h.committed k e (LockedRow.rollback_committed.symm.trans he)
  case homes =>
    intro k j e hp
    obtain ⟨hold, hne⟩ := hpending _ j _ hp
    show _ = ((s.teachers e.homeClassId).rollback i).seen j
    rw [LockedRow.seen_rollback hne]
    exact h.homes k j e hold
  case assigning =>
    intro c j t hp
    obtain ⟨hold, hne⟩ := hpending _ j t hp
    rw [hcalls j hne]
    exact h.assigning c j t hold
  case bulks =>
    intro c j t todo hp hbackfill k e hunwritten hclass
    obtain ⟨hold, hne⟩ := hpending _ j t hp
    rw [hcalls j hne] at hbackfill
    refine h.bulks c j t todo hold hbackfill k e ?_ hclass
    obtain ⟨he, hnot⟩ | ⟨j', hne', hp'⟩ := hunwritten
    · refine .inl ⟨LockedRow.rollback_committed.symm.trans he, fun v hv => hnot v ?_⟩
      exact LockedRow.rollback_pending hv hne
    · exact .inr ⟨j', hne', (hpending _ j' _ hp').1⟩

theorem Inv.commit (h : Inv env s) (i : Nat)
    (hpassed : ∀ c t, (s.teachers c).pending = some (i, t) → s.Passed i c t []) :
    Inv env (s.commit i) := by
  have hpending : ∀ {α : Type} (row : LockedRow Nat α) (j : Nat) (v : α),
      (row.commit i).pending = some (j, v) → row.pending = some (j, v) ∧ j ≠ i :=
    fun row j v => LockedRow.pending_of_commit
  have hcalls : ∀ j, j ≠ i → (s.commit i).calls j = s.calls j :=
    fun j hne => Function.update_of_ne hne ..
  have hcall : (s.commit i).calls i = .succeeded := Function.update_self ..
  -- what another transaction leaves in a class that this one commits has the teacher already
  have hother : ∀ k j e, j ≠ i → (s.rows k).pending = some (j, some e) →
      e.homeTeacherId = ((s.teachers e.homeClassId).commit i).seen j := by
    intro k j e hne hp
    by_cases hmine : ∃ t, (s.teachers e.homeClassId).pending = some (i, t)
    · obtain ⟨t, hclass⟩ := hmine
      rw [LockedRow.seen_commit_of_pending hclass]
      exact (hpassed _ t hclass k e (.inr ⟨j, hne, hp⟩) rfl).resolve_left (by simp)
    · rw [LockedRow.commit_of_not_held fun t hclass => hmine ⟨t, hclass⟩]
      exact h.homes k j e hp
  constructor
  case slots =>
    intro k hk
    show (s.rows k).commit i = _
    rw [h.slots k hk]
    rfl
  case holders =>
    intro k j v hp
    obtain ⟨hold, hne⟩ := hpending _ j v hp
    rw [hcalls j hne]
    exact h.holders k j v hold
  case claims =>
    have hold : ∀ c m, (s.commit i).Claimed c m → s.Claimed c m := by
      refine fun c m hc => hc.of_rows ?_ hcalls hcall fun _ _ hins => hins
      rintro k e (he | ⟨j, hp⟩)
      · exact RosterWorld.version_of_seen (LockedRow.commit_committed.symm.trans he)
      · exact .inr ⟨j, (hpending _ j _ hp).1⟩
    exact fun c c' m hcourse hc hc' => h.claims c c' m hcourse (hold c m hc) (hold c' m hc')
  case committed =>
    intro k e he
    show _ = ((s.teachers e.homeClassId).commit i).committed
    have hseen : (s.rows k).seen i = some e := LockedRow.commit_committed.symm.trans he
    rw [LockedRow.commit_committed]
    by_cases hmine : ∃ v, (s.rows k).pending = some (i, v)
    · obtain ⟨v, hp⟩ := hmine
      rw [LockedRow.seen_of_pending hp] at hseen
      exact h.homes k i e (hseen ▸ hp)
    · rw [LockedRow.seen_of_not_held fun v hp => hmine ⟨v, hp⟩] at hseen
      by_cases hclass : ∃ t, (s.teachers e.homeClassId).pending = some (i, t)
      · obtain ⟨t, hclass⟩ := hclass
        rw [LockedRow.seen_of_pending hclass]
        have hunwritten : s.Unwritten i k e := .inl ⟨hseen, fun v hp => hmine ⟨v, hp⟩⟩
        exact (hpassed _ t hclass k e hunwritten rfl).resolve_left (by simp)
      · rw [LockedRow.seen_of_not_held fun t ht => hclass ⟨t, ht⟩]
        exact h.committed k e hseen
  case homes =>
    intro k j e hp
    obtain ⟨hold, hne⟩ := hpending _ j _ hp
    exact hother k j e hne hold
  case assigning =>
    intro c j t hp
    obtain ⟨hold, hne⟩ := hpending _ j t hp
    rw [hcalls j hne]
    exact h.assigning c j t hold
  case bulks =>
    intro c j t todo hp hbackfill k e hunwritten hclass
    obtain ⟨hold, hne⟩ := hpending _ j t hp
    rw [hcalls j hne] at hbackfill
    refine h.bulks c j t todo hold hbackfill k e ?_ hclass
    obtain ⟨he, hnot⟩ | ⟨j', hne', hp'⟩ := hunwritten
    · have hseen : (s.rows k).seen i = some e := LockedRow.commit_committed.symm.trans he
      by_cases hmine : ∃ v, (s.rows k).pending = some (i, v)
      · obtain ⟨v, hv⟩ := hmine
        rw [LockedRow.seen_of_pending hv] at hseen
        exact .inr ⟨i, hne.symm, hseen ▸ hv⟩
      · rw [LockedRow.seen_of_not_held fun v hv => hmine ⟨v, hv⟩] at hseen
        refine .inl ⟨hseen, fun v hv => hnot v ?_⟩
        show ((s.rows k).commit i).pending = _
        rw [LockedRow.commit_of_not_held fun v hv => hmine ⟨v, hv⟩]
        exact hv
    · exact .inr ⟨j', hne', (hpending _ j' _ hp').1⟩

theorem Inv.of_rows (h : Inv env s) {rows : Nat → LockedRow Nat (Option Enrollment)} {n : Nat}
    (hrows : ∀ k, rows k = s.rows k ∨ rows k = ⟨none, none⟩) (hn : s.next ≤ n) :
    Inv env { s with rows := rows, next := n } := by
  have hcommitted : ∀ k e, (rows k).committed = some e → rows k = s.rows k := by
    intro k e he
    obtain hrow | hrow := hrows k
    · exact hrow
    · rw [hrow] at he
      cases he
  have hpending : ∀ k j v, (rows k).pending = some (j, v) → rows k = s.rows k := by
    intro k j v hp
    obtain hrow | hrow := hrows k
    · exact hrow
    · rw [hrow] at hp
      cases hp
  constructor
  case assigning => exact h.assigning
  case slots =>
    intro k hk
    obtain hrow | hrow := hrows k
    · exact hrow.trans (h.slots k (Nat.le_trans hn hk))
    · exact hrow
  case holders => exact fun k j v hp => h.holders k j v (hpending k j v hp ▸ hp)
  case claims =>
    have hold : ∀ c m, RosterWorld.Claimed { s with rows := rows, next := n } c m →
        s.Claimed c m := by
      rintro c m (⟨k, e, he | ⟨j, hp⟩, hseat⟩ | hins)
      · exact .inl ⟨k, e, .inl (hcommitted k e he ▸ he), hseat⟩
      · exact .inl ⟨k, e, .inr ⟨j, hpending k j _ hp ▸ hp⟩, hseat⟩
      · exact .inr hins
    exact fun c c' m hcourse hc hc' => h.claims c c' m hcourse (hold c m hc) (hold c' m hc')
  case committed => exact fun k e he => h.committed k e (hcommitted k e he ▸ he)
  case homes => exact fun k j e hp => h.homes k j e (hpending k j _ hp ▸ hp)
  case bulks =>
    intro c j t todo hclass hbackfill k e hunwritten
    refine h.bulks c j t todo hclass hbackfill k e ?_
    obtain ⟨he, hnot⟩ | ⟨j', hne, hp⟩ := hunwritten
    · have hrow : rows k = s.rows k := hcommitted k e he
      exact .inl ⟨hrow ▸ he, fun v => hrow ▸ hnot v⟩
    · exact .inr ⟨j', hne, hpending k j' _ hp ▸ hp⟩

theorem Inv.insertRow (h : Inv env s) (hheld : (s.calls i).holdsRows = true)
    (hclass : (s.calls i).assigning = none) (hclaimed : (s.calls i).Inserts e.homeClassId e.number)
    (hfresh : s.seatHeld i e = false → s.seatTaken i e = false →
      s.Fresh e.homeClassId e.homeTeacherId)
    (hcall : ∀ s', Inv env s' → s'.calls = s.calls → Inv env (s'.setCall i call)) :
    Inv env (s.insertRow i k e call) := by
  unfold RosterWorld.insertRow
  split_ifs with hseat htaken hrow
  · exact h
  · exact h.abort i _
  · exact h.abort i _
  · obtain ⟨hteacher, hassign⟩ := hfresh (Bool.eq_false_iff.2 hseat) (Bool.eq_false_iff.2 htaken)
    unfold RosterWorld.writeRow
    split
    · exact h.of_rows (fun _ => .inl rfl) (Nat.le_max_left ..)
    · rename_i row hrewrite
      obtain ⟨rfl, hfree⟩ := LockedRow.rewrite_spec hrewrite
      refine hcall _ (h.write (v := some e) hheld hfree (Nat.le_max_left ..)
        (Nat.le_max_right ..) ?_ ?_ ?_) rfl
      · intro e' he'
        cases he'
        exact .inr ⟨i, hclaimed⟩
      · intro e' he'
        cases he'
        rw [LockedRow.seen_of_not_held fun t => h.no_class hclass _ t]
        exact hteacher
      · intro e' he' j t todo _ hpending hbackfill
        cases he'
        refine .inr (hassign (j, t) hpending ?_).symm
        show (s.calls j).isBackfill = true
        rw [hbackfill]
        rfl

theorem Inv.updateClass (h : Inv env s) (hrows : (s.calls i).holdsRows = false)
    (hfree : ∀ j v, (s.teachers c).pending = some (j, v) → j = i)
    (hclass : (s.calls i).assigning = none) :
    Inv env
      ({ s with
        teachers := Function.update s.teachers c ⟨(s.teachers c).committed, some (i, t)⟩ }.setCall i
          (.startBackfill c t)) := by
  have hpending : ∀ c' j v, (Function.update s.teachers c
      ⟨(s.teachers c).committed, some (i, t)⟩ c').pending = some (j, v) →
        (s.teachers c').pending = some (j, v) ∧ j ≠ i ∨ c' = c ∧ j = i ∧ v = t := by
    intro c' j v hp
    obtain rfl | hne := eq_or_ne c' c
    · rw [Function.update_self] at hp
      cases hp
      exact .inr ⟨rfl, rfl, rfl⟩
    · rw [Function.update_of_ne hne] at hp
      refine .inl ⟨hp, ?_⟩
      rintro rfl
      exact h.no_class hclass c' v hp
  have hcalls : ∀ j, j ≠ i → Function.update s.calls i (.startBackfill c t) j = s.calls j :=
    fun j hne => Function.update_of_ne hne ..
  have hcall : Function.update s.calls i (.startBackfill c t) i = .startBackfill c t :=
    Function.update_self ..
  -- a row is not held by the call, and the others see the class as before
  have hmine : ∀ k j v, (s.rows k).pending = some (j, v) → j ≠ i := by
    rintro k j v hp rfl
    rw [h.holders k j v hp] at hrows
    cases hrows
  have hseen : ∀ c' j, j ≠ i → (Function.update s.teachers c
      ⟨(s.teachers c).committed, some (i, t)⟩ c').seen j = (s.teachers c').seen j := by
    intro c' j hne
    obtain rfl | hne' := eq_or_ne c' c
    · rw [Function.update_self, LockedRow.seen_of_not_held fun v hp => hne (hfree j v hp)]
      exact if_neg hne.symm
    · rw [Function.update_of_ne hne']
  constructor
  case slots => exact h.slots
  case holders =>
    intro k j v hp
    show (Function.update s.calls i (.startBackfill c t) j).holdsRows = true
    rw [hcalls j (hmine k j v hp)]
    exact h.holders k j v hp
  case claims =>
    intro c₁ c₂ m hcourse hc₁ hc₂
    exact h.claims c₁ c₂ m hcourse
      (hc₁.of_rows (fun _ _ hv => hv) hcalls hcall fun _ _ hins => hins)
      (hc₂.of_rows (fun _ _ hv => hv) hcalls hcall fun _ _ hins => hins)
  case committed =>
    intro k e he
    show _ = (Function.update s.teachers c _ e.homeClassId).committed
    rw [h.committed k e he]
    obtain heq | hne := eq_or_ne e.homeClassId c
    · rw [heq, Function.update_self]
    · rw [Function.update_of_ne hne]
  case homes =>
    intro k j e hp
    show _ = (Function.update s.teachers c _ e.homeClassId).seen j
    rw [hseen _ j (hmine k j _ hp)]
    exact h.homes k j e hp
  case assigning =>
    intro c' j v hp
    show (Function.update s.calls i (.startBackfill c t) j).assigning = _
    obtain ⟨hold, hne⟩ | ⟨rfl, rfl, rfl⟩ := hpending c' j v hp
    · rw [hcalls j hne]
      exact h.assigning c' j v hold
    · rw [hcall]
      rfl
  case bulks =>
    intro c' j v todo hp hbackfill
    change Function.update s.calls i (.startBackfill c t) j = _ at hbackfill
    obtain ⟨hold, hne⟩ | ⟨rfl, rfl, rfl⟩ := hpending c' j v hp
    · rw [hcalls j hne] at hbackfill
      exact h.bulks c' j v todo hold hbackfill
    · rw [hcall] at hbackfill
      cases hbackfill

/-! ## The steps -/

theorem Inv.setCall_plain (h : Inv env s) (hclass : (s.calls i).assigning = none)
    (hrows : (s.calls i).holdsRows = false) (hinserts : ∀ c m, ¬ call.Inserts c m) :
    Inv env (s.setCall i call) := by
  refine h.setCall_of_no_class hclass (fun c m hins => absurd hins (hinserts c m)) fun hheld => ?_
  rw [hrows] at hheld
  cases hheld

theorem Inv.receive (h : Inv env s) (hidle : s.calls i = .idle) (request : RosterRequest) :
    Inv env (s.receive i request) := by
  have hplain : ∀ call, (∀ c m, ¬ call.Inserts c m) → Inv env (s.setCall i call) := by
    intro call hinserts
    refine h.setCall_plain ?_ ?_ hinserts <;> rw [hidle] <;> rfl
  cases request with
  | importForClass classId students removeMissing => exact hplain _ fun _ _ hins => hins
  | addStudent classId input => exact hplain _ fun _ _ hins => hins
  | removeStudent classId studentMssv =>
    unfold RosterWorld.receive
    dsimp only
    split <;> exact hplain _ fun _ _ hins => hins
  | updateStudentName classId studentMssv name =>
    unfold RosterWorld.receive
    dsimp only
    split <;> exact hplain _ fun _ _ hins => hins
  | assign classId teacherId => exact hplain _ fun _ _ hins => hins
  | unassign classId sessions =>
    unfold RosterWorld.receive
    dsimp only
    split <;> exact hplain _ fun _ _ hins => hins

theorem Inv.updateRow_of_no_class (h : Inv env s) (hclass : (s.calls i).assigning = none)
    (hheld : (s.calls i).holdsRows = true) (hnone : change none = none)
    (hchange : ∀ e ∈ s.writable i k, ∀ e', change (some e) = some e' →
      e'.homeClassId = e.homeClassId ∧ e'.number = e.number ∧
        (e'.homeTeacherId = e.homeTeacherId ∨
          e'.homeTeacherId = (s.teachers e.homeClassId).committed))
    (hinserts : ∀ c m, call.Inserts c m → (s.calls i).Inserts c m) (hholds : call.holdsRows = true) :
    Inv env (s.updateRow i k change call) := by
  refine h.updateRow hheld hnone (fun e he e' he' => ?_) fun s' h' hcalls _ _ => ?_
  · obtain ⟨hhome, hnumber, hteacher⟩ := hchange e he e' he'
    refine ⟨hhome, hnumber, ?_⟩
    have hmine := h.no_class hclass e.homeClassId
    obtain hkept | hfresh := hteacher
    · rw [hkept]
      exact h.home_of_seen (RosterWorld.seen_of_writable he) hmine
    · rw [hfresh, LockedRow.seen_of_not_held hmine]
  · refine h'.setCall_of_no_class (by rw [hcalls]; exact hclass) (fun c m hins => ?_) fun _ => hholds
    refine .inl (.inr ⟨i, ?_⟩)
    rw [hcalls]
    exact hinserts c m hins

theorem Inv.lockSiblings (h : Inv env s) {sheet : Sheet} {todo : List Nat} {existing : Existing}
    (hcall : s.calls i = .lockSiblings sheet todo existing)
    (hcareful : s.CarefulStatement env catalog i (.lockSiblings sheet todo existing)) :
    Inv env (s.statement i env catalog (.lockSiblings sheet todo existing)) := by
  have hclass : (s.calls i).assigning = none := by rw [hcall]; rfl
  have hheld : (s.calls i).holdsRows = true := by rw [hcall]; rfl
  cases todo with
  | nil =>
    show Inv env (if sheet.clashes existing = [] then _ else _)
    split_ifs with hclash
    · refine h.setCall_of_no_class hclass (fun c m hins => .inr ?_) fun _ => rfl
      obtain ⟨rfl, student, hmem, rfl, hnone⟩ := hins
      exact hcareful hclash student hmem hnone
    · exact h.abort i _
  | cons k todo =>
    unfold RosterWorld.statement
    dsimp only
    split
    · exact h
    · exact h.setCall_of_no_class hclass (fun _ _ hins => hins.elim) fun _ => rfl
    · rename_i e _ hcommitted
      have hrow : s.rows k ≠ ⟨none, none⟩ := by
        intro hgone
        rw [hgone] at hcommitted
        cases hcommitted
      refine h.writeRow hheld hrow rfl (fun e he e' he' => ?_) fun s' h' hcalls _ _ => ?_
      · cases he'
        exact ⟨rfl, rfl,
          h.home_of_seen (RosterWorld.seen_of_writable he) (h.no_class hclass e.homeClassId)⟩
      · exact h'.setCall_of_no_class (by rw [hcalls]; exact hclass)
          (fun _ _ hins => hins.elim) fun _ => rfl

theorem Inv.writeStudents (h : Inv env s) {sheet : Sheet} {existing : Existing}
    {todo : List RosterStudent} (hcall : s.calls i = .writeStudents sheet existing todo)
    (hcareful : s.CarefulStatement env catalog i (.writeStudents sheet existing todo)) :
    Inv env (s.statement i env catalog (.writeStudents sheet existing todo)) := by
  have hclass : (s.calls i).assigning = none := by rw [hcall]; rfl
  have hheld : (s.calls i).holdsRows = true := by rw [hcall]; rfl
  cases todo with
  | nil => exact h.setCall_of_no_class hclass (fun _ _ hins => hins.elim) fun _ => rfl
  | cons student todo =>
    have hinserts : ∀ c m, RosterCall.Inserts c m (.writeStudents sheet existing todo) →
        (s.calls i).Inserts c m := by
      rintro c m ⟨rfl, student', hmem, hnumber, hnone⟩
      rw [hcall]
      exact ⟨rfl, student', List.mem_cons_of_mem _ hmem, hnumber, hnone⟩
    cases hrow : rowOf existing student.number with
    | none =>
      have hfresh : s.seatHeld i (sheet.newRow student (sheet.studentIdOf catalog student)) =
          false → s.seatTaken i (sheet.newRow student (sheet.studentIdOf catalog student)) =
            false → s.Fresh sheet.classId sheet.teacherId := by
        unfold RosterWorld.CarefulStatement at hcareful
        simp only [hrow] at hcareful
        exact hcareful
      have hstatement : s.statement i env catalog
          (.writeStudents sheet existing (student :: todo)) = s.insertRow i s.next
            (sheet.newRow student (sheet.studentIdOf catalog student))
              (.writeStudents sheet existing todo) := by
        unfold RosterWorld.statement
        simp only [hrow]
      rw [hstatement]
      refine h.insertRow hheld hclass ?_ hfresh fun s' h' hcalls => ?_
      · rw [hcall]
        exact ⟨rfl, student, List.mem_cons_self .., rfl, hrow⟩
      · refine h'.setCall_of_no_class (by rw [hcalls]; exact hclass) (fun c m hins => ?_)
          fun _ => rfl
        refine .inl (.inr ⟨i, ?_⟩)
        rw [hcalls]
        exact hinserts c m hins
    | some found =>
      obtain ⟨k, current⟩ := found
      have hteacher : sheet.writes current student (sheet.studentIdOf catalog student) = true →
          ∀ e ∈ s.writable i k, sheet.teacherId = (s.teachers e.homeClassId).committed := by
        unfold RosterWorld.CarefulStatement at hcareful
        simp only [hrow] at hcareful
        exact hcareful
      have hstatement : s.statement i env catalog
          (.writeStudents sheet existing (student :: todo)) =
            if sheet.writes current student (sheet.studentIdOf catalog student) then
              s.updateRow i k
                (Option.map (sheet.written student (sheet.studentIdOf catalog student)))
                (.writeStudents sheet existing todo)
            else s.setCall i (.writeStudents sheet existing todo) := by
        unfold RosterWorld.statement
        simp only [hrow]
      rw [hstatement]
      split_ifs with hwrites
      · refine h.updateRow_of_no_class hclass hheld rfl (fun e he e' he' => ?_) hinserts rfl
        cases he'
        exact ⟨rfl, rfl, .inr (hteacher hwrites e he)⟩
      · exact h.setCall_of_no_class hclass (fun c m hins => .inl (.inr ⟨i, hinserts c m hins⟩))
          fun _ => rfl

theorem Inv.save (h : Inv env s) {entity : Enrollment} {found : Option Enrollment}
    (hcall : s.calls i = .save k entity found)
    (hcareful : s.CarefulStatement env catalog i (.save k entity found)) :
    Inv env (s.statement i env catalog (.save k entity found)) := by
  have hclass : (s.calls i).assigning = none := by rw [hcall]; rfl
  have hheld : (s.calls i).holdsRows = true := by rw [hcall]; rfl
  cases found with
  | none =>
    refine h.insertRow hheld hclass ?_ hcareful fun s' h' hcalls => ?_
    · rw [hcall]
      exact ⟨rfl, rfl⟩
    · exact h'.setCall_of_no_class (by rw [hcalls]; exact hclass) (fun _ _ hins => hins.elim)
        fun _ => rfl
  | some found =>
    show Inv env (if entity.changes found then _ else _)
    split_ifs
    · refine h.updateRow_of_no_class hclass hheld rfl (fun e he e' he' => ?_)
        (fun _ _ hins => hins.elim) rfl
      cases he'
      refine ⟨rfl, rfl, ?_⟩
      -- the column is written only where the entity differs from the row that was read
      by_cases hsame : entity.homeTeacherId = found.homeTeacherId
      · exact .inl (if_pos hsame)
      · exact .inr ((if_neg hsame).trans (hcareful hsame e he))
    · exact h.setCall_of_no_class hclass (fun _ _ hins => hins.elim) fun _ => rfl

theorem Inv.startBackfill (h : Inv env s) (hcall : s.calls i = .startBackfill c t)
    (hcareful : s.CarefulStatement env catalog i (.startBackfill c t)) :
    Inv env (s.statement i env catalog (.startBackfill c t)) := by
  have hassign : ∀ c' t', (s.teachers c').pending = some (i, t') → c' = c ∧ t' = t := by
    intro c' t' hp
    have hsame := h.assigning c' i t' hp
    rw [hcall] at hsame
    cases hsame
    exact ⟨rfl, rfl⟩
  refine h.setCall (fun _ _ hins => hins.elim) (fun _ => rfl) (fun c' t' hp => ?_) ?_
  · obtain ⟨rfl, rfl⟩ := hassign c' t' hp
    rfl
  · intro c' t' todo hp hbackfill k e hunwritten hhome
    obtain ⟨rfl, rfl⟩ := hassign c' t' hp
    cases hbackfill
    have hk : k < s.next := by
      refine Decidable.byContradiction fun hge => ?_
      have hgone := h.slots k (Nat.le_of_not_lt hge)
      obtain ⟨he, -⟩ | ⟨_, -, he⟩ := hunwritten <;> rw [hgone] at he <;> cases he
    have hvisible : (s.rows k).committed.any (fun e' => e'.homeClassId = c') = true →
        k ∈ s.visible fun e' => e'.homeClassId = c' := fun hany =>
      List.mem_filter.2 ⟨List.mem_range.2 hk, hany⟩
    obtain ⟨he, -⟩ | ⟨j', -, he⟩ := hunwritten
    · refine .inl (hvisible ?_)
      rw [he]
      exact decide_eq_true hhome
    · exact (hcareful hp k hk _ he e rfl hhome).imp_left hvisible

/-- The rows of an assignment are written one by one, and the class with them. -/
theorem Inv.backfill (h : Inv env s) {todo : List Nat} (hcall : s.calls i = .backfill c t todo)
    (hcareful : s.CarefulStatement env catalog i (.backfill c t todo)) :
    Inv env (s.statement i env catalog (.backfill c t todo)) := by
  have hassign : ∀ c' t', (s.teachers c').pending = some (i, t') → c' = c ∧ t' = t := by
    intro c' t' hp
    have hsame := h.assigning c' i t' hp
    rw [hcall] at hsame
    cases hsame
    exact ⟨rfl, rfl⟩
  have hbulk : ∀ c' t', (s.teachers c').pending = some (i, t') → s.Passed i c' t' todo := by
    intro c' t' hp
    obtain ⟨rfl, rfl⟩ := hassign c' t' hp
    exact h.bulks c' i t' todo hp hcall
  cases todo with
  | nil => exact h.commit i hbulk
  | cons k todo =>
    refine h.updateRow (by rw [hcall]; rfl) rfl (fun e he e' he' => ?_)
      fun s' h' hcalls hteachers hwritten => ?_
    · have hrow : (if e.homeClassId = c then { e with homeTeacherId := t } else e) = e' :=
        Option.some.inj he'
      by_cases hhome : e.homeClassId = c
      · rw [if_pos hhome] at hrow
        subst hrow
        refine ⟨rfl, rfl, ?_⟩
        rw [hhome]
        exact hcareful e he hhome
      · rw [if_neg hhome] at hrow
        subst hrow
        exact ⟨rfl, rfl, h.home_of_seen (RosterWorld.seen_of_writable he) fun t' hp =>
          hhome (hassign _ t' hp).1⟩
    · rw [← hteachers] at hassign
      refine h'.setCall (fun _ _ hins => hins.elim) (fun _ => rfl) (fun c' t' hp => ?_) ?_
      · obtain ⟨rfl, rfl⟩ := hassign c' t' hp
        rfl
      · intro c' t' todo' hp hbackfill k' e hunwritten hhome
        cases hbackfill
        have hpassed := h'.bulks c i t (k :: todo) hp (by rw [hcalls]; exact hcall)
        obtain hmem | hteacher := hpassed k' e hunwritten hhome
        · refine .inl ((List.mem_cons.1 hmem).resolve_left ?_)
          rintro rfl
          exact hwritten e hunwritten
        · exact .inr hteacher

theorem Inv.statement (h : Inv env s) (hcall : s.calls i = call)
    (hcareful : s.CarefulStatement env catalog i call) :
    Inv env (s.statement i env catalog call) := by
  cases call with
  | idle => exact h
  | succeeded => exact h
  | failed message => exact h
  | resolveAdd classId teacherId input =>
    unfold RosterWorld.statement
    dsimp only
    split
    · exact h.abort i _
    · refine h.setCall_plain ?_ ?_ fun _ _ hins => hins <;> rw [hcall] <;> rfl
  | readSiblings sheet =>
    refine h.setCall_plain ?_ ?_ fun _ _ hins => hins <;> rw [hcall] <;> rfl
  | lockSiblings sheet todo existing => exact h.lockSiblings hcall hcareful
  | writeStudents sheet existing todo => exact h.writeStudents hcall hcareful
  | deleteMissing sheet existing todo =>
    have hclass : (s.calls i).assigning = none := by rw [hcall]; rfl
    cases todo with
    | nil => exact h.commit i fun c t hp => absurd hp (h.no_class hclass c t)
    | cons k todo =>
      exact h.updateRow_of_no_class hclass (by rw [hcall]; rfl) rfl
        (fun _ _ _ hgone => nomatch hgone) (fun _ _ hins => hins.elim) rfl
  | remove k =>
    unfold RosterWorld.statement
    dsimp only
    split
    · exact h
    · rename_i row hrewrite
      obtain ⟨rfl, -⟩ := LockedRow.rewrite_spec hrewrite
      have hgone : LockedRow.commit ⟨(s.rows k).committed, some (i, none)⟩ i = ⟨none, none⟩ :=
        if_pos rfl
      rw [hgone]
      have h' : Inv env { s with rows := Function.update s.rows k ⟨none, none⟩ } := by
        refine h.of_rows (fun k' => ?_) (Nat.le_refl _)
        obtain rfl | hne := eq_or_ne k' k
        · exact .inr (Function.update_self ..)
        · exact .inl (Function.update_of_ne hne ..)
      refine h'.setCall_plain ?_ ?_ fun _ _ hins => hins <;> show _ = _ <;> rw [hcall] <;> rfl
  | resolveName k entity =>
    refine h.setCall_plain ?_ ?_ fun _ _ hins => hins <;> rw [hcall] <;> rfl
  | reload k entity =>
    have hclass : (s.calls i).assigning = none := by rw [hcall]; rfl
    refine h.setCall_of_no_class hclass (fun c m hins => .inr ?_) fun _ => rfl
    cases hcommitted : (s.rows k).committed with
    | none =>
      rw [hcommitted] at hins
      obtain ⟨rfl, rfl⟩ := hins
      exact hcareful hcommitted
    | some found =>
      rw [hcommitted] at hins
      exact hins.elim
  | save k entity found => exact h.save hcall hcareful
  | commitName =>
    have hclass : (s.calls i).assigning = none := by rw [hcall]; rfl
    exact h.commit i fun c t hp => absurd hp (h.no_class hclass c t)
  | reloadClass classId teacherId =>
    unfold RosterWorld.statement
    dsimp only
    split <;> refine h.setCall_plain ?_ ?_ (fun _ _ hins => hins) <;> rw [hcall] <;> rfl
  | updateClass classId teacherId =>
    unfold RosterWorld.statement
    dsimp only
    split
    · exact h
    · rename_i row hrewrite
      obtain ⟨rfl, hfree⟩ := LockedRow.rewrite_spec hrewrite
      exact h.updateClass (by rw [hcall]; rfl) hfree (by rw [hcall]; rfl)
  | startBackfill classId teacherId => exact h.startBackfill hcall hcareful
  | backfill classId teacherId todo => exact h.backfill hcall hcareful

theorem Inv.move (h : Inv env s) (m : Nat × RosterMove) (hcareful : s.Careful env m) :
    Inv env (s.move env m) := by
  obtain ⟨i, move⟩ := m
  cases move with
  | request request =>
    by_cases hidle : s.calls i = .idle
    · have hmove : s.move env (i, .request request) = s.receive i request := by
        unfold RosterWorld.move
        dsimp only
        rw [hidle]
      rw [hmove]
      exact h.receive hidle request
    · have hmove : s.move env (i, .request request) = s := by
        unfold RosterWorld.move
        dsimp only
        cases hcall : s.calls i with
        | idle => exact absurd hcall hidle
        | _ => rfl
      rw [hmove]
      exact h
  | next catalog => exact h.statement rfl hcareful
  | fail =>
    show Inv env (if (s.calls i).isOpen then _ else s)
    split_ifs
    · exact h.abort i _
    · exact h

end Rules

/-- In a run whose steps are all careful the rosters are consistent in every state. -/
theorem roster_consistent (env : RosterEnv) (rows : List Enrollment)
    (teachers : String → Option String)
    (hstart : Consistent env (RosterWorld.start rows teachers)) (s : RosterWorld)
    (hrun : Reach (RosterWorld.move env) (RosterWorld.Careful env)
      (RosterWorld.start rows teachers) s) : Consistent env s :=
  (hrun.invariant (I := Inv env) (.start hstart) fun _ m h hcareful => h.move m hcareful).consistent

/-! ## Runs of two requests -/

/-- A step of one request leaves the others where they are. -/
theorem RosterWorld.move_calls {env : RosterEnv} (s : RosterWorld) (m : Nat × RosterMove) {j : Nat}
    (hne : j ≠ m.1) : (s.move env m).calls j = s.calls j := by
  have hset : ∀ (s' : RosterWorld) call, (s'.setCall m.1 call).calls j = s'.calls j :=
    fun s' call => Function.update_of_ne hne ..
  have hwrite : ∀ (s' : RosterWorld) k change call,
      (s'.writeRow m.1 k change call).calls j = s'.calls j := by
    intro s' k change call
    unfold RosterWorld.writeRow
    split
    · rfl
    · exact hset ..
  have hupdate : ∀ k change call, (s.updateRow m.1 k change call).calls j = s.calls j := by
    intro k change call
    unfold RosterWorld.updateRow
    split_ifs
    · exact hset ..
    · exact hwrite ..
  have hinsert : ∀ k e call, (s.insertRow m.1 k e call).calls j = s.calls j := by
    intro k e call
    unfold RosterWorld.insertRow
    split_ifs
    · rfl
    · exact hset ..
    · exact hset ..
    · exact hwrite ..
  have hreceive : ∀ request, (s.receive m.1 request).calls j = s.calls j := by
    intro request
    unfold RosterWorld.receive
    repeat' split
    all_goals exact hset ..
  have hstatement : ∀ catalog call, (s.statement m.1 env catalog call).calls j = s.calls j := by
    intro catalog call
    unfold RosterWorld.statement RosterWorld.commit RosterWorld.abort
    dsimp only
    repeat' split
    all_goals first | rfl | exact hset .. | exact hwrite .. | exact hupdate .. | exact hinsert ..
  unfold RosterWorld.move
  repeat' split
  all_goals first | rfl | exact hreceive _ | exact hstatement _ _ | exact hset ..

theorem RosterWorld.foldl_calls {env : RosterEnv} {moves : List (Nat × RosterMove)} {j : Nat}
    (hne : ∀ m ∈ moves, j ≠ m.1) (s : RosterWorld) :
    (moves.foldl (RosterWorld.move env) s).calls j = s.calls j := by
  induction moves generalizing s with
  | nil => rfl
  | cons m moves ih =>
    rw [List.foldl_cons, ih fun m' hm' => hne m' (List.mem_cons_of_mem _ hm')]
    exact s.move_calls m (hne m (List.mem_cons_self ..))

/-- Two classes of one course. -/
def twoClasses : RosterEnv where
  classes classId := ⟨classId, some "c", "C"⟩

def noCatalog : Catalog where
  byId _ := none
  byMssv _ := none

def emptyRosters : RosterWorld :=
  .start [] fun _ => some "t"

def runRoster (moves : List (Nat × RosterMove)) : RosterWorld :=
  moves.foldl (RosterWorld.move twoClasses) emptyRosters

def importOne (classId mssv : String) : RosterMove :=
  .request (.importForClass classId [⟨mssv, "n"⟩] false)

/-- The statements of a request. -/
def nexts (i n : Nat) : List (Nat × RosterMove) :=
  List.replicate n (i, .next noCatalog)

def importedAndAssigned : List (Nat × RosterMove) :=
  (0, importOne "A" "s1") :: nexts 0 5 ++ (1, .request (.assign "A" "u")) :: nexts 1 5

/-- A student is imported, and then the class gets another teacher. -/
theorem imported_and_assigned :
    Consistent twoClasses (runRoster importedAndAssigned) := by
  have hempty : Consistent twoClasses emptyRosters :=
    ⟨fun _ _ _ _ he => (nomatch he), fun _ _ he => nomatch he⟩
  refine roster_consistent twoClasses [] _ hempty _ (reach_foldl
    ⟨trivial, trivial, ?_, ?_, trivial, trivial, trivial, trivial, trivial, ?_, ?_, trivial,
      trivial⟩)
  · rintro - student - - other - - (⟨k, e, he | ⟨j, hp⟩, -⟩ | ⟨j, hins⟩)
    · cases he
    · cases hp
    · obtain _ | j := j <;> exact hins
  · exact fun _ _ => ⟨rfl, fun _ hp => nomatch hp⟩
  · intro _ k hk p hp
    obtain rfl : k = 0 := Nat.lt_one_iff.1 hk
    cases hp
  · exact fun _ _ _ => rfl

/-- One student is imported into both classes at once. -/
def importedTwice : RosterWorld :=
  runRoster ((0, importOne "A" "s1") :: (1, importOne "B" "S1") :: nexts 0 1 ++ nexts 1 1 ++
    nexts 0 1 ++ nexts 1 1 ++ nexts 0 3 ++ nexts 1 3)

/-- A class gets another teacher between the read of it and the transaction of an import. -/
def importedStale : RosterWorld :=
  runRoster ((0, importOne "A" "s1") :: (1, .request (.assign "A" "u")) :: nexts 1 4 ++ nexts 0 5)

/-- No request is open in the end, and a student is in two classes, or an enrolment has
a teacher that its class has not. -/
theorem rosters_inconsistent :
    (∀ i, (importedTwice.calls i).isOpen = false) ∧
      ¬ (∀ k k' e e', (importedTwice.rows k).committed = some e →
        (importedTwice.rows k').committed = some e' →
          twoClasses.courseOf e.homeClassId = twoClasses.courseOf e'.homeClassId →
            e.number = e'.number → e.homeClassId = e'.homeClassId) ∧
    (∀ i, (importedStale.calls i).isOpen = false) ∧
      ¬ (∀ k e, (importedStale.rows k).committed = some e →
        e.homeTeacherId = (importedStale.teachers e.homeClassId).committed) := by
  have hclosed : ∀ moves : List (Nat × RosterMove), (∀ m ∈ moves, m.1 < 2) →
      (∀ i < 2, ((runRoster moves).calls i).isOpen = false) →
        ∀ i, ((runRoster moves).calls i).isOpen = false := by
    intro moves htwo hends i
    by_cases hi : i < 2
    · exact hends i hi
    · unfold runRoster
      rw [RosterWorld.foldl_calls fun m hm => by have := htwo m hm; omega]
      rfl
  refine ⟨hclosed _ (by decide) (by decide), fun h => ?_,
    hclosed _ (by decide) (by decide), fun h => ?_⟩
  · have hsame := h 0 1 ⟨"s1", "n", "A", some "t", none⟩ ⟨"S1", "n", "B", some "t", none⟩
      (by decide) (by decide) (by decide) (by decide)
    exact absurd hsame (by decide)
  · have hteacher := h 0 ⟨"s1", "n", "A", some "t", none⟩ (by decide)
    exact absurd hteacher (by decide)

end Cine.Course
