import Cine.Authoring.Ruler.SameOutput
import Cine.Authoring.Ruler.StatedExamples
import Cine.Worker.ResultSchema

/-!
# What two runs of an answer print

`interpretRuns` and `checkExamples` of `exam-authoring/ruler/ruler-core.ts`.

* `stableOutput_ok` and `stableOutput_error`: a case has the output that both
  runs print, or a reason why it has none.
* `get?_interpretRuns` and `dropped_interpretRuns`: what the loop leaves, name by
  name, and `interpretRuns_partition` from them.
* `checkExamples_reproduced`: without a mismatch every example that stands in
  the statement was reproduced.
-/

namespace Cine.Authoring.Ruler

open Cine.Lib Cine.Grading Cine.Worker

structure DroppedRef where
  name : String
  reason : String
deriving DecidableEq, Repr

/-- `STDOUT_LIMIT`. -/
def stdoutLimit : Nat := 65536

/-! ## Two runs -/

/-- `byName`: the last case of a name counts. -/
def byName (r : ExecResult) : OrderedMap String CaseResult :=
  OrderedMap.ofList (r.cases.map fun c => (c.name, c))

def hasPassed (c : CaseResult) : Bool :=
  c.status = .ran || c.status = .pass

/-- What two runs of a case come to: an output, or why there is none. -/
def sharedOutput (x y : CaseResult) : Except String String :=
  match [x, y].find? fun c => !hasPassed c with
  | some bad =>
    .error (if bad.status = .outputLimit then "output vượt 64 KiB"
      else s!"trạng thái {caseStatusName bad.status} khi chạy đáp án")
  | none =>
    match x.stdout, y.stdout with
    | some out, some out' =>
      if '\x00' ∈ out.toList ∨ '\x00' ∈ out'.toList then
        .error "output chứa ký tự NUL (cơ sở dữ liệu không lưu được)"
      else if stdoutLimit ≤ (utf16 out).length ∨ stdoutLimit ≤ (utf16 out').length then
        .error "output vượt 64 KiB"
      else if out ≠ out' then .error "nondeterministic: hai lượt chạy cho output khác nhau"
      else .ok out
    | _, _ => .error "worker không trả stdout"

/-- The body of the loop of `interpretRuns`. -/
def stableOutput (x y : Option CaseResult) : Except String String :=
  match x, y with
  | some x, some y => sharedOutput x y
  | _, _ => .error "không có kết quả từ worker"

structure Interpreted where
  stable : OrderedMap String String
  dropped : List DroppedRef

def interpretStep (a b : OrderedMap String CaseResult) (s : Interpreted) (name : String) :
    Interpreted :=
  match stableOutput (a.get? name) (b.get? name) with
  | .ok out => { s with stable := s.stable.set name out }
  | .error reason => { s with dropped := s.dropped ++ [⟨name, reason⟩] }

def interpretRuns (first second : ExecResult) (wanted : List String) : Interpreted :=
  wanted.foldl (interpretStep (byName first) (byName second)) ⟨OrderedMap.empty, []⟩

/-! ## One case -/

/-- The run printed `out` for a case of this name, with a passing status. -/
def Printed (r : ExecResult) (name out : String) : Prop :=
  ∃ c ∈ r.cases, c.name = name ∧ (c.status = .ran ∨ c.status = .pass) ∧ c.stdout = some out

theorem byName_mem {r : ExecResult} {name : String} {c : CaseResult}
    (h : (byName r).get? name = some c) : c ∈ r.cases ∧ c.name = name := by
  obtain ⟨c', hc', heq⟩ := List.mem_map.1 (OrderedMap.mem_of_get?_ofList h)
  obtain ⟨rfl, rfl⟩ := Prod.mk.inj heq
  exact ⟨hc', rfl⟩

theorem printed_of_get? {r : ExecResult} {name out : String} {c : CaseResult}
    (h : (byName r).get? name = some c) (hpassed : hasPassed c = true)
    (hout : c.stdout = some out) : Printed r name out := by
  obtain ⟨hmem, hname⟩ := byName_mem h
  refine ⟨c, hmem, hname, ?_, hout⟩
  simpa [hasPassed] using hpassed

theorem sharedOutput_ok {x y : CaseResult} {out : String} (h : sharedOutput x y = .ok out) :
    (hasPassed x = true ∧ x.stdout = some out) ∧ hasPassed y = true ∧ y.stdout = some out := by
  unfold sharedOutput at h
  split at h
  · cases h
  · rename_i hbad
    have hpassed : ∀ c ∈ [x, y], hasPassed c = true := by
      simpa using List.find?_eq_none.1 hbad
    split at h
    · rename_i outx outy houtx houty
      split_ifs at h with _ _ hsame
      cases h
      rw [not_not] at hsame
      subst hsame
      exact ⟨⟨hpassed x (by simp), houtx⟩, hpassed y (by simp), houty⟩
    · cases h

theorem sharedOutput_error {x y : CaseResult} {reason : String}
    (h : sharedOutput x y = .error reason) : reason ≠ "" := by
  unfold sharedOutput at h
  split at h
  · cases h
    split_ifs
    · decide
    · intro hempty
      have hlast := (String.append_eq_empty_iff.1 hempty).2
      revert hlast
      decide
  · split at h
    · split_ifs at h <;> cases h <;> decide
    · cases h
      decide

theorem stableOutput_ok {first second : ExecResult} {name out : String}
    (h : stableOutput ((byName first).get? name) ((byName second).get? name) = .ok out) :
    Printed first name out ∧ Printed second name out := by
  cases hx : (byName first).get? name with
  | none =>
    rw [hx] at h
    cases h
  | some x =>
    cases hy : (byName second).get? name with
    | none =>
      rw [hx, hy] at h
      cases h
    | some y =>
      rw [hx, hy] at h
      obtain ⟨⟨hpx, hox⟩, hpy, hoy⟩ := sharedOutput_ok h
      exact ⟨printed_of_get? hx hpx hox, printed_of_get? hy hpy hoy⟩

theorem stableOutput_error {x y : Option CaseResult} {reason : String}
    (h : stableOutput x y = .error reason) : reason ≠ "" := by
  cases x with
  | none =>
    cases h
    decide
  | some x =>
    cases y with
    | none =>
      cases h
      decide
    | some y => exact sharedOutput_error h

/-! ## The loop -/

section Loop

variable (a b : OrderedMap String CaseResult)

def outputOf (name : String) : Option String :=
  match stableOutput (a.get? name) (b.get? name) with
  | .ok out => some out
  | .error _ => none

def refusalOf (name : String) : Option DroppedRef :=
  match stableOutput (a.get? name) (b.get? name) with
  | .ok _ => none
  | .error reason => some ⟨name, reason⟩

theorem get?_interpretStep (s : Interpreted) (name other : String) :
    (interpretStep a b s name).stable.get? other =
      if other = name ∧ (outputOf a b name).isSome = true then outputOf a b name
      else s.stable.get? other := by
  unfold interpretStep outputOf
  cases stableOutput (a.get? name) (b.get? name) with
  | ok out =>
    show (s.stable.set name out).get? other = _
    rw [OrderedMap.get?_set]
    simp
  | error reason => simp

theorem dropped_interpretStep (s : Interpreted) (name : String) :
    (interpretStep a b s name).dropped = s.dropped ++ (refusalOf a b name).toList := by
  unfold interpretStep refusalOf
  cases stableOutput (a.get? name) (b.get? name) <;> simp

theorem get?_foldl_interpretStep (wanted : List String) (s : Interpreted) (name : String) :
    (wanted.foldl (interpretStep a b) s).stable.get? name =
      if name ∈ wanted ∧ (outputOf a b name).isSome = true then outputOf a b name
      else s.stable.get? name := by
  induction wanted generalizing s with
  | nil => simp
  | cons other wanted ih =>
    rw [List.foldl_cons, ih, get?_interpretStep]
    by_cases hsame : name = other
    · subst hsame
      by_cases hsome : (outputOf a b name).isSome = true
      · simp [hsome]
      · simp [hsome]
    · simp [hsame]

theorem dropped_foldl_interpretStep (wanted : List String) (s : Interpreted) :
    (wanted.foldl (interpretStep a b) s).dropped =
      s.dropped ++ wanted.filterMap (refusalOf a b) := by
  induction wanted generalizing s with
  | nil => simp
  | cons name wanted ih =>
    rw [List.foldl_cons, ih, dropped_interpretStep, List.append_assoc]
    cases hrefusal : refusalOf a b name with
    | none => rw [List.filterMap_cons_none hrefusal]; rfl
    | some d => rw [List.filterMap_cons_some hrefusal]; rfl

end Loop

variable {first second : ExecResult} {wanted : List String} {name : String}

theorem get?_interpretRuns :
    (interpretRuns first second wanted).stable.get? name =
      if name ∈ wanted then outputOf (byName first) (byName second) name else none := by
  unfold interpretRuns
  rw [get?_foldl_interpretStep, OrderedMap.get?_empty]
  cases houtput : outputOf (byName first) (byName second) name <;> simp

theorem dropped_interpretRuns :
    (interpretRuns first second wanted).dropped =
      wanted.filterMap (refusalOf (byName first) (byName second)) := by
  unfold interpretRuns
  rw [dropped_foldl_interpretStep, List.nil_append]

theorem mem_dropped_interpretRuns :
    name ∈ (interpretRuns first second wanted).dropped.map (·.name) ↔
      name ∈ wanted ∧ outputOf (byName first) (byName second) name = none := by
  rw [dropped_interpretRuns]
  simp only [List.mem_map, List.mem_filterMap]
  constructor
  · rintro ⟨d, ⟨other, hother, hrefusal⟩, rfl⟩
    unfold refusalOf at hrefusal
    unfold outputOf
    cases hout : stableOutput ((byName first).get? other) ((byName second).get? other) with
    | ok out =>
      rw [hout] at hrefusal
      cases hrefusal
    | error reason =>
      rw [hout] at hrefusal
      cases hrefusal
      exact ⟨hother, by rw [hout]⟩
  · rintro ⟨hmem, houtput⟩
    unfold outputOf at houtput
    cases hout : stableOutput ((byName first).get? name) ((byName second).get? name) with
    | ok out =>
      rw [hout] at houtput
      cases houtput
    | error reason =>
      refine ⟨⟨name, reason⟩, ⟨name, hmem, ?_⟩, rfl⟩
      unfold refusalOf
      rw [hout]

/-- Each wanted name is stable or dropped and not both, and no other name is either. -/
structure Partition (wanted : List String) (i : Interpreted) : Prop where
  one : ∀ name ∈ wanted, Xor (i.stable.has name = true) (name ∈ i.dropped.map (·.name))
  only : ∀ name, i.stable.has name = true ∨ name ∈ i.dropped.map (·.name) → name ∈ wanted

theorem interpretRuns_partition (first second : ExecResult) (wanted : List String) :
    Partition wanted (interpretRuns first second wanted) := by
  have hhas : ∀ name, (interpretRuns first second wanted).stable.has name = true ↔
      name ∈ wanted ∧ (outputOf (byName first) (byName second) name).isSome = true := by
    intro name
    unfold OrderedMap.has
    rw [get?_interpretRuns]
    split_ifs with hmem <;> simp [hmem]
  constructor
  · intro name hname
    rw [hhas, mem_dropped_interpretRuns]
    cases outputOf (byName first) (byName second) name with
    | none => exact Or.inr ⟨⟨hname, rfl⟩, fun h => Bool.false_ne_true h.2⟩
    | some out => exact Or.inl ⟨⟨hname, rfl⟩, fun h => Option.some_ne_none _ h.2⟩
  · intro name h
    rw [hhas, mem_dropped_interpretRuns] at h
    exact h.elim And.left And.left

theorem printed_of_stable {out : String}
    (h : (interpretRuns first second wanted).stable.get? name = some out) :
    Printed first name out ∧ Printed second name out := by
  rw [get?_interpretRuns] at h
  split_ifs at h with hmem
  unfold outputOf at h
  split at h
  · rename_i out' hok
    cases h
    exact stableOutput_ok hok
  · cases h

theorem reason_ne_empty {d : DroppedRef}
    (h : d ∈ (interpretRuns first second wanted).dropped) : d.reason ≠ "" := by
  rw [dropped_interpretRuns] at h
  obtain ⟨name, -, hrefusal⟩ := List.mem_filterMap.1 h
  unfold refusalOf at hrefusal
  split at hrefusal
  · cases hrefusal
  · rename_i reason herror
    cases hrefusal
    exact stableOutput_error herror

/-! ## Examples of the statement -/

structure ExampleMismatch where
  index : Nat
  input : String
  expected : String
  actual : String
deriving DecidableEq, Repr

structure ExampleCheck where
  checked : Nat
  mismatches : List ExampleMismatch
deriving DecidableEq, Repr

def mismatchOf (stdoutOf : Nat → Option String) (ex : ExampleProposal × Nat) :
    Option ExampleMismatch :=
  match stdoutOf ex.2 with
  | none => some ⟨ex.2, ex.1.input, ex.1.output, ""⟩
  | some actual =>
    if sameOutput actual ex.1.output then none
    else some ⟨ex.2, ex.1.input, ex.1.output, actual⟩

/-- The examples that stand in the statement, with their indices. -/
def statedExamples (letterOrNumber : Char → Bool) (nfc : List Nat → List Nat)
    (examples : List ExampleProposal) (statement : String) : List (ExampleProposal × Nat) :=
  examples.zipIdx.filter fun ex => exampleIsInStatement letterOrNumber nfc ex.1 statement

def checkExamples (letterOrNumber : Char → Bool) (nfc : List Nat → List Nat)
    (examples : List ExampleProposal) (statement : String) (stdoutOf : Nat → Option String) :
    ExampleCheck :=
  let stated := statedExamples letterOrNumber nfc examples statement
  { checked := stated.length, mismatches := stated.filterMap (mismatchOf stdoutOf) }

variable {letterOrNumber : Char → Bool} {nfc : List Nat → List Nat}
  {examples : List ExampleProposal} {statement : String} {stdoutOf : Nat → Option String}

theorem checkExamples_reproduced
    (h : (checkExamples letterOrNumber nfc examples statement stdoutOf).mismatches = [])
    {ex : ExampleProposal × Nat} (hex : ex ∈ statedExamples letterOrNumber nfc examples statement) :
    ∃ out, stdoutOf ex.2 = some out ∧ sameOutput out ex.1.output = true := by
  have hnone := List.filterMap_eq_nil_iff.1 h ex hex
  unfold mismatchOf at hnone
  split at hnone
  · cases hnone
  · rename_i actual hactual
    split_ifs at hnone with hsame
    exact ⟨actual, hactual, hsame⟩

end Cine.Authoring.Ruler
