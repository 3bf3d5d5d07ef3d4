import Cine.Grading.Gradebook.LoadStudents

/-!
# Matching a cell with a student

`grade-export/mssv-match.ts`.  A cell of the student column is matched with
a student of the session by the number in lower case.  A number cell may
have lost its zeros in front; it is matched without them where just one
student fits.

Unicode normalisation is a parameter.
-/

namespace Cine.Grading

open Cine.Lib

inductive CellKind
  | empty
  | text
  | number
  | other
deriving DecidableEq, Repr

/-- A cell of the file, as far as the plan reads it. -/
structure FileCell where
  text : String
  kind : CellKind
  hasFormula : Bool
  mergedNonMaster : Bool
deriving DecidableEq, Repr

inductive UnmatchedReason
  | notFound
  | ambiguous
  | notMssv
deriving DecidableEq, Repr

inductive MatchResult
  | matched (student : PlanStudent) (note : Option String)
  | unmatched (reason : UnmatchedReason) (note : String)
deriving DecidableEq, Repr

/-- `MSSV_SHAPE`. -/
def mssvShape (text : String) : Bool :=
  let l := text.toList
  4 ≤ l.length ∧ l.length ≤ 20 ∧ l.all Char.isAlphanum

/-- `normalizeMssv`: without characters of no width, in the form NFKC, and
trimmed. -/
def normalizeMssv (nfkc : String → String) (raw : String) : String :=
  let wide := raw.toList.filter fun c =>
    ¬ ((0x200B ≤ c.toNat ∧ c.toNat ≤ 0x200D) ∨ c.toNat = 0xFEFF)
  trim (nfkc (String.ofList wide))

/-- Zeros in front, as long as something stands behind them. -/
def dropZeros : List Char → List Char
  | c :: d :: l => if c = '0' then dropZeros (d :: l) else c :: d :: l
  | l => l

def stripZeros (s : String) : String := String.ofList (dropZeros s.toList)

structure MssvIndex where
  byLower : OrderedMap String PlanStudent
  byStripped : OrderedMap String (List PlanStudent)

/-- `buildMssvIndex`: the last student of a number wins, and the students
without zeros in front are kept in their order. -/
def buildMssvIndex (students : List PlanStudent) : MssvIndex where
  byLower := .ofList (students.map fun s => (lowerCase s.mssv, s))
  byStripped := .groupBy (fun s => stripZeros (lowerCase s.mssv)) students

/-- The students whose number without zeros in front is the text without
them. -/
def MssvIndex.candidates (index : MssvIndex) (text : String) : List PlanStudent :=
  ((index.byStripped.get? (stripZeros text)).getD []).filter fun s =>
    lowerCase s.mssv ≠ lowerCase text

/-- The end of `matchMssv`, for a number cell. -/
def matchCandidates : List PlanStudent → MatchResult
  | [] => .unmatched .notFound "Không có trong danh sách sinh viên của phiên."
  | [s] => .matched s (some "Khớp sau khi bỏ số 0 đầu (ô số).")
  | candidates =>
    .unmatched .ambiguous
      s!"Mơ hồ: {candidates.length} MSSV của phiên cùng khớp sau khi bỏ số 0 đầu."

def matchMssv (nfkc : String → String) (cell : FileCell) (index : MssvIndex) : MatchResult :=
  let text := normalizeMssv nfkc cell.text
  if ¬ mssvShape text then
    .unmatched .notMssv "Không giống MSSV (4–20 chữ hoặc số, không dấu cách)."
  else
    match index.byLower.get? (lowerCase text) with
    | some exact => .matched exact none
    | none =>
      if cell.kind = .number ∧ text.toList.all Char.isDigit then
        matchCandidates (index.candidates text)
      else .unmatched .notFound "Không có trong danh sách sinh viên của phiên."

/-! ## The order of the students -/

theorem matchCandidates_perm {candidates candidates' : List PlanStudent}
    (h : candidates.Perm candidates') :
    matchCandidates candidates = matchCandidates candidates' := by
  match candidates, candidates', h with
  | [], candidates', h => rw [h.nil_eq]
  | [s], candidates', h => rw [List.singleton_perm.1 h]
  | s :: t :: rest, [], h => exact absurd h.length_eq (by simp)
  | s :: t :: rest, [s'], h => exact absurd h.length_eq (by simp)
  | s :: t :: rest, s' :: t' :: rest', h => simp only [matchCandidates, h.length_eq]

theorem matchMssv_perm {nfkc : String → String} {students students' : List PlanStudent}
    (hnd : (students.map fun s => lowerCase s.mssv).Nodup) (h : students.Perm students')
    (cell : FileCell) :
    matchMssv nfkc cell (buildMssvIndex students) =
      matchMssv nfkc cell (buildMssvIndex students') := by
  have hlower : ∀ key, (buildMssvIndex students).byLower.get? key =
      (buildMssvIndex students').byLower.get? key := by
    refine OrderedMap.get?_ofList_perm ?_ (h.map _)
    simpa [List.map_map, Function.comp_def] using hnd
  have hcandidates : ∀ text, ((buildMssvIndex students).candidates text).Perm
      ((buildMssvIndex students').candidates text) := by
    intro text
    unfold MssvIndex.candidates
    rw [buildMssvIndex, buildMssvIndex, OrderedMap.get?_groupBy, OrderedMap.get?_groupBy]
    exact (h.filter _).filter _
  unfold matchMssv
  simp only [hlower, matchCandidates_perm (hcandidates _)]

end Cine.Grading
