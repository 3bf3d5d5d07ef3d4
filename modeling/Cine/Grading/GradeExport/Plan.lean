import Cine.Grading.GradeExport.CellRefs
import Cine.Grading.GradeExport.MssvMatch
import Cine.Lib.Json

/-!
# The plan of an export

`grade-export/plan.ts`, `grade-export/rounding.ts` and the pure part of
`grade-export/grade-export-plan.service.ts` and
`grade-export/grade-export-write.service.ts`: what is written into which
cell of the teacher's file.

* `planRow` decides about one row of the file, and `buildPlan` puts the rows
  together with the counts, the blockers and the digest.
* `computePlan` reads the rows out of the sheet, and `cellEdits` is the list
  of edits that the write step makes of a plan.

The digest is a hash of a text, and the hash is a parameter.
-/

namespace Cine.Grading

open Cine.Lib

/-! ## Rounding -/

/-- `ROUNDING_STEPS`. -/
def roundingSteps : List Int := [1, 10, 25, 50]

def roundHalfUp (hundredths step : Int) : Except String Int :=
  if hundredths < 0 then
    .error s!"{hundredths} không phải số nguyên phần trăm điểm hợp lệ"
  else if step ∉ roundingSteps then .error s!"bước làm tròn {step} không hợp lệ"
  else .ok ((2 * hundredths + step) / (2 * step) * step)

/-! ## The types of a plan -/

structure FileRowInput where
  row : Nat
  mssv : FileCell
  score : FileCell
  reason : Option FileCell
deriving DecidableEq, Repr

structure PlanInput where
  firstDataRow : Nat
  rows : List FileRowInput
  students : List PlanStudent
  /-- What was written last for a student, by the number in lower case. -/
  previous : OrderedMap String Int
  roundingStep : Int
  hasReasonColumn : Bool
  sheetProtected : Bool

inductive RowAction
  | write
  | blank
  | kept
  | unmatched
  | duplicate
  | conflict
  | skippedFormula
  | skippedMerged
deriving DecidableEq, Repr

def RowAction.text : RowAction → String
  | .write => "write"
  | .blank => "blank"
  | .kept => "kept"
  | .unmatched => "unmatched"
  | .duplicate => "duplicate"
  | .conflict => "conflict"
  | .skippedFormula => "skipped_formula"
  | .skippedMerged => "skipped_merged"

inductive Direction
  | up
  | down
  | same
  | new
deriving DecidableEq, Repr

def BlankReason.text : BlankReason → String
  | .absent => "absent"
  | .notFinished => "not_finished"
  | .ungradable => "ungradable"
  | .flagged => "flagged"

structure PlanRow where
  row : Nat
  mssvInFile : String
  studentMssv : Option String
  studentName : Option String
  action : RowAction
  systemHundredths : Option Int
  writtenHundredths : Option Int
  blankReason : Option BlankReason
  previousHundredths : Option Int
  direction : Option Direction
  computationId : Option String
  source : Option OutcomeSource
  note : Option String
  overwritesScore : Bool
  overwritesReason : Bool
  writesReason : Bool
  clearsReason : Bool
deriving DecidableEq, Repr

structure PlanSummary where
  write : Nat
  blank : Nat
  kept : Nat
  unmatched : Nat
  duplicates : Nat
  skipped : Nat
  ignoredEmpty : Nat
  notInFile : Nat
deriving DecidableEq, Repr

structure ExportPlan where
  rows : List PlanRow
  notInFile : List PlanStudent
  summary : PlanSummary
  /-- The numbers of the scores and of the reasons that are overwritten. -/
  overwrite : Nat × Nat
  blockers : List String
  digest : String
deriving DecidableEq, Repr

/-! ## Texts -/

/-- `BLANK_LABELS`. -/
def blankLabel : BlankReason → String
  | .absent => "Vắng — không có bài nộp"
  | .notFinished => "Chưa chấm xong hoặc chưa chốt điểm"
  | .ungradable => "Hệ thống không chấm được bài"
  | .flagged => "Đang chờ giảng viên duyệt"

def isOwnLabel (text : String) : Bool :=
  trim text ∈ [BlankReason.absent, .notFinished, .ungradable, .flagged].map blankLabel

/-- `BLANK_NOTE_TAIL`. -/
def blankNoteTail : BlankReason → String
  | .absent => "không có bài nộp"
  | .notFinished => "chưa chấm xong hoặc chưa chốt điểm"
  | .ungradable => "hệ thống không chấm được"
  | .flagged => "đang chờ giảng viên duyệt"

/-- `vn`: the points with a comma. -/
def vn (hundredths : Int) : String :=
  let whole := hundredths / 100
  let frac := hundredths.tmod 100
  if frac = 0 then s!"{whole},0"
  else if frac.tmod 10 = 0 then s!"{whole},{frac / 10}"
  else
    let digits := String.ofList ((toString frac).toList.leftpad 2 '0')
    s!"{whole},{digits}"

namespace ExportMessages

def protectedSheet : String :=
  "Trang tính đang được bảo vệ. Hãy bỏ bảo vệ trong Excel rồi tải lại."

def duplicates (n : Nat) (examples : String) : String :=
  s!"{n} MSSV xuất hiện nhiều lần trong file ({examples}). Hãy sửa file rồi tải lại — " ++
    "hệ thống không đoán ghi vào dòng nào."

def conflicts (n : Nat) : String :=
  s!"{n} sinh viên có nhiều kết quả trong phạm vi xuất (nhiều yêu cầu nộp, hoặc MSSV trùng " ++
    "khác chữ hoa/thường) — chưa có điểm tổng. Hãy chọn một yêu cầu nộp, hoặc sửa MSSV trong " ++
    "file; hệ thống không đoán điểm nào."

def noMatch (firstDataRow : Nat) : String :=
  s!"Không có dòng nào từ dòng {firstDataRow} khớp sinh viên của phiên — " ++
    "hãy kiểm tra lại cột MSSV và dòng bắt đầu."

def sameColumns : String := "Cột MSSV, cột điểm và cột lý do phải là ba cột khác nhau."

def columnTooFar (col : String) : String :=
  s!"Cột {col} nằm ngoài giới hạn (tối đa cột BH)."

def tooManyRows : String := "Quá 2000 dòng dữ liệu — hãy tách file."

def notFinalized : String :=
  "Phiên chưa chốt điểm — chốt điểm trước rồi mới ghi vào sổ điểm."

end ExportMessages

/-! ## One row -/

/-- `EMPTY_CELL`. -/
def emptyCell : FileCell := ⟨"", .empty, false, false⟩

/-- `cellProblem`: a cell that is not to be touched. -/
def cellProblem (cell : FileCell) (label : String) : Option (RowAction × String) :=
  if cell.hasFormula then some (.skippedFormula, label ++ " có công thức — không ghi.")
  else if cell.mergedNonMaster then
    some (.skippedMerged, label ++ " nằm trong vùng gộp ô — không ghi.")
  else none

/-- `/^\d{1,4}(\.\d{1,2})?$/` and `parseHundredths`. -/
def parseScore (text : String) : Option Int :=
  let l := text.toList
  let whole := l.takeWhile Char.isDigit
  if whole = [] ∨ 4 < whole.length then none
  else
    match l.dropWhile Char.isDigit with
    | [] => some (Nat.ofDigitChars 10 whole 0 * 100)
    | '.' :: frac =>
      if frac = [] ∨ 2 < frac.length ∨ ¬ frac.all Char.isDigit then none
      else some (Nat.ofDigitChars 10 (whole ++ frac.rightpad 2 '0') 0)
    | _ => none

def existingHundredths (cell : FileCell) : Option Int :=
  if cell.kind = .number then parseScore cell.text else none

def blankRow (row : Nat) (mssvInFile : String) : PlanRow where
  row := row
  mssvInFile := mssvInFile
  studentMssv := none
  studentName := none
  action := .unmatched
  systemHundredths := none
  writtenHundredths := none
  blankReason := none
  previousHundredths := none
  direction := none
  computationId := none
  source := none
  note := none
  overwritesScore := false
  overwritesReason := false
  writesReason := false
  clearsReason := false

namespace PlanInput

variable (nfkc : String → String) (input : PlanInput)

/-- The rows whose student cell is not blank, with their match. -/
def firstPass : List (FileRowInput × MatchResult) :=
  (input.rows.filter fun file =>
    ¬ (file.mssv.kind = .empty ∨ normalizeMssv nfkc file.mssv.text = "")).map fun file =>
      (file, matchMssv nfkc file.mssv (buildMssvIndex input.students))

/-- The number in lower case and the row of the rows with a match. -/
def matchedRows : List (String × Nat) :=
  (input.firstPass nfkc).filterMap fun p =>
    match p.2 with
    | .matched student _ => some (lowerCase student.mssv, p.1.row)
    | .unmatched _ _ => none

def rowsByStudent : OrderedMap String (List (String × Nat)) :=
  .groupBy Prod.fst (input.matchedRows nfkc)

def rowsOf (key : String) : List Nat :=
  (((input.rowsByStudent nfkc).get? key).getD []).map Prod.snd

def duplicated : List String :=
  ((input.rowsByStudent nfkc).entries.filter fun e => 1 < e.2.length).map Prod.fst

def byKey : OrderedMap String PlanStudent :=
  .ofList (input.students.map fun s => (lowerCase s.mssv, s))

/-- The direction of a written score, against the last export. -/
def directionOf (previous : Option Int) (written : Int) : Option Direction :=
  if input.previous.entries = [] then none
  else
    match previous with
    | none => some .new
    | some p => some (if written > p then .up else if written < p then .down else .same)

/-- The cell of the reason, where the request has a column for it. -/
def reasonCell (file : FileRowInput) : Option FileCell :=
  if input.hasReasonColumn then some (file.reason.getD emptyCell) else none

/-- Whether the reason of the row is a label of an earlier export. -/
def clearsReason (file : FileRowInput) : Bool :=
  (input.reasonCell file).any fun cell => cell.kind = .text ∧ isOwnLabel cell.text

/-- A row whose student has a score. -/
def scoredRow (file : FileRowInput) (known : PlanRow) (previous : Option Int)
    (hundredths : Int) (computationId : Option String) (source : OutcomeSource) :
    Except String PlanRow :=
  let clears := input.clearsReason file
  let problem := (cellProblem file.score "Ô điểm").or
    (if clears then (input.reasonCell file).bind (cellProblem · "Ô lý do") else none)
  match problem with
  | some (action, note) => .ok { known with action := action, note := some note }
  | none => do
    let written ← roundHalfUp hundredths input.roundingStep
    return { known with
      action := .write
      systemHundredths := some hundredths
      writtenHundredths := some written
      previousHundredths := previous
      direction := input.directionOf previous written
      computationId := computationId
      source := some source
      overwritesScore := file.score.kind ≠ .empty ∧ existingHundredths file.score ≠ some written
      clearsReason := clears }

/-- A row whose student has no score. -/
def blankOutcomeRow (file : FileRowInput) (known : PlanRow) (previous : Option Int)
    (reason : BlankReason) : PlanRow :=
  let cell := input.reasonCell file
  match cell.bind (cellProblem · "Ô lý do") with
  | some (action, note) => { known with action := action, note := some note }
  | none =>
    { known with
      action := if previous.isSome then .kept else .blank
      blankReason := some reason
      previousHundredths := previous
      writesReason := cell.isSome
      overwritesReason := cell.any fun c => c.kind ≠ .empty ∧ ¬ isOwnLabel c.text
      note :=
        match previous with
        | some p =>
          some (s!"Lần trước đã ghi {vn p}; lần này bài {blankNoteTail reason} — " ++
            "giữ nguyên ô điểm.")
        | none => known.note }

def planRow (file : FileRowInput) (m : MatchResult) : Except String PlanRow :=
  let base := blankRow file.row (normalizeMssv nfkc file.mssv.text)
  match m with
  | .unmatched _ note => .ok { base with note := some note }
  | .matched found note =>
    let key := lowerCase found.mssv
    match input.byKey.get? key with
    | none => .error "Cannot read properties of undefined (reading 'mssv')"
    | some student =>
      let known := { base with
        studentMssv := some student.mssv, studentName := some student.name, note := note }
      if key ∈ input.duplicated nfkc then
        let rows := ", ".intercalate ((input.rowsOf nfkc key).map toString)
        .ok { known with
          action := .duplicate, note := some s!"MSSV trùng ở các dòng {rows}." }
      else
        let previous := input.previous.get? key
        match student.outcome with
        | .scored hundredths computationId source =>
          input.scoredRow file known previous hundredths computationId source
        | .conflict reason =>
          .ok { known with
            action := .conflict, note := some reason, previousHundredths := previous }
        | .blank reason => .ok (input.blankOutcomeRow file known previous reason)

/-! ## The plan -/

/-- The students without a row in the file, in the order of their numbers. -/
def notInFile : List PlanStudent :=
  (input.students.filter fun s => ¬ (input.rowsByStudent nfkc).has (lowerCase s.mssv)).insertionSort
    fun a b => utf16 (lowerCase a.mssv) ≤ utf16 (lowerCase b.mssv)

/-- The number of rows with one of the actions. -/
def count (rows : List PlanRow) (actions : List RowAction) : Nat :=
  rows.countP fun r => r.action ∈ actions

/-- What speaks against writing the plan. -/
def blockers (rows : List PlanRow) : List String :=
  let duplicated := input.duplicated nfkc
  let conflicted := count rows [.conflict]
  (if input.sheetProtected then [ExportMessages.protectedSheet] else []) ++
    (if duplicated ≠ [] then
      let examples := ", ".intercalate <|
        (duplicated.take 3).map fun k => ((input.byKey.get? k).map PlanStudent.mssv).getD ""
      [ExportMessages.duplicates duplicated.length examples]
    else []) ++
    (if 0 < conflicted then [ExportMessages.conflicts conflicted] else []) ++
    (if count rows [.write, .blank, .kept] = 0 then [ExportMessages.noMatch input.firstDataRow]
    else [])

end PlanInput

/-- What the digest has of a row: the row, the action, the number of the
student, the written score, the reason of a blank, and whether a reason is
written or cleared. -/
abbrev DigestRow :=
  Int × String × Option String × Option Int × Option String × Bool × Bool

def PlanRow.digestRow (r : PlanRow) : DigestRow :=
  (r.row, r.action.text, r.studentMssv, r.writtenHundredths, r.blankReason.map BlankReason.text,
    r.writesReason, r.clearsReason)

namespace ExportPlan

open Json

def rowText : DigestRow → List Char :=
  label "[" <| close
    (pair int <| pair str <| pair (option str) <| pair (option int) <| pair (option str) <|
      pair bool bool) ']'

def digestText : Int × Bool × List DigestRow × List String → List Char :=
  close
    (pair (label "\x7b\"step\":" int) <| pair (label "\"reason\":" bool) <|
      pair (label "\"rows\":" (list rowText)) (label "\"notInFile\":" (list str))) '\x7d'

end ExportPlan

def buildPlan (nfkc sha256 : String → String) (input : PlanInput) : Except String ExportPlan := do
  let first := input.firstPass nfkc
  let rows ← first.mapM fun p => input.planRow nfkc p.1 p.2
  let notInFile := input.notInFile nfkc
  let count := PlanInput.count rows
  return {
    rows := rows
    notInFile := notInFile
    summary :=
      { write := count [.write]
        blank := count [.blank]
        kept := count [.kept]
        unmatched := count [.unmatched]
        duplicates := count [.duplicate]
        skipped := count [.skippedFormula, .skippedMerged]
        ignoredEmpty := input.rows.length - first.length
        notInFile := notInFile.length }
    overwrite := (rows.countP PlanRow.overwritesScore, rows.countP PlanRow.overwritesReason)
    blockers := input.blockers nfkc rows
    digest := sha256 <| String.ofList <| ExportPlan.digestText
      (input.roundingStep, input.hasReasonColumn, rows.map PlanRow.digestRow,
        notInFile.map PlanStudent.mssv) }

/-! ## The sheet and the request -/

structure CellRead where
  text : String
  kind : CellKind
  hasFormula : Bool
deriving DecidableEq, Repr

structure MergeRange where
  col1 : Nat
  row1 : Nat
  col2 : Nat
  row2 : Nat
deriving DecidableEq, Repr

structure SheetRead where
  isProtected : Bool
  rowCount : Nat
  /-- By reference. -/
  cells : OrderedMap String CellRead
  merges : List MergeRange

def SheetRead.cellAt (sheet : SheetRead) (col row : Nat) : CellRead :=
  (sheet.cells.get? (cellRef (indexToCol col) row)).getD ⟨"", .empty, false⟩

def MergeRange.has (m : MergeRange) (col row : Nat) : Bool :=
  m.col1 ≤ col ∧ col ≤ m.col2 ∧ m.row1 ≤ row ∧ row ≤ m.row2

/-- `isMergedNonMaster`: in a merged range, and not its first cell. -/
def SheetRead.isMergedNonMaster (sheet : SheetRead) (col row : Nat) : Bool :=
  sheet.merges.any fun m => m.has col row && !(col = m.col1 && row = m.row1)

def SheetRead.fileCell (sheet : SheetRead) (col row : Nat) : FileCell :=
  let cell := sheet.cellAt col row
  { text := cell.text
    kind := cell.kind
    hasFormula := cell.hasFormula
    mergedNonMaster := sheet.isMergedNonMaster col row }

/-- A request, after the checks of its form. -/
structure PlanDto where
  firstDataRow : Nat
  mssvColumn : Column
  scoreColumn : Column
  reasonColumn : Option Column
  roundingStepHundredths : Int

namespace PlanDto

def columns (dto : PlanDto) : List String :=
  [dto.mssvColumn.letters, dto.scoreColumn.letters] ++ (dto.reasonColumn.map Column.letters).toList

/-- The row numbers from the first data row on. -/
def rowNumbers (dto : PlanDto) (sheet : SheetRead) : List Nat :=
  (List.range (sheet.rowCount + 1 - dto.firstDataRow)).map (dto.firstDataRow + ·)

def fileRow (dto : PlanDto) (sheet : SheetRead) (row : Nat) : FileRowInput where
  row := row
  mssv := sheet.fileCell (colToIndex dto.mssvColumn.letters) row
  score := sheet.fileCell (colToIndex dto.scoreColumn.letters) row
  reason := dto.reasonColumn.map fun c => sheet.fileCell (colToIndex c.letters) row

/-- What `buildPlan` is given. -/
def planInput (dto : PlanDto) (sheet : SheetRead) (students : List PlanStudent)
    (previous : OrderedMap String Int) : PlanInput where
  firstDataRow := dto.firstDataRow
  rows := (dto.rowNumbers sheet).map (dto.fileRow sheet)
  students := students
  previous := previous
  roundingStep := dto.roundingStepHundredths
  hasReasonColumn := dto.reasonColumn.isSome
  sheetProtected := sheet.isProtected

end PlanDto

/-- `MAX_COLUMNS`. -/
def maxColumns : Nat := 60

/-- `MAX_DATA_ROWS`. -/
def maxDataRows : Nat := 2000

/-- `computePlan`, from the sheet and what the database gave: the students
with the number of published results, and the last written scores. -/
def computePlan (nfkc sha256 : String → String) (dto : PlanDto) (sheet : SheetRead)
    (students : List PlanStudent × Nat) (previous : OrderedMap String Int) :
    Except String ExportPlan := do
  if ¬ dto.columns.Nodup then
    throw ExportMessages.sameColumns
  match dto.columns.find? fun c => maxColumns < colToIndex c with
  | some c => throw (ExportMessages.columnTooFar c)
  | none => pure ()
  if maxDataRows < sheet.rowCount + 1 - dto.firstDataRow then
    throw ExportMessages.tooManyRows
  if students.2 = 0 then
    throw ExportMessages.notFinalized
  buildPlan nfkc sha256 (dto.planInput sheet students.1 previous)

/-! ## The edits -/

inductive CellEdit
  | number (ref : String) (hundredths : Int)
  | text (ref : String) (text : String)
  | clear (ref : String)
deriving DecidableEq, Repr

def CellEdit.ref : CellEdit → String
  | .number ref _ => ref
  | .text ref _ => ref
  | .clear ref => ref

def rowEdits (dto : PlanDto) (r : PlanRow) : List CellEdit :=
  match r.action with
  | .write =>
    (r.writtenHundredths.map fun h =>
        CellEdit.number (cellRef dto.scoreColumn.letters r.row) h).toList ++
      (if r.clearsReason then
        (dto.reasonColumn.map fun c => CellEdit.clear (cellRef c.letters r.row)).toList
      else [])
  | .blank | .kept =>
    if r.writesReason then
      (dto.reasonColumn.bind fun c => r.blankReason.map fun reason =>
        CellEdit.text (cellRef c.letters r.row) (blankLabel reason)).toList
    else []
  | _ => []

def cellEdits (dto : PlanDto) (plan : ExportPlan) : List CellEdit :=
  plan.rows.flatMap (rowEdits dto)

end Cine.Grading
