import Cine.Authoring.AuthoringBundle
import Cine.Lib.Machine

/-!
# The draft of a test bundle

`lib/test-case-draft.ts`: a saved bundle never changes, so an edit of its cases
is a draft that is sent as a new bundle.

* `startDraft` to `toCreateInput` are the operations, `step` one of them as the
  editor calls it.  A form opens on an active row only (`Edit.onActive`).
* `Slot` says what a saved case has become, by the last edit of it alone.
* `sendsWhatIsSeen_iff`: a saved case that is edited back is sent as saved, for
  every run, just when no group of the bundle has white space at its ends.
-/

namespace Cine.Authoring

open Cine.Lib

/-- `s.trimEnd()`. -/
def trimEnd (s : String) : String :=
  String.ofList (s.toList.rdropWhile isSpace)

inductive RowState
  | same
  | added
  | edited
  | removed
  | dropped
deriving DecidableEq, Repr

structure CaseValues where
  caseKey : String
  group : String
  input : String
  expectedOutput : String
deriving DecidableEq, Repr

/-- `TestBundleCase`, a case of a saved bundle. -/
structure TestBundleCase extends CaseValues where
  constraintQuote : Option String
  autoDroppedReason : Option String
deriving DecidableEq, Repr

structure DraftRow extends CaseValues where
  constraintQuote : Option String
  autoDroppedReason : Option String
  state : RowState
  base : Option CaseValues
  baseQuote : Option String
deriving DecidableEq, Repr

structure CaseErrors where
  caseKey : Option String
  group : Option String
deriving DecidableEq, Repr

structure TestBundleCaseInput extends CaseValues where
  constraintQuote : Option String
deriving DecidableEq, Repr

def sameValues (a b : CaseValues) : Bool :=
  a.caseKey = b.caseKey && a.group = b.group && a.input = b.input &&
    trimEnd a.expectedOutput = trimEnd b.expectedOutput

def DraftRow.isActive (row : DraftRow) : Bool :=
  row.state ≠ .removed && row.state ≠ .dropped

def startRow (c : TestBundleCase) : DraftRow :=
  let dropped := c.autoDroppedReason.isSome
  { toCaseValues := c.toCaseValues
    constraintQuote := c.constraintQuote
    autoDroppedReason := c.autoDroppedReason
    state := if dropped then .dropped else .same
    base := if dropped then none else some c.toCaseValues
    baseQuote := c.constraintQuote }

def startDraft (cases : List TestBundleCase) : List DraftRow :=
  cases.map startRow

/-- `skipIndex` is the row that is edited. -/
def validateCase (values : CaseValues) (rows : List DraftRow) (skipIndex : Option Nat) :
    CaseErrors :=
  let key := trim values.caseKey
  let taken := rows.zipIdx.any fun (row, i) =>
    some i ≠ skipIndex && row.isActive && row.caseKey = key
  let group := trim values.group
  { caseKey :=
      if key = "" then some "Nhập tên ca, ví dụ ca6."
      else if 64 < (utf16 key).length then some "Tên ca tối đa 64 ký tự."
      else if !isCaseKey key.toList then
        some "Tên ca chỉ gồm chữ, số, dấu _ và -, tối đa 64 ký tự."
      else if taken then some s!"Tên ca \"{key}\" đã có trong gói."
      else none
    group :=
      if group = "" then some "Chọn hoặc nhập nhóm, ví dụ co_ban."
      else if 100 < (utf16 group).length then some "Nhóm dài quá 100 ký tự."
      else none }

def normalize (v : CaseValues) : CaseValues :=
  { caseKey := trim v.caseKey
    group := trim v.group
    input := v.input
    expectedOutput := trimEnd v.expectedOutput }

def addRow (rows : List DraftRow) (values : CaseValues) : List DraftRow :=
  rows ++ [⟨normalize values, none, none, .added, none, none⟩]

/-- What `editRow` makes of the row it is called for. -/
def DraftRow.edit (values : CaseValues) (row : DraftRow) : DraftRow :=
  let v := normalize values
  if row.state = .dropped then row
  else
    match row.base with
    | none => { row with toCaseValues := v }
    | some base =>
      if sameValues v base then
        { row with toCaseValues := base, state := .same, constraintQuote := row.baseQuote }
      else { row with toCaseValues := v, state := .edited, constraintQuote := none }

def editRow (rows : List DraftRow) (index : Nat) (values : CaseValues) : List DraftRow :=
  rows.modify index (DraftRow.edit values)

def removeRow (rows : List DraftRow) (index : Nat) : List DraftRow :=
  match rows[index]? with
  | none => rows
  | some row =>
    if row.state = .dropped then rows
    else if row.state = .added then rows.eraseIdx index
    else rows.modify index fun row => { row with state := .removed }

/-- What `undoRow` makes of the row it is called for. -/
def DraftRow.undo (row : DraftRow) : DraftRow :=
  if row.state ≠ .removed then row
  else if row.base.any (sameValues row.toCaseValues) then { row with state := .same }
  else { row with state := .edited }

def undoRow (rows : List DraftRow) (index : Nat) : List DraftRow :=
  rows.modify index DraftRow.undo

def changesCount (rows : List DraftRow) : Nat :=
  rows.countP fun row => row.state = .added || row.state = .edited || row.state = .removed

/-- The first key that another row has used before. -/
def doubleKey (seen : List String) : List DraftRow → Option String
  | [] => none
  | row :: rows =>
    if row.caseKey ∈ seen then some row.caseKey else doubleKey (row.caseKey :: seen) rows

def saveBlocker (rows : List DraftRow) (formOpen : Bool) : Option String :=
  if formOpen then some "Lưu hoặc huỷ ca đang nhập trước."
  else if !rows.any DraftRow.isActive then some "Gói cần ít nhất một ca đang dùng."
  else
    match doubleKey [] (rows.filter DraftRow.isActive) with
    | some key => some s!"Có hai ca cùng tên \"{key}\" trong bản nháp — đổi tên một trong hai."
    | none => if changesCount rows = 0 then some "Chưa có thay đổi nào để lưu." else none

/-- A quote as it is sent: an empty one is none, a long one is cut. -/
def sentQuote (quote : Option String) : Option String :=
  (quote.filter (· ≠ "")).map fun q => sliceFront q 2000

def DraftRow.toInput (row : DraftRow) : TestBundleCaseInput :=
  { toCaseValues := row.toCaseValues
    constraintQuote := if row.state = .same then sentQuote row.constraintQuote else none }

def toCreateInput (rows : List DraftRow) : List TestBundleCaseInput :=
  (rows.filter DraftRow.isActive).map DraftRow.toInput

/-! ## Runs of the editor -/

inductive Edit
  | addRow (values : CaseValues)
  | editRow (index : Nat) (values : CaseValues)
  | removeRow (index : Nat)
  | undoRow (index : Nat)
deriving DecidableEq, Repr

def step (rows : List DraftRow) : Edit → List DraftRow
  | .addRow values => addRow rows values
  | .editRow index values => editRow rows index values
  | .removeRow index => removeRow rows index
  | .undoRow index => undoRow rows index

/-- A form is open on an active row only. -/
def Edit.onActive (rows : List DraftRow) : Edit → Prop
  | .editRow index _ => ∀ row ∈ rows[index]?, row.isActive = true
  | _ => True

/-- The form found nothing wrong. -/
def Edit.validated (rows : List DraftRow) : Edit → Prop
  | .addRow values => validateCase values rows none = ⟨none, none⟩
  | .editRow index values => validateCase values rows (some index) = ⟨none, none⟩
  | _ => True

/-- The values that the last edit of row `i` sets. -/
def lastEdit (i : Nat) (edits : List Edit) : Option CaseValues :=
  edits.foldl (fun last e =>
    match e with
    | .editRow index values => if index = i then some values else last
    | _ => last) none

/-- The case as saved, as a new bundle would have it. -/
def TestBundleCase.asSaved (c : TestBundleCase) : TestBundleCaseInput :=
  { toCaseValues := c.toCaseValues, constraintQuote := sentQuote c.constraintQuote }

def liveCases (cases : List TestBundleCase) : List TestBundleCase :=
  cases.filter fun c => c.autoDroppedReason.isNone

/-- What the teacher sees is what is sent, after `edits` on the draft of `cases`. -/
structure SendsWhatIsSeen (cases : List TestBundleCase) (edits : List Edit)
    (rows : List DraftRow) : Prop where
  dropped : ∀ (i : Nat) c, cases[i]? = some c → c.autoDroppedReason.isSome →
    rows[i]? = some (startRow c) ∧ (startRow c).isActive = false
  sent : (toCreateInput rows).map (·.toCaseValues) =
    (rows.filter DraftRow.isActive).map (·.toCaseValues)
  asSaved : ∀ (i : Nat) c row, cases[i]? = some c → c.autoDroppedReason = none →
    rows[i]? = some row → row.isActive →
    lastEdit i edits = none ∨ lastEdit i edits = some c.toCaseValues → row.toInput = c.asSaved
  edited : ∀ (i : Nat) c row v, cases[i]? = some c → c.autoDroppedReason = none →
    rows[i]? = some row → lastEdit i edits = some v →
    sameValues (normalize v) c.toCaseValues = false →
    row.toInput = { toCaseValues := normalize v, constraintQuote := none }
  withoutQuote : ∀ row ∈ rows, row.state = .edited ∨ row.state = .added →
    row.toInput.constraintQuote = none
  unchanged : changesCount rows = 0 → toCreateInput rows = (liveCases cases).map (·.asSaved)
  keys : AllAllowed step Edit.validated (startDraft cases) edits → ∀ formOpen,
    saveBlocker rows formOpen = none →
      toCreateInput rows ≠ [] ∧ ((toCreateInput rows).map (·.caseKey)).Nodup ∧
        ∀ input ∈ toCreateInput rows, isCaseKey input.caseKey.toList = true

/-! ## What a saved case has become -/

/-- The values that the last edit puts in the place of the saved ones, if they are others. -/
def changedBy (c : TestBundleCase) (last : Option CaseValues) : Option CaseValues :=
  (last.map normalize).filter fun v => !sameValues v c.toCaseValues

inductive Slot (c : TestBundleCase) (last : Option CaseValues) : DraftRow → Prop
  | dropped (reason : c.autoDroppedReason.isSome) : Slot c last (startRow c)
  | kept (live : c.autoDroppedReason = none) (same : changedBy c last = none) (state : RowState)
      (h : state = .same ∨ state = .removed) : Slot c last { startRow c with state := state }
  | changed (live : c.autoDroppedReason = none) (v : CaseValues)
      (other : changedBy c last = some v) (state : RowState)
      (h : state = .edited ∨ state = .removed) :
      Slot c last { startRow c with toCaseValues := v, constraintQuote := none, state := state }

theorem sameValues_self (v : CaseValues) : sameValues v v = true := by
  simp [sameValues]

theorem changedBy_some (c : TestBundleCase) (v : CaseValues) :
    changedBy c (some v) =
      if sameValues (normalize v) c.toCaseValues then none else some (normalize v) := by
  unfold changedBy
  cases h : sameValues (normalize v) c.toCaseValues <;> simp [h]

variable {c : TestBundleCase} {last : Option CaseValues} {row : DraftRow}

theorem sameValues_of_changedBy {v : CaseValues} (h : changedBy c last = some v) :
    sameValues v c.toCaseValues = false := by
  unfold changedBy at h
  simpa using (Option.filter_eq_some_iff.1 h).2

theorem startRow_live (live : c.autoDroppedReason = none) :
    startRow c = ⟨c.toCaseValues, c.constraintQuote, none, .same, some c.toCaseValues,
      c.constraintQuote⟩ := by
  simp [startRow, live]

theorem startRow_dropped (reason : c.autoDroppedReason.isSome) : (startRow c).state = .dropped := by
  simp [startRow, reason]

theorem Slot.edit (h : Slot c last row) (v : CaseValues) (hactive : row.isActive) :
    Slot c (some v) (row.edit v) := by
  have hedit : ∀ r : DraftRow, r.state ≠ .dropped → r.base = some c.toCaseValues →
      r.baseQuote = c.constraintQuote → r.autoDroppedReason = none →
      c.autoDroppedReason = none → Slot c (some v) (r.edit v) := by
    intro r hstate hbase hquote hreason live
    have hchanged := changedBy_some c v
    unfold DraftRow.edit
    simp only [hstate, if_false, hbase]
    split_ifs with hsame
    · rw [if_pos hsame] at hchanged
      have hslot := Slot.kept live hchanged .same (Or.inl rfl)
      simpa [startRow_live live, hbase, hquote, hreason] using hslot
    · rw [if_neg hsame] at hchanged
      have hslot := Slot.changed live _ hchanged .edited (Or.inl rfl)
      simpa [startRow_live live, hbase, hquote, hreason] using hslot
  cases h with
  | dropped reason => simp [DraftRow.isActive, startRow_dropped reason] at hactive
  | kept live same state hstate =>
    apply hedit
    · simp
      rcases hstate with rfl | rfl <;> simp
    all_goals simp [startRow_live live, live]
  | changed live v' other state hstate =>
    apply hedit
    · simp
      rcases hstate with rfl | rfl <;> simp
    all_goals simp [startRow_live live, live]

theorem Slot.state_ne_added (h : Slot c last row) : row.state ≠ .added := by
  cases h with
  | dropped reason => simp [startRow_dropped reason]
  | kept live same state hstate => rcases hstate with rfl | rfl <;> simp
  | changed live v other state hstate => rcases hstate with rfl | rfl <;> simp

theorem Slot.remove (h : Slot c last row) (hstate : row.state ≠ .dropped) :
    Slot c last { row with state := .removed } := by
  cases h with
  | dropped reason => exact absurd (startRow_dropped reason) hstate
  | kept live same state _ => exact .kept live same .removed (Or.inr rfl)
  | changed live v other state _ => exact .changed live v other .removed (Or.inr rfl)

theorem Slot.undo (h : Slot c last row) : Slot c last row.undo := by
  unfold DraftRow.undo
  split_ifs with hstate hsame
  · exact h
  · cases h with
    | dropped reason => simp [startRow_dropped reason] at hstate
    | kept live same state _ => exact .kept live same .same (Or.inl rfl)
    | changed live v other state _ =>
      have hdiffers := sameValues_of_changedBy other
      simp [startRow_live live, hdiffers] at hsame
  · cases h with
    | dropped reason => simp [startRow_dropped reason] at hstate
    | kept live same state _ =>
      simp [startRow_live live, sameValues_self] at hsame
    | changed live v other state _ => exact .changed live v other .edited (Or.inl rfl)

/-! ## What every run keeps -/

/-- The saved cases stay in their places, and the rows behind them are added ones. -/
structure InPlace (cases : List TestBundleCase) (edits : List Edit) (rows : List DraftRow) :
    Prop where
  slots : ∀ (i : Nat) c, cases[i]? = some c →
    ∃ row, rows[i]? = some row ∧ Slot c (lastEdit i edits) row
  added : ∀ (i : Nat) row, cases.length ≤ i → rows[i]? = some row →
    row.state = .added ∧ row.base = none

section Runs

variable {cases : List TestBundleCase} {edits : List Edit} {rows : List DraftRow}

theorem lastEdit_concat (i : Nat) (edits : List Edit) (e : Edit) :
    lastEdit i (edits ++ [e]) =
      match e with
      | .editRow index values => if index = i then some values else lastEdit i edits
      | _ => lastEdit i edits := by
  unfold lastEdit
  rw [List.foldl_append, List.foldl_cons, List.foldl_nil]

theorem inPlace_start (cases : List TestBundleCase) : InPlace cases [] (startDraft cases) := by
  constructor
  · intro i c hc
    refine ⟨startRow c, ?_, ?_⟩
    · unfold startDraft
      rw [List.getElem?_map, hc]
      rfl
    · cases hreason : c.autoDroppedReason with
      | none =>
        have hslot : Slot c none { startRow c with state := .same } :=
          .kept hreason rfl .same (Or.inl rfl)
        simpa [lastEdit, startRow_live hreason] using hslot
      | some reason => exact .dropped (by rw [hreason]; rfl)
  · intro i row hi hrow
    have hlt := (List.getElem?_eq_some_iff.1 hrow).1
    unfold startDraft at hlt
    rw [List.length_map] at hlt
    omega

theorem InPlace.modify (h : InPlace cases edits rows) (index : Nat) (f : DraftRow → DraftRow)
    (e : Edit) (hlast : ∀ i, i ≠ index → lastEdit i (edits ++ [e]) = lastEdit i edits)
    (hslot : ∀ c row, rows[index]? = some row → Slot c (lastEdit index edits) row →
      Slot c (lastEdit index (edits ++ [e])) (f row))
    (hadded : ∀ row, rows[index]? = some row → row.state = .added → row.base = none →
      (f row).state = .added ∧ (f row).base = none) :
    InPlace cases (edits ++ [e]) (rows.modify index f) := by
  constructor
  · intro i c hc
    obtain ⟨row, hrow, hold⟩ := h.slots i c hc
    rw [List.getElem?_modify, hrow]
    by_cases hi : index = i
    · subst hi
      refine ⟨f row, by simp, hslot c row hrow hold⟩
    · refine ⟨row, by simp [hi], ?_⟩
      rw [hlast i fun heq => hi heq.symm]
      exact hold
  · intro i row hi hrow
    rw [List.getElem?_modify] at hrow
    obtain ⟨old, hold, heq⟩ := Option.map_eq_some_iff.1 hrow
    obtain ⟨hstate, hbase⟩ := h.added i old hi hold
    subst heq
    split_ifs with hindex
    · subst hindex
      exact hadded old hold hstate hbase
    · exact ⟨hstate, hbase⟩

theorem InPlace.remove (h : InPlace cases edits rows) (index : Nat) :
    InPlace cases (edits ++ [.removeRow index]) (removeRow rows index) := by
  have hlast : ∀ i, lastEdit i (edits ++ [.removeRow index]) = lastEdit i edits :=
    fun i => lastEdit_concat i edits _
  have hsame : InPlace cases (edits ++ [.removeRow index]) rows :=
    ⟨fun i c hc => by rw [hlast]; exact h.slots i c hc, h.added⟩
  unfold removeRow
  cases hrow : rows[index]? with
  | none => exact hsame
  | some row =>
    dsimp only
    split_ifs with hdropped hstate
    · exact hsame
    · -- An added row stands behind the saved cases.
      have hbehind : cases.length ≤ index := by
        by_contra hfront
        have hc := List.getElem?_eq_getElem (Nat.lt_of_not_le hfront)
        obtain ⟨row', hrow', hslot⟩ := h.slots index _ hc
        rw [hrow] at hrow'
        obtain rfl := Option.some.inj hrow'
        exact hslot.state_ne_added hstate
      constructor
      · intro i c hc
        have hi := (List.getElem?_eq_some_iff.1 hc).1
        rw [List.getElem?_eraseIdx_of_lt (by omega), hlast]
        exact h.slots i c hc
      · intro i row' hi hrow'
        rw [List.getElem?_eraseIdx] at hrow'
        split_ifs at hrow'
        · exact h.added i row' hi hrow'
        · exact h.added (i + 1) row' (by omega) hrow'
    · apply h.modify index _ _ fun i _ => hlast i
      · intro c row' hrow' hslot
        rw [hrow] at hrow'
        obtain rfl := Option.some.inj hrow'
        rw [hlast]
        exact hslot.remove hdropped
      · intro row' hrow' hadded
        rw [hrow] at hrow'
        obtain rfl := Option.some.inj hrow'
        exact absurd hadded hstate

theorem InPlace.step (h : InPlace cases edits rows) (e : Edit) (hactive : e.onActive rows) :
    InPlace cases (edits ++ [e]) (step rows e) := by
  have hlast := fun i => lastEdit_concat i edits e
  cases e with
  | addRow values =>
    constructor
    · intro i c hc
      obtain ⟨row, hrow, hslot⟩ := h.slots i c hc
      refine ⟨row, ?_, ?_⟩
      · show (rows ++ _)[i]? = _
        rw [List.getElem?_append_left (List.getElem?_eq_some_iff.1 hrow).1]
        exact hrow
      · rw [hlast]
        exact hslot
    · intro i row hi hrow
      have hmem : (rows ++ _)[i]? = some row := hrow
      rw [List.getElem?_append] at hmem
      split_ifs at hmem
      · exact h.added i row hi hmem
      · have hnew := List.mem_of_getElem? hmem
        rw [List.mem_singleton.1 hnew]
        exact ⟨rfl, rfl⟩
  | editRow index values =>
    apply h.modify index (DraftRow.edit values)
    · intro i hi
      rw [hlast]
      exact if_neg fun heq => hi heq.symm
    · intro c row hrow hslot
      rw [hlast]
      simp only [if_true]
      exact hslot.edit values (hactive row hrow)
    · intro row _ hstate hbase
      simp [DraftRow.edit, hstate, hbase]
  | removeRow index => exact h.remove index
  | undoRow index =>
    apply h.modify index DraftRow.undo _ fun i _ => hlast i
    · intro c row _ hslot
      rw [hlast]
      exact hslot.undo
    · intro row _ hstate hbase
      simp [DraftRow.undo, hstate, hbase]

theorem inPlace_run (cases : List TestBundleCase) (edits : List Edit)
    (hall : AllAllowed Authoring.step Edit.onActive (startDraft cases) edits) :
    InPlace cases edits (edits.foldl Authoring.step (startDraft cases)) := by
  induction edits using List.reverseRecOn with
  | nil => exact inPlace_start cases
  | append_singleton edits e ih =>
    rw [allAllowed_append] at hall
    rw [List.foldl_append, List.foldl_cons, List.foldl_nil]
    exact (ih hall.1).step e hall.2.1

/-! ## Rows without a change -/

variable {c : TestBundleCase} {row : DraftRow}

theorem Slot.eq_start {last : Option CaseValues} (h : Slot c last row)
    (hedited : row.state ≠ .edited) (hremoved : row.state ≠ .removed) : row = startRow c := by
  cases h with
  | dropped reason => rfl
  | kept live same state hstate =>
    rcases hstate with rfl | rfl
    · simp [startRow_live live]
    · exact absurd rfl hremoved
  | changed live v other state hstate =>
    rcases hstate with rfl | rfl
    · exact absurd rfl hedited
    · exact absurd rfl hremoved

theorem InPlace.eq_startDraft (h : InPlace cases edits rows) (hcount : changesCount rows = 0) :
    rows = startDraft cases := by
  have hstate : ∀ row ∈ rows, row.state ≠ .added ∧ row.state ≠ .edited ∧ row.state ≠ .removed := by
    intro row hrow
    have hrow := List.countP_eq_zero.1 hcount row hrow
    simpa [and_assoc] using hrow
  apply List.ext_getElem?
  intro i
  unfold startDraft
  rw [List.getElem?_map]
  cases hc : cases[i]? with
  | some c =>
    obtain ⟨row, hrow, hslot⟩ := h.slots i c hc
    obtain ⟨-, hedited, hremoved⟩ := hstate row (List.mem_of_getElem? hrow)
    rw [hrow, hslot.eq_start hedited hremoved]
    rfl
  | none =>
    cases hrow : rows[i]? with
    | none => rfl
    | some row =>
      have hadded := h.added i row (List.getElem?_eq_none_iff.1 hc) hrow
      exact absurd hadded.1 (hstate row (List.mem_of_getElem? hrow)).1

theorem toCreateInput_start (cases : List TestBundleCase) :
    toCreateInput (startDraft cases) = (liveCases cases).map (·.asSaved) := by
  induction cases with
  | nil => rfl
  | cons c cases ih =>
    simp only [toCreateInput, startDraft, liveCases, List.map_cons] at ih ⊢
    cases hreason : c.autoDroppedReason with
    | none =>
      have hactive : (startRow c).isActive = true := by
        rw [startRow_live hreason]
        rfl
      have hinput : (startRow c).toInput = c.asSaved := by
        rw [startRow_live hreason]
        rfl
      rw [List.filter_cons_of_pos hactive, List.filter_cons_of_pos (by rw [hreason]; rfl),
        List.map_cons, List.map_cons, hinput, ih]
    | some reason =>
      have hactive : (startRow c).isActive = false := by
        simp [DraftRow.isActive, startRow_dropped (c := c) (by rw [hreason]; rfl)]
      rw [List.filter_cons_of_neg (by simp [hactive]),
        List.filter_cons_of_neg (by simp [hreason]), ih]

/-! ## Keys -/

/-- A row has a key of the pattern, and so have the values it may go back to. -/
def KeysFit (rows : List DraftRow) : Prop :=
  ∀ row ∈ rows, isCaseKey row.caseKey.toList = true ∧
    ∀ base ∈ row.base, isCaseKey base.caseKey.toList = true

theorem forall_modify {α : Type} {P : α → Prop} {l : List α} (h : ∀ a ∈ l, P a) (i : Nat)
    {f : α → α} (hf : ∀ a, P a → P (f a)) : ∀ a ∈ l.modify i f, P a := by
  intro a ha
  obtain ⟨j, hj⟩ := List.mem_iff_getElem?.1 ha
  rw [List.getElem?_modify] at hj
  obtain ⟨b, hb, heq⟩ := Option.map_eq_some_iff.1 hj
  have hold := h b (List.mem_of_getElem? hb)
  subst heq
  split_ifs
  · exact hf b hold
  · exact hold

theorem isCaseKey_of_validated {values : CaseValues} {skipIndex : Option Nat}
    (h : validateCase values rows skipIndex = ⟨none, none⟩) :
    isCaseKey (normalize values).caseKey.toList = true := by
  have hkey := congrArg CaseErrors.caseKey h
  unfold validateCase at hkey
  dsimp only at hkey
  split_ifs at hkey with _ _ hfits
  show isCaseKey (trim values.caseKey).toList = true
  simpa using hfits

theorem KeysFit.step (h : KeysFit rows) (e : Edit) (hvalid : e.validated rows) :
    KeysFit (Authoring.step rows e) := by
  cases e with
  | addRow values =>
    intro row hrow
    cases List.mem_append.1 hrow with
    | inl hold => exact h row hold
    | inr hnew =>
      rw [List.mem_singleton.1 hnew]
      refine ⟨isCaseKey_of_validated hvalid, ?_⟩
      simp
  | editRow index values =>
    have hkey := isCaseKey_of_validated hvalid
    apply forall_modify h index
    intro row hrow
    unfold DraftRow.edit
    dsimp only
    split_ifs
    · exact hrow
    · cases hbase : row.base with
      | none =>
        refine ⟨hkey, ?_⟩
        simp
      | some base =>
        have hfits := hrow.2 base hbase
        dsimp only
        split_ifs
        · exact ⟨hfits, by simpa using hfits⟩
        · exact ⟨hkey, by simpa using hfits⟩
  | removeRow index =>
    show KeysFit (removeRow rows index)
    unfold removeRow
    split
    · exact h
    · split_ifs
      · exact h
      · exact fun row hrow => h row (List.mem_of_mem_eraseIdx hrow)
      · exact forall_modify h index fun row hrow => hrow
  | undoRow index =>
    apply forall_modify h index
    intro row hrow
    unfold DraftRow.undo
    split_ifs <;> exact hrow

theorem keysFit_start (hkeys : ∀ c ∈ cases, isCaseKey c.caseKey.toList = true) :
    KeysFit (startDraft cases) := by
  intro row hrow
  obtain ⟨c, hc, rfl⟩ := List.mem_map.1 hrow
  refine ⟨hkeys c hc, ?_⟩
  unfold startRow
  intro base hbase
  dsimp only at hbase
  split_ifs at hbase
  · cases hbase
  · obtain rfl := Option.some.inj hbase
    exact hkeys c hc

theorem nodup_of_doubleKey {rows : List DraftRow} {seen : List String}
    (h : doubleKey seen rows = none) :
    (rows.map (·.caseKey)).Nodup ∧ ∀ row ∈ rows, row.caseKey ∉ seen := by
  induction rows generalizing seen with
  | nil => simp
  | cons row rows ih =>
    unfold doubleKey at h
    split_ifs at h with hseen
    obtain ⟨hnodup, hnew⟩ := ih h
    constructor
    · rw [List.map_cons, List.nodup_cons]
      refine ⟨?_, hnodup⟩
      intro hmem
      obtain ⟨row', hrow', heq⟩ := List.mem_map.1 hmem
      exact hnew row' hrow' (by simp [heq])
    · intro row' hrow'
      cases List.mem_cons.1 hrow' with
      | inl heq => rwa [heq]
      | inr htail =>
        intro hmem
        exact hnew row' htail (List.mem_cons_of_mem _ hmem)

theorem keys_sent (h : KeysFit rows) {formOpen : Bool} (hsave : saveBlocker rows formOpen = none) :
    toCreateInput rows ≠ [] ∧ ((toCreateInput rows).map (·.caseKey)).Nodup ∧
      ∀ input ∈ toCreateInput rows, isCaseKey input.caseKey.toList = true := by
  unfold saveBlocker at hsave
  cases hdouble : doubleKey [] (rows.filter DraftRow.isActive) with
  | some key =>
    rw [hdouble] at hsave
    split_ifs at hsave
  | none =>
    rw [hdouble] at hsave
    split_ifs at hsave with _ hactive
    refine ⟨?_, ?_, ?_⟩
    · unfold toCreateInput
      intro hnil
      rw [List.map_eq_nil_iff, List.filter_eq_nil_iff] at hnil
      apply hactive
      simpa using hnil
    · unfold toCreateInput
      rw [List.map_map]
      exact (nodup_of_doubleKey hdouble).1
    · intro input hinput
      obtain ⟨row, hrow, rfl⟩ := List.mem_map.1 hinput
      exact (h row (List.mem_of_mem_filter hrow)).1

/-! ## What is sent -/

theorem isSpace_of_isKeyChar {c : Char} (h : isKeyChar c = true) : isSpace c = false := by
  have hrange : ∀ d e : Char, d ≤ c ∧ c ≤ e → d.toNat ≤ c.toNat ∧ c.toNat ≤ e.toNat :=
    fun d e h => h
  unfold isKeyChar at h
  rw [decide_eq_true_eq] at h
  have hcode : 0x2D ≤ c.toNat ∧ c.toNat ≤ 0x7A := by
    rcases h with h | h | h | rfl | rfl
    · have := hrange _ _ h
      simp at this
      omega
    · have := hrange _ _ h
      simp at this
      omega
    · have := hrange _ _ h
      simp at this
      omega
    · decide
    · decide
  unfold isSpace
  simp only [decide_eq_false_iff_not]
  omega

theorem trim_key {key : String} (h : isCaseKey key.toList = true) : trim key = key := by
  have hspace : ∀ l : List Char, (∀ c ∈ l, isSpace c = false) → l.dropWhile isSpace = l := by
    intro l hl
    cases l with
    | nil => rfl
    | cons c l => simp [hl c]
  have hnone : ∀ c ∈ key.toList, isSpace c = false := by
    unfold isCaseKey at h
    simp at h
    exact fun c hc => isSpace_of_isKeyChar (h.2 c hc)
  unfold trim trimList
  rw [hspace _ hnone, hspace _ (by simpa using hnone), List.reverse_reverse, String.ofList_toList]

theorem sameValues_normalize {c : CaseValues} (hkey : isCaseKey c.caseKey.toList = true) :
    sameValues (normalize c) c = true ↔ trim c.group = c.group := by
  have htrim := trim_key hkey
  have hend : trimEnd (trimEnd c.expectedOutput) = trimEnd c.expectedOutput := by
    unfold trimEnd
    rw [String.toList_ofList, List.rdropWhile_idempotent]
  simp [sameValues, normalize, htrim, hend]

theorem Slot.asSaved {last : Option CaseValues} (h : Slot c last row)
    (live : c.autoDroppedReason = none) (hactive : row.isActive) (hsame : changedBy c last = none) :
    row.toInput = c.asSaved := by
  cases h with
  | dropped reason => simp [live] at reason
  | kept _ _ state hstate =>
    rcases hstate with rfl | rfl
    · simp [startRow_live live, DraftRow.toInput, TestBundleCase.asSaved]
    · simp [DraftRow.isActive] at hactive
  | changed _ v other => simp [hsame] at other

theorem Slot.edited {v : CaseValues} (h : Slot c (some v) row) (live : c.autoDroppedReason = none)
    (hdiffers : sameValues (normalize v) c.toCaseValues = false) :
    row.toInput = { toCaseValues := normalize v, constraintQuote := none } := by
  have hchanged := changedBy_some c v
  rw [hdiffers, if_neg (by simp)] at hchanged
  cases h with
  | dropped reason => simp [live] at reason
  | kept _ same => simp [hchanged] at same
  | changed _ v' other state hstate =>
    rw [hchanged] at other
    obtain rfl := Option.some.inj other
    rcases hstate with rfl | rfl <;> rfl

theorem sendsWhatIsSeen (hkeys : ∀ c ∈ cases, isCaseKey c.caseKey.toList = true)
    (hgroups : ∀ c ∈ liveCases cases, trim c.group = c.group)
    (hall : AllAllowed Authoring.step Edit.onActive (startDraft cases) edits) :
    SendsWhatIsSeen cases edits (edits.foldl Authoring.step (startDraft cases)) := by
  have hplace := inPlace_run cases edits hall
  constructor
  · intro i c hc reason
    obtain ⟨row, hrow, hslot⟩ := hplace.slots i c hc
    have hstate := startRow_dropped reason
    refine ⟨?_, by simp [DraftRow.isActive, hstate]⟩
    cases hslot with
    | dropped => exact hrow
    | kept live => simp [live] at reason
    | changed live => simp [live] at reason
  · unfold toCreateInput
    rw [List.map_map]
    rfl
  · intro i c row hc live hrow hactive hlast
    obtain ⟨row', hrow', hslot⟩ := hplace.slots i c hc
    rw [hrow] at hrow'
    obtain rfl := Option.some.inj hrow'
    apply hslot.asSaved live hactive
    cases hlast with
    | inl hnone => rw [hnone]; rfl
    | inr hback =>
      have hmem := List.mem_of_getElem? hc
      have hgroup := hgroups c (List.mem_filter.2 ⟨hmem, by rw [live]; rfl⟩)
      rw [hback, changedBy_some, if_pos ((sameValues_normalize (hkeys c hmem)).2 hgroup)]
  · intro i c row v hc live hrow hlast hdiffers
    obtain ⟨row', hrow', hslot⟩ := hplace.slots i c hc
    rw [hrow] at hrow'
    obtain rfl := Option.some.inj hrow'
    rw [hlast] at hslot
    exact hslot.edited live hdiffers
  · intro row _ hstate
    rcases hstate with h | h <;> simp [DraftRow.toInput, h]
  · intro hcount
    rw [hplace.eq_startDraft hcount, toCreateInput_start]
  · intro hvalid formOpen hsave
    have hrun := reach_foldl hvalid
    have hfit := hrun.invariant (keysFit_start hkeys) fun rows e h hok => KeysFit.step h e hok
    exact keys_sent hfit hsave

theorem edited_back {i : Nat} (hc : cases[i]? = some c) (live : c.autoDroppedReason = none) :
    AllAllowed Authoring.step Edit.onActive (startDraft cases) [.editRow i c.toCaseValues] ∧
      ([Edit.editRow i c.toCaseValues].foldl Authoring.step (startDraft cases))[i]? =
        some ((startRow c).edit c.toCaseValues) := by
  have hrow : (startDraft cases)[i]? = some (startRow c) := by
    unfold startDraft
    rw [List.getElem?_map, hc]
    rfl
  constructor
  · refine ⟨?_, trivial⟩
    intro row hmem
    rw [hrow] at hmem
    obtain rfl := Option.some.inj hmem
    rw [startRow_live live]
    rfl
  · show ((startDraft cases).modify i _)[i]? = _
    rw [List.getElem?_modify, hrow]
    simp

/-- Cases are sent as the editor shows them, edits that are taken back included, just when
no live group has white space at its ends. -/
theorem sendsWhatIsSeen_iff (cases : List TestBundleCase)
    (hkeys : ∀ c ∈ cases, isCaseKey c.caseKey.toList = true) :
    (∀ edits, AllAllowed Authoring.step Edit.onActive (startDraft cases) edits →
      SendsWhatIsSeen cases edits (edits.foldl Authoring.step (startDraft cases))) ↔
    ∀ c ∈ liveCases cases, trim c.group = c.group := by
  constructor
  · intro h c hmem
    obtain ⟨hc, hlive⟩ := List.mem_filter.1 hmem
    have live : c.autoDroppedReason = none := by simpa using hlive
    obtain ⟨i, hi⟩ := List.mem_iff_getElem?.1 hc
    obtain ⟨hall, hrow⟩ := edited_back hi live
    by_contra hgroup
    have hdiffers : sameValues (normalize c.toCaseValues) c.toCaseValues = false := by
      simpa [hgroup] using sameValues_normalize (hkeys c hc)
    have hedit : (startRow c).edit c.toCaseValues =
        { startRow c with
          toCaseValues := normalize c.toCaseValues
          state := .edited
          constraintQuote := none } := by
      simp [DraftRow.edit, startRow_live live, hdiffers]
    have hlast : lastEdit i [.editRow i c.toCaseValues] = some c.toCaseValues := by
      simp [lastEdit]
    have hsent := (h _ hall).asSaved i c _ hi live hrow (by rw [hedit]; rfl) (Or.inr hlast)
    rw [hedit] at hsent
    exact hgroup (congrArg (·.group) hsent)
  · intro hgroups edits hall
    exact sendsWhatIsSeen hkeys hgroups hall

end Runs

/-- The group has a space in front, which the table takes. -/
def paddedGroup : List TestBundleCase :=
  [{ caseKey := "ca1", group := " co_ban", input := "1", expectedOutput := "1"
     constraintQuote := some "n > 0", autoDroppedReason := none }]

theorem paddedGroup_edited_back :
    ¬ ∀ edits, AllAllowed Authoring.step Edit.onActive (startDraft paddedGroup) edits →
      SendsWhatIsSeen paddedGroup edits (edits.foldl Authoring.step (startDraft paddedGroup)) := by
  intro h
  have hback : paddedGroup[0]? = some _ := rfl
  obtain ⟨hall, hrow⟩ := edited_back hback rfl
  have hsent := (h _ hall).asSaved 0 _ _ rfl rfl hrow (by decide +kernel) (Or.inr rfl)
  have hquote := congrArg TestBundleCaseInput.constraintQuote hsent
  revert hquote
  decide +kernel

theorem sendsWhatIsSeen_once :
    (∀ edits, AllAllowed Authoring.step Edit.onActive (startDraft paddedGroup) edits →
      SendsWhatIsSeen paddedGroup edits (edits.foldl Authoring.step (startDraft paddedGroup))) ↔
      ∀ c ∈ liveCases paddedGroup, trim c.group = c.group :=
  sendsWhatIsSeen_iff paddedGroup (by decide)

end Cine.Authoring
