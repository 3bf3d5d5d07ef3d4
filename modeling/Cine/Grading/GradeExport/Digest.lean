import Cine.Grading.GradeExport.PlanSafety
import Cine.Grading.Gradebook.WholeClass

/-!
# What a digest decides

The teacher confirms the digest of a plan, and the write step makes its own
plan and compares the digests.

* The text under the digest can be read back (`readBack_digestText`), and
  the edits of a row are a function of what the text has of it
  (`rowEdits_of_digestRow`).
* The order of the students leaves the whole plan as it is
  (`buildPlan_perm`), where their numbers are distinct up to letter case, as
  the loader promises (`loadStudents_once`).
-/

namespace Cine.Grading

open Cine.Lib Json

/-! ## The text under the digest -/

theorem RowAction.text_injective : Function.Injective RowAction.text := by
  intro a b h
  cases a <;> cases b <;> first | rfl | exact absurd h (by decide)

theorem BlankReason.text_injective : Function.Injective BlankReason.text := by
  intro a b h
  cases a <;> cases b <;> first | rfl | exact absurd h (by decide)

theorem readBack_rowText : ReadBack ExportPlan.rowText := by
  have hstr : ReadBack (option str) := readBack_str.option heads_str rfl
  have hint : ReadBack (option int) := readBack_int.option heads_int rfl
  have hfields := readBack_int.pair <| readBack_str.pair <| hstr.pair <| hint.pair <| hstr.pair <|
    readBack_bool.pair readBack_bool
  exact (hfields.close (Or.inl rfl)).label "["

theorem heads_rowText : Heads ExportPlan.rowText (fun c => c = '[') := fun _ => ⟨_, _, rfl, rfl⟩

theorem readBack_digestText : ReadBack ExportPlan.digestText := by
  have hrows := (readBack_rowText.list heads_rowText rfl).label "\"rows\":"
  have hmissing := (readBack_str.list heads_str rfl).label "\"notInFile\":"
  have hfields := (readBack_int.label "\x7b\"step\":").pair <|
    (readBack_bool.label "\"reason\":").pair <| hrows.pair hmissing
  exact hfields.close (Or.inr rfl)

/-! ## The edits are in the text -/

theorem rowEdits_of_digestRow (dto : PlanDto) {r r' : PlanRow} (h : r.digestRow = r'.digestRow) :
    rowEdits dto r = rowEdits dto r' := by
  unfold PlanRow.digestRow at h
  simp only [Prod.mk.injEq] at h
  obtain ⟨hrow, haction, _, hwritten, hreason, hwrites, hclears⟩ := h
  have hrow : r.row = r'.row := Int.ofNat_inj.1 hrow
  have haction : r.action = r'.action := RowAction.text_injective haction
  have hreason : r.blankReason = r'.blankReason :=
    Option.map_injective BlankReason.text_injective hreason
  unfold rowEdits
  rw [hrow, haction, hwritten, hreason, hwrites, hclears]

theorem flatMap_rowEdits (dto : PlanDto) {rows rows' : List PlanRow}
    (h : rows.map PlanRow.digestRow = rows'.map PlanRow.digestRow) :
    rows.flatMap (rowEdits dto) = rows'.flatMap (rowEdits dto) := by
  induction rows generalizing rows' with
  | nil =>
    rw [List.map_nil, eq_comm, List.map_eq_nil_iff] at h
    rw [h]
  | cons r rows ih =>
    cases rows' with
    | nil => cases h
    | cons r' rows' =>
      obtain ⟨hrow, hrest⟩ := List.cons.inj h
      rw [List.flatMap_cons, List.flatMap_cons, rowEdits_of_digestRow dto hrow, ih hrest]

section Digest

variable {nfkc sha256 : String → String}

theorem digest_of_buildPlan {input : PlanInput} {plan : ExportPlan}
    (h : buildPlan nfkc sha256 input = .ok plan) :
    plan.digest = sha256 (String.ofList (ExportPlan.digestText
      (input.roundingStep, input.hasReasonColumn, plan.rows.map PlanRow.digestRow,
        plan.notInFile.map PlanStudent.mssv))) := by
  unfold buildPlan at h
  obtain ⟨rows, _, h⟩ := bind_eq_ok.1 h
  cases h
  rfl

theorem digestRows_of_digest (hsha : Function.Injective sha256) {input input' : PlanInput}
    {plan plan' : ExportPlan} (h : buildPlan nfkc sha256 input = .ok plan)
    (h' : buildPlan nfkc sha256 input' = .ok plan') (hdigest : plan.digest = plan'.digest) :
    plan.rows.map PlanRow.digestRow = plan'.rows.map PlanRow.digestRow := by
  rw [digest_of_buildPlan h, digest_of_buildPlan h'] at hdigest
  have htext := String.ofList_inj.1 (hsha hdigest)
  have hread := readBack_digestText.injective htext
  simp only [Prod.mk.injEq] at hread
  exact hread.2.2.1

/-! ## The order of the students -/

variable {input : PlanInput} {students : List PlanStudent}

def PlanInput.withStudents (input : PlanInput) (students : List PlanStudent) : PlanInput :=
  { input with students := students }

theorem firstPass_perm (hnd : (input.students.map fun s => lowerCase s.mssv).Nodup)
    (h : input.students.Perm students) :
    (input.withStudents students).firstPass nfkc = input.firstPass nfkc := by
  unfold PlanInput.firstPass
  refine List.map_congr_left fun file _ => ?_
  rw [matchMssv_perm hnd h]
  rfl

theorem planByKey_perm (hnd : (input.students.map fun s => lowerCase s.mssv).Nodup)
    (h : input.students.Perm students) (key : String) :
    (input.withStudents students).byKey.get? key = input.byKey.get? key := by
  refine (OrderedMap.get?_ofList_perm ?_ (h.map _) key).symm
  rw [List.map_map]
  exact hnd

theorem insertionSort_perm {α : Type} (key : α → String) {l l' : List α}
    (hnd : (l.map key).Nodup) (h : l.Perm l') :
    l.insertionSort (fun a b => utf16 (key a) ≤ utf16 (key b)) =
      l'.insertionSort fun a b => utf16 (key a) ≤ utf16 (key b) := by
  have : Std.Total fun a b : α => utf16 (key a) ≤ utf16 (key b) := ⟨fun a b => le_total _ _⟩
  have : IsTrans α fun a b : α => utf16 (key a) ≤ utf16 (key b) := ⟨fun _ _ _ => le_trans⟩
  refine List.Perm.eq_of_pairwise (fun a b ha hb hab hba => ?_)
    (List.pairwise_insertionSort _ l) (List.pairwise_insertionSort _ l')
    (((List.perm_insertionSort _ l).trans h).trans (List.perm_insertionSort _ l').symm)
  have ha : a ∈ l := (List.perm_insertionSort _ l).mem_iff.1 ha
  have hb : b ∈ l := h.mem_iff.2 ((List.perm_insertionSort _ l').mem_iff.1 hb)
  exact List.inj_on_of_nodup_map hnd ha hb (utf16_injective (le_antisymm hab hba))

theorem rowsByStudent_perm (hnd : (input.students.map fun s => lowerCase s.mssv).Nodup)
    (h : input.students.Perm students) :
    (input.withStudents students).rowsByStudent nfkc = input.rowsByStudent nfkc := by
  unfold PlanInput.rowsByStudent PlanInput.matchedRows
  rw [firstPass_perm hnd h]

theorem planRow_perm (hnd : (input.students.map fun s => lowerCase s.mssv).Nodup)
    (h : input.students.Perm students) (file : FileRowInput) (m : MatchResult) :
    (input.withStudents students).planRow nfkc file m = input.planRow nfkc file m := by
  have hrowsOf : ∀ key, (input.withStudents students).rowsOf nfkc key = input.rowsOf nfkc key := by
    intro key
    unfold PlanInput.rowsOf
    rw [rowsByStudent_perm hnd h]
  have hduplicated : (input.withStudents students).duplicated nfkc = input.duplicated nfkc := by
    unfold PlanInput.duplicated
    rw [rowsByStudent_perm hnd h]
  unfold PlanInput.planRow
  simp only [planByKey_perm hnd h, hrowsOf, hduplicated]
  rfl

theorem notInFile_perm (hnd : (input.students.map fun s => lowerCase s.mssv).Nodup)
    (h : input.students.Perm students) :
    (input.withStudents students).notInFile nfkc = input.notInFile nfkc := by
  unfold PlanInput.notInFile
  rw [rowsByStudent_perm hnd h]
  exact (insertionSort_perm (fun s : PlanStudent => lowerCase s.mssv)
    (hnd.sublist (List.filter_sublist.map _)) (h.filter _)).symm

theorem blockers_perm (hnd : (input.students.map fun s => lowerCase s.mssv).Nodup)
    (h : input.students.Perm students) (rows : List PlanRow) :
    (input.withStudents students).blockers nfkc rows = input.blockers nfkc rows := by
  unfold PlanInput.blockers PlanInput.duplicated
  simp only [rowsByStudent_perm hnd h, planByKey_perm hnd h]
  rfl

theorem buildPlan_perm (hnd : (input.students.map fun s => lowerCase s.mssv).Nodup)
    (h : input.students.Perm students) :
    buildPlan nfkc sha256 (input.withStudents students) = buildPlan nfkc sha256 input := by
  unfold buildPlan
  simp only [firstPass_perm hnd h, planRow_perm hnd h, notInFile_perm hnd h, blockers_perm hnd h]
  rfl

theorem computePlan_perm {dto : PlanDto} {sheet : SheetRead} {students students' : List PlanStudent}
    (published : Nat) (previous : OrderedMap String Int)
    (hnd : (students.map fun s => lowerCase s.mssv).Nodup) (h : students.Perm students') :
    computePlan nfkc sha256 dto sheet (students', published) previous =
      computePlan nfkc sha256 dto sheet (students, published) previous := by
  have hbuild : buildPlan nfkc sha256 (dto.planInput sheet students' previous) =
      buildPlan nfkc sha256 (dto.planInput sheet students previous) :=
    @buildPlan_perm nfkc sha256 (dto.planInput sheet students previous) _ hnd h
  unfold computePlan
  simp only [hbuild]

end Digest

/-- Plans of one request with one digest have the same edits, and the digest
is the same for every order of the students. -/
theorem digest_decides (nfkc sha256 : String → String) (hsha : Function.Injective sha256)
    (dto : PlanDto) :
    (∀ (sheet sheet' : SheetRead) (students students' : List PlanStudent × Nat)
        (previous previous' : OrderedMap String Int) (plan plan' : ExportPlan),
      computePlan nfkc sha256 dto sheet students previous = .ok plan →
      computePlan nfkc sha256 dto sheet' students' previous' = .ok plan' →
      plan.digest = plan'.digest → cellEdits dto plan = cellEdits dto plan') ∧
    ∀ (sheet : SheetRead) (students students' : List PlanStudent) (published : Nat)
        (previous : OrderedMap String Int),
      (students.map fun s => lowerCase s.mssv).Nodup → students.Perm students' →
      (computePlan nfkc sha256 dto sheet (students', published) previous).map ExportPlan.digest =
        (computePlan nfkc sha256 dto sheet (students, published) previous).map
          ExportPlan.digest := by
  constructor
  · intro sheet sheet' students students' previous previous' plan plan' h h' hdigest
    have hrows := digestRows_of_digest hsha (buildPlan_of_computePlan h).2
      (buildPlan_of_computePlan h').2 hdigest
    exact flatMap_rowEdits dto hrows
  · intro sheet students students' published previous hnd hperm
    rw [computePlan_perm published previous hnd hperm]

/-! ## Two runs over one sheet -/

/-- The text under the digest of `mergedPlan`. -/
def mergedText : String :=
  "\x7b\"step\":50,\"reason\":false,\"rows\":[[2,\"write\",\"20120001\",750,null,false,false]," ++
    "[3,\"skipped_merged\",\"20120002\",null,null,false,false]],\"notInFile\":[]\x7d"

/-- A hash without collisions that has the real value at the text. -/
def injectiveSha256 (text : String) : String :=
  if text = mergedText then mergedSha256 text else "#" ++ text

theorem injectiveSha256_injective : Function.Injective injectiveSha256 := by
  have hne : ∀ text, mergedSha256 mergedText ≠ "#" ++ text := by
    intro text h
    have hhead : (mergedSha256 mergedText).toList.head? = some '#' := by
      rw [h, String.toList_append]
      rfl
    revert hhead
    decide
  intro a b h
  unfold injectiveSha256 at h
  split_ifs at h with ha hb hb
  · rw [ha, hb]
  · exact absurd h (hne b)
  · exact absurd h.symm (hne a)
  · have hlist := congrArg String.toList h
    rw [String.toList_append, String.toList_append] at hlist
    exact String.toList_inj.1 (List.append_cancel_left hlist)

/-- The plan of `mergedSheet`, after an export with these scores. -/
def mergedRun (students : List PlanStudent) (previous : List (String × Int)) :
    Except String ExportPlan :=
  computePlan id injectiveSha256 mergedDto mergedSheet (students, 2) (.ofList previous)

/-- An earlier score changes the plan, but neither the digest nor the
edits. -/
theorem mergedRun_decides :
    (∃ plan plan', mergedRun mergedStudents [] = .ok plan ∧
        mergedRun mergedStudents [("20120001", 700)] = .ok plan' ∧ plan ≠ plan' ∧
        cellEdits mergedDto plan = cellEdits mergedDto plan') ∧
      (mergedRun mergedStudents.reverse []).map ExportPlan.digest =
        (mergedRun mergedStudents []).map ExportPlan.digest := by
  have hok : ∀ x : Except String ExportPlan, x.toOption.isSome → ∃ plan, x = .ok plan := by
    intro x hx
    cases x with
    | error e => cases hx
    | ok plan => exact ⟨plan, rfl⟩
  have hdecides := digest_decides id injectiveSha256 injectiveSha256_injective mergedDto
  constructor
  · obtain ⟨plan, hplan⟩ := hok (mergedRun mergedStudents []) (by decide)
    obtain ⟨plan', hplan'⟩ := hok (mergedRun mergedStudents [("20120001", 700)]) (by decide)
    have hdiffer : (mergedRun mergedStudents []).toOption ≠
        (mergedRun mergedStudents [("20120001", 700)]).toOption := by decide
    have hsame : (mergedRun mergedStudents []).toOption.map ExportPlan.digest =
        (mergedRun mergedStudents [("20120001", 700)]).toOption.map ExportPlan.digest := by
      decide +kernel
    rw [hplan, hplan'] at hdiffer hsame
    exact ⟨plan, plan', hplan, hplan', fun heq => hdiffer (congrArg some heq),
      hdecides.1 _ _ _ _ _ _ plan plan' hplan hplan' (Option.some_inj.1 hsame)⟩
  · exact hdecides.2 mergedSheet mergedStudents mergedStudents.reverse 2 (.ofList [])
      (by decide) (List.reverse_perm _).symm

end Cine.Grading
