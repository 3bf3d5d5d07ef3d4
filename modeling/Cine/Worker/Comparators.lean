import Cine.Lib.Json
import Cine.Lib.Utf16
import Cine.Lib.Utf8
import Mathlib.Data.List.DropRight
import Mathlib.Data.Nat.Digits.Defs

/-!
# Comparing an output

`sandbox-worker/comparators.ts`: the output of a program against the expected
one, and the text that says where they first differ.

A text is cut by UTF-16 code units, and a half of a surrogate pair that is left
counts as one.  Whether two numbers are close is a parameter, since the script
decides it in floating point.
-/

namespace Cine.Worker

open Cine.Lib

inductive Comparator
  | exact
  | unorderedLines
  | floatTolerance (eps : ℚ)
  | checker (name : String)
deriving DecidableEq, Repr

/-- `replace(/\r\n/g, '\n')`. -/
def joinLineEnds : List Char → List Char
  | '\r' :: '\n' :: text => '\n' :: joinLineEnds text
  | c :: text => c :: joinLineEnds text
  | [] => []

def normalizeLines (s : String) : List String :=
  let lines := ((joinLineEnds s.toList).splitOn '\n').map fun l =>
    String.ofList (l.rdropWhile fun c => c = ' ' || c = '\t')
  lines.rdropWhile (· = "")

def clip : Option String → String
  | none => "(không có dòng)"
  | some s =>
    let shown := if 200 < (utf16 s).length then sliceFront s 200 ++ "…" else s
    sliceFront (String.ofList (Json.str shown)) 300

/-- The lines are numbered from `i`. -/
def firstLineDiff (i : Nat) : List String → List String → Option String
  | [], [] => none
  | e :: expected, g :: got =>
    if e ≠ g then some s!"dòng {i + 1}: mong đợi {clip (some e)}, nhận {clip (some g)}"
    else firstLineDiff (i + 1) expected got
  | e :: _, [] => some s!"dòng {i + 1}: mong đợi {clip (some e)}, nhận {clip none}"
  | [], g :: _ => some s!"dòng {i + 1}: mong đợi {clip none}, nhận {clip (some g)}"

/-- `s.trim().split(/\s+/)`. -/
def tokens (s : String) : List String :=
  let t := trimList s.toList
  if t = [] then [""] else ((t.splitOnP isSpace).filter (· ≠ [])).map String.ofList

structure Comparison where
  equal : Bool
  diff : Option String
deriving DecidableEq, Repr

/-- `compareOutput`; a checker is refused before anything is run. -/
def compareOutput (numbersClose : ℚ → String → String → Bool) (expected got : String) :
    Comparator → Except String Comparison
  | .exact =>
    let diff := firstLineDiff 0 (normalizeLines expected) (normalizeLines got)
    .ok { equal := diff.isNone, diff := diff.map fun d => sliceFront d 1024 }
  | .unorderedLines =>
    let a := sortStrings (normalizeLines expected)
    let b := sortStrings (normalizeLines got)
    let equal := (firstLineDiff 0 a b).isNone
    .ok { equal := equal
          diff := if equal then none else
            some s!"tập dòng khác nhau ({a.length} dòng mong đợi, {b.length} dòng nhận)" }
  | .floatTolerance eps =>
    if trim expected = "" ∧ trim got = "" then .ok ⟨true, none⟩
    else
      let a := tokens expected
      let b := tokens got
      if a.length ≠ b.length then
        .ok ⟨false, some s!"số token khác nhau: mong đợi {a.length}, nhận {b.length}"⟩
      else
        match (a.zip b).findIdx? fun (x, y) => !numbersClose eps x y with
        | none => .ok ⟨true, none⟩
        | some i =>
          let x := clip a[i]?
          let y := clip b[i]?
          .ok ⟨false, some (sliceFront s!"token {i + 1}: mong đợi {x}, nhận {y}" 1024)⟩
  | .checker name => .error s!"checker \"{name}\" chưa được cài ở worker"

/-! ## The length of a difference -/

theorem length_splitOnP {α : Type} (p : α → Bool) (l : List α) :
    (l.splitOnP p).length ≤ l.length + 1 := by
  induction l with
  | nil => exact Nat.le_refl 1
  | cons a l ih =>
    rw [List.splitOnP_cons_eq_if_modifyHead, List.length_cons]
    split_ifs
    · rw [List.length_cons]
      omega
    · rw [List.length_modifyHead]
      omega

theorem length_joinLineEnds (l : List Char) : (joinLineEnds l).length ≤ l.length := by
  fun_induction joinLineEnds l with
  | case1 text ih => simp only [List.length_cons] at ih ⊢; omega
  | case2 c text _ ih => simp only [List.length_cons] at ih ⊢; omega
  | case3 => exact Nat.le_refl 0

theorem length_normalizeLines (s : String) :
    (normalizeLines s).length ≤ s.toList.length + 1 := by
  unfold normalizeLines
  refine (List.rdropWhile_prefix _ _).length_le.trans ?_
  rw [List.length_map]
  refine (length_splitOnP _ _).trans ?_
  exact Nat.succ_le_succ (length_joinLineEnds s.toList)

theorem length_tokens (s : String) : (tokens s).length ≤ s.toList.length + 1 := by
  unfold tokens trimList
  dsimp only
  split_ifs
  · simp
  · rw [List.length_map]
    refine (List.length_filter_le _ _).trans ((length_splitOnP _ _).trans ?_)
    rw [List.length_reverse]
    have h₁ := (List.dropWhile_suffix isSpace
      (l := (s.toList.dropWhile isSpace).reverse)).length_le
    have h₂ := (List.dropWhile_suffix isSpace (l := s.toList)).length_le
    rw [List.length_reverse] at h₁
    omega

theorem length_utf16_count {n : Nat} (h : n < 10 ^ 20) : (utf16 (toString n)).length ≤ 40 := by
  have hdigits : (toString n).length ≤ 20 := Nat.repr_length n 20 (by decide) h
  have hunits := length_utf16_le (toString n)
  rw [String.length_toList] at hunits
  omega

theorem counts_fit (a b c : String) {m n x y : Nat}
    (htext : (utf16 a).length + (utf16 b).length + (utf16 c).length ≤ 900)
    (hm : m ≤ x + 1) (hn : n ≤ y + 1) (hx : x < 10 ^ 19) (hy : y < 10 ^ 19) :
    (utf16 (a ++ toString m ++ b ++ toString n ++ c)).length ≤ 1024 := by
  have hm := length_utf16_count (n := m) (by omega)
  have hn := length_utf16_count (n := n) (by omega)
  simp only [utf16_append, List.length_append]
  omega

theorem compareOutput_diff {close : ℚ → String → String → Bool} {expected got : String}
    {comparator : Comparator} {cmp : Comparison} {diff : String}
    (hexpected : expected.toList.length < 10 ^ 19) (hgot : got.toList.length < 10 ^ 19)
    (h : compareOutput close expected got comparator = .ok cmp) (hdiff : cmp.diff = some diff) :
    (utf16 diff).length ≤ 1024 := by
  cases comparator with
  | exact =>
    cases h
    obtain ⟨d, _, rfl⟩ := Option.map_eq_some_iff.1 hdiff
    exact length_utf16_sliceFront d 1024
  | unorderedLines =>
    cases h
    dsimp only at hdiff
    split_ifs at hdiff
    obtain rfl := Option.some.inj hdiff
    exact counts_fit "tập dòng khác nhau (" " dòng mong đợi, " " dòng nhận)"
      (by decide) (by rw [length_sortStrings]; exact length_normalizeLines expected)
      (by rw [length_sortStrings]; exact length_normalizeLines got) hexpected hgot
  | floatTolerance eps =>
    dsimp only [compareOutput] at h
    split at h
    · cases h
      cases hdiff
    · split at h
      · cases h
        obtain rfl := Option.some.inj hdiff
        rw [← String.append_empty (s := toString _ ++ _ ++ _ ++ _)]
        exact counts_fit "số token khác nhau: mong đợi " ", nhận " "" (by decide)
          (length_tokens expected) (length_tokens got) hexpected hgot
      · split at h
        · cases h
          cases hdiff
        · cases h
          obtain rfl := Option.some.inj hdiff
          exact length_utf16_sliceFront _ 1024
  | checker name => cases h

end Cine.Worker
