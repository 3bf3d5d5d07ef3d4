import Cine.Grading.OneShot.GradingGuards
import Cine.Lib.ScriptText
import Cine.Lib.Squeeze

/-!
# Where a quotation stands in the submission

`grading/harness/evidence-check.ts`.  Texts are lists of UTF-16 code units.

* `normalizeForMatch` is what a quotation is compared as: NFC, the
  typographic variants folded, the spaces collapsed and trimmed, in lower
  case.  `normalizeWithMap` does the same unit by unit and keeps where every
  piece comes from.
* `locateEvidence` looks for the parts of a quotation, in their order, in the
  normalized submission.
* The two normalizations are one squeeze (`normalizeForMatch_eq`,
  `normalizeWithMap_eq`), as far as the lower case of the text is that of its
  units (`LowersUnits`).

The normal form and the lower case are those of the script's library; what is
used of them is in `TextLibrary`.
-/

namespace Cine.Grading

open Cine.Lib

/-! ## Normalization -/

/-- `\s` on a code unit. -/
def isSpaceUnit (u : Nat) : Bool :=
  (9 ≤ u ∧ u ≤ 13) ∨ u = 0x20 ∨ u = 0xA0 ∨ u = 0x1680 ∨ (0x2000 ≤ u ∧ u ≤ 0x200A) ∨
    u = 0x2028 ∨ u = 0x2029 ∨ u = 0x202F ∨ u = 0x205F ∨ u = 0x3000 ∨ u = 0xFEFF

/-- `normalize('NFC')` and `toLowerCase` of the script's library. -/
structure TextLibrary where
  nfc : List Nat → List Nat
  lower : List Nat → List Nat
  /-- A part of a text in normal form is in normal form. -/
  nfc_part : ∀ {s t : List Nat}, t <:+: nfc s → nfc t = t
  nfc_blank : ∀ {s : List Nat}, (∀ u ∈ s, isSpaceUnit u = true) → ∀ u ∈ nfc s, isSpaceUnit u = true
  lower_gap : lower [0x20] = [0x20]
  /-- No letter becomes a space. -/
  lower_head : ∀ {u v : Nat} {s : List Nat}, isSpaceUnit u = false →
    (lower (u :: s)).head? = some v → isSpaceUnit v = false
  lower_last : ∀ {u v : Nat} {s : List Nat}, isSpaceUnit u = false →
    (lower (s ++ [u])).getLast? = some v → isSpaceUnit v = false

/-- `TYPOGRAPHIC_FOLD`. -/
def typographicFold : List ((Nat → Bool) × List Nat) :=
  [(fun u => 0x2018 ≤ u ∧ u ≤ 0x201B, [0x27]),
    (fun u => 0x201C ≤ u ∧ u ≤ 0x201F, [0x22]),
    (fun u => (0x2010 ≤ u ∧ u ≤ 0x2015) ∨ u = 0x2212, [0x2D]),
    (fun u => u = 0xA0 ∨ (0x2000 ≤ u ∧ u ≤ 0x200A) ∨ u = 0x202F ∨ u = 0x205F ∨ u = 0x3000, [0x20]),
    (fun u => (0x200B ≤ u ∧ u ≤ 0x200D) ∨ u = 0xFEFF, [])]

/-- `out.replace(re, to)` for a class of units. -/
def replaceUnits (fold : (Nat → Bool) × List Nat) (out : List Nat) : List Nat :=
  out.flatMap fun u => if fold.1 u then fold.2 else [u]

def foldChar (ch : Nat) : List Nat :=
  ((typographicFold.find? fun fold => fold.1 ch).map Prod.snd).getD [ch]

/-- The text before it is put in lower case. -/
def foldText (nfc : List Nat) : List Nat :=
  let out := typographicFold.foldl (fun out fold => replaceUnits fold out) nfc
  Squeeze.trimEnds isSpaceUnit (Squeeze.collapse isSpaceUnit 0x20 false out)

def TextLibrary.normalizeForMatch (lib : TextLibrary) (s : List Nat) : List Nat :=
  lib.lower (foldText (lib.nfc s))

/-! ## The parts of a quotation -/

/-- `MIN_EVIDENCE_CHARS`. -/
def minEvidenceChars : Nat := 10

/-- How many units `\s*(?:…|\.{3,})\s*` matches at the start of a text. -/
def elisionLength (s : List Nat) : Option Nat :=
  let spaces := (s.takeWhile isSpaceUnit).length
  let behind (mark : Nat) : Nat :=
    spaces + mark + (((s.drop (spaces + mark)).takeWhile isSpaceUnit).length)
  let rest := s.drop spaces
  let dots := (rest.takeWhile (· = 0x2E)).length
  if rest.head? = some 0x2026 then some (behind 1)
  else if 3 ≤ dots then some (behind dots)
  else none

/-- The pieces between the marks; `skip` units of a mark are still to be read. -/
def splitPieces (piece : List Nat) : Nat → List Nat → List (List Nat)
  | _, [] => [piece]
  | skip + 1, _ :: s => splitPieces piece skip s
  | 0, u :: s =>
    match elisionLength (u :: s) with
    | some n => piece :: splitPieces [] (n - 1) s
    | none => splitPieces (piece ++ [u]) 0 s

def TextLibrary.splitElision (lib : TextLibrary) (evidence : List Nat) : List (List Nat) :=
  ((splitPieces [] 0 evidence).map lib.normalizeForMatch).filter fun part => 0 < part.length

/-! ## Normalization with a map -/

/-- The characters that a loop over a text gets. -/
def characters : List Nat → List (List Nat)
  | [] => []
  | [u] => [[u]]
  | hi :: lo :: l =>
    if isHigh hi ∧ isLow lo then [hi, lo] :: characters l else [hi] :: characters (lo :: l)

/-- The state of the loop of `normalizeWithMap`. -/
structure MapScan where
  out : List (List Nat)
  map : Option (List Nat)
  pendingSpace : Bool

/-- Writes a piece that comes from the unit at `i`. -/
def MapScan.push (scan : MapScan) (i : Nat) (piece : List Nat) : MapScan :=
  { scan with out := scan.out ++ [piece], map := scan.map.map (· ++ [i]) }

/-- Writes the space that is due, unless nothing is written yet. -/
def MapScan.pushSpace (scan : MapScan) (i : Nat) : MapScan :=
  if scan.pendingSpace then
    let scan := { scan with pendingSpace := false }
    if scan.out ≠ [] then scan.push i [0x20] else scan
  else scan

/-- The loop body for the unit `ch` at `i`. -/
def TextLibrary.mapStep (lib : TextLibrary) (scan : MapScan) (ch i : Nat) : MapScan :=
  let folded := foldChar ch
  if folded = [] then scan
  else if folded.any isSpaceUnit then { scan with pendingSpace := true }
  else (characters (lib.lower folded)).foldl (fun scan piece => scan.push i piece) (scan.pushSpace i)

/-- The loop of `normalizeWithMap`. -/
def TextLibrary.mapScan (lib : TextLibrary) (nfc : List Nat) (withMap : Bool) : MapScan :=
  nfc.zipIdx.foldl (fun scan c => lib.mapStep scan c.1 c.2)
    ⟨[], if withMap then some [] else none, false⟩

def TextLibrary.normalizeWithMap (lib : TextLibrary) (nfc : List Nat) (withMap : Bool) :
    List Nat × Option (List Nat) :=
  let scan := lib.mapScan nfc withMap
  (scan.out.flatten, scan.map)

/-! ## The search -/

/-- Where a part stands in the text in normal form; `stop` is exclusive. -/
structure EvidenceSpan where
  start : Nat
  stop : Nat
deriving DecidableEq, Repr

structure EvidenceLocation where
  check : EvidenceCheck
  spans : List EvidenceSpan
deriving DecidableEq, Repr

/-- `haystack.indexOf(part, cursor)`. -/
def indexOf (haystack part : List Nat) (cursor : Nat) : Option Nat :=
  (List.range' cursor (haystack.length + 1 - cursor)).find? fun i => part.isPrefixOf (haystack.drop i)

/-- The span of a match of `n` units at `i`. -/
def spanOf (map : List Nat) (i n : Nat) : EvidenceSpan :=
  ⟨map.getD i 0, map.getD (i + n - 1) 0 + 1⟩

/-- The loop over the parts. -/
def locateParts (haystack : List Nat) (map : Option (List Nat)) :
    List (List Nat) → Nat → List EvidenceSpan → EvidenceLocation
  | [], _, spans => ⟨.ok, spans⟩
  | part :: parts, cursor, spans =>
    if part.length < minEvidenceChars then ⟨.unverified, []⟩
    else
      match indexOf haystack part cursor with
      | none => ⟨.unverified, []⟩
      | some i =>
        locateParts haystack map parts (i + part.length)
          (match map with
            | none => spans
            | some map => spans ++ [spanOf map i part.length])

def TextLibrary.locateEvidence (lib : TextLibrary) (studentText evidence : List Nat)
    (wantSpans : Bool) : EvidenceLocation :=
  if Squeeze.trimEnds isSpaceUnit evidence = [] then ⟨.empty, []⟩
  else
    let parts := lib.splitElision evidence
    if parts = [] then ⟨.unverified, []⟩
    else
      let nfc := lib.nfc studentText
      let (haystack, map) := lib.normalizeWithMap nfc wantSpans
      locateParts haystack map parts 0 []

def TextLibrary.verifyEvidence (lib : TextLibrary) (studentText evidence : List Nat) :
    EvidenceCheck :=
  (lib.locateEvidence studentText evidence false).check

/-! ## Both normalizations are one squeeze -/

def foldToken (u : Nat) : Option Nat := (foldChar u).head?

theorem foldChar_cases (u : Nat) :
    (∃ v, foldChar u = [v] ∧ (v = u ∨ v ∈ [0x27, 0x22, 0x2D, 0x20])) ∨ foldChar u = [] := by
  unfold foldChar
  cases h : typographicFold.find? fun fold => fold.1 u with
  | none => exact .inl ⟨u, rfl, .inl rfl⟩
  | some fold =>
    have hmem := List.mem_of_find?_eq_some h
    simp only [typographicFold, List.mem_cons, List.not_mem_nil, or_false] at hmem
    rcases hmem with rfl | rfl | rfl | rfl | rfl
    · exact .inl ⟨_, rfl, .inr (by decide)⟩
    · exact .inl ⟨_, rfl, .inr (by decide)⟩
    · exact .inl ⟨_, rfl, .inr (by decide)⟩
    · exact .inl ⟨_, rfl, .inr (by decide)⟩
    · exact .inr rfl

theorem foldChar_eq (u : Nat) : foldChar u = (foldToken u).toList := by
  unfold foldToken
  rcases foldChar_cases u with ⟨v, hv, _⟩ | hnil
  · rw [hv]
    rfl
  · rw [hnil]
    rfl

theorem foldl_replaceUnits {table : List ((Nat → Bool) × List Nat)}
    (happart : table.Pairwise fun fold fold' => ∀ v ∈ fold.2, fold'.1 v = false) (s : List Nat) :
    table.foldl (fun out fold => replaceUnits fold out) s =
      s.flatMap fun u => ((table.find? fun fold => fold.1 u).map Prod.snd).getD [u] := by
  induction table generalizing s with
  | nil => simp
  | cons fold table ih =>
    obtain ⟨hfold, htable⟩ := List.pairwise_cons.1 happart
    rw [List.foldl_cons, ih htable, replaceUnits, List.flatMap_assoc]
    refine congrArg (List.flatMap · s) (funext fun u => ?_)
    by_cases hu : fold.1 u = true
    · simp only [hu, if_true, List.find?_cons, Option.map_some, Option.getD_some]
      have hkept : ∀ v ∈ fold.2,
          ((table.find? fun fold => fold.1 v).map Prod.snd).getD [v] = [v] := by
        intro v hv
        have hnone : (table.find? fun fold => fold.1 v) = none := by
          rw [List.find?_eq_none]
          intro fold' hfold'
          rw [hfold fold' hfold' v hv]
          decide
        rw [hnone]
        rfl
      rw [List.flatMap_congr hkept]
      simp
    · simp [hu]

theorem typographicFold_eq (s : List Nat) :
    typographicFold.foldl (fun out fold => replaceUnits fold out) s = s.filterMap foldToken := by
  rw [foldl_replaceUnits (by simp [typographicFold]), List.filterMap_eq_flatMap_toList]
  exact List.flatMap_congr fun u _ => foldChar_eq u

/-- The squeeze of both normalizations. -/
def squeezed (nfc : List Nat) : List Nat := Squeeze.squeeze foldToken isSpaceUnit 0x20 nfc

theorem squeezed_part {s nfc : List Nat} (h : s <:+: nfc) : squeezed s <:+: squeezed nfc :=
  Squeeze.squeeze_part h

theorem foldText_eq (nfc : List Nat) : foldText nfc = squeezed nfc := by
  unfold foldText squeezed
  rw [typographicFold_eq]
  exact Squeeze.trim_collapse (by decide) nfc

theorem normalizeForMatch_eq (lib : TextLibrary) (s : List Nat) :
    lib.normalizeForMatch s = lib.lower (squeezed (lib.nfc s)) := by
  rw [TextLibrary.normalizeForMatch, foldText_eq]

/-! ## The map is that of the squeeze -/

structure TextLibrary.LowersUnits (lib : TextLibrary) (s : List Nat) : Prop where
  one : ∀ u ∈ s, (lib.lower [u]).length = 1
  parts : ∀ t, t <:+: s → lib.lower t = t.flatMap fun u => lib.lower [u]

def TextLibrary.lowerUnit (lib : TextLibrary) (u : Nat) : Nat := (lib.lower [u]).headD 0

/-- The entries of a text in normal form. -/
def textEntries (nfc : List Nat) : List (Nat × Nat) :=
  Squeeze.entries foldToken isSpaceUnit 0x20 .start 0 nfc

/-- The place of the loop in the text. -/
def MapScan.place (scan : MapScan) : Squeeze.Place :=
  if scan.out = [] then .start else if scan.pendingSpace then .due else .inside

section Map

variable {lib : TextLibrary}

theorem lower_singleton {u : Nat} (h : (lib.lower [u]).length = 1) :
    lib.lower [u] = [lib.lowerUnit u] := by
  unfold TextLibrary.lowerUnit
  obtain ⟨v, hv⟩ := List.length_eq_one_iff.1 h
  rw [hv]
  rfl

theorem TextLibrary.LowersUnits.lower_part {s t : List Nat} (h : lib.LowersUnits s)
    (ht : t <:+: s) : lib.lower t = t.map lib.lowerUnit := by
  rw [h.parts t ht, List.map_eq_flatMap]
  exact List.flatMap_congr fun u hu => lower_singleton (h.one u (ht.subset hu))

theorem lowerUnit_gap : lib.lowerUnit 0x20 = 0x20 := by
  unfold TextLibrary.lowerUnit
  rw [lib.lower_gap]
  rfl

theorem mapStep_dropped {u : Nat} (hu : foldToken u = none) (scan : MapScan) (i : Nat) :
    lib.mapStep scan u i = scan := by
  unfold TextLibrary.mapStep
  rw [foldChar_eq, hu]
  rfl

theorem mapStep_space {u v : Nat} (hu : foldToken u = some v) (hv : isSpaceUnit v = true)
    (scan : MapScan) (i : Nat) :
    lib.mapStep scan u i = { scan with pendingSpace := true } := by
  unfold TextLibrary.mapStep
  rw [foldChar_eq, hu]
  simp [hv]

theorem mapStep_letter {u v : Nat} (hu : foldToken u = some v) (hv : isSpaceUnit v = false)
    (hone : (lib.lower [v]).length = 1) (scan : MapScan) (i : Nat) :
    lib.mapStep scan u i = (scan.pushSpace i).push i (lib.lower [v]) := by
  unfold TextLibrary.mapStep
  rw [foldChar_eq, hu]
  obtain ⟨w, hw⟩ := List.length_eq_one_iff.1 hone
  simp [hv, hw, characters]

theorem pushSpace_eq (scan : MapScan) (i : Nat) :
    scan.pushSpace i =
      { out := scan.out ++ (scan.place.gapAt 0x20 i).map fun e => [e.1]
        map := scan.map.map (· ++ (scan.place.gapAt 0x20 i).map Prod.snd)
        pendingSpace := false } := by
  obtain ⟨out, map, pendingSpace⟩ := scan
  unfold MapScan.pushSpace MapScan.place
  cases pendingSpace with
  | false => by_cases hout : out = [] <;> simp [hout, Squeeze.Place.gapAt]
  | true => by_cases hout : out = [] <;> simp [hout, Squeeze.Place.gapAt, MapScan.push]

theorem foldl_mapStep (lib : TextLibrary) (l : List Nat) (i : Nat) (scan : MapScan)
    (hone : ∀ e ∈ Squeeze.entries foldToken isSpaceUnit 0x20 scan.place i l,
      (lib.lower [e.1]).length = 1) :
    let written := Squeeze.entries foldToken isSpaceUnit 0x20 scan.place i l
    let done := (l.zipIdx i).foldl (fun scan c => lib.mapStep scan c.1 c.2) scan
    done.out = scan.out ++ written.map (fun e => lib.lower [e.1]) ∧
      done.map = scan.map.map (· ++ written.map Prod.snd) := by
  induction l generalizing i scan with
  | nil => simp [Squeeze.entries]
  | cons u l ih =>
    rw [List.zipIdx_cons, List.foldl_cons]
    simp only [Squeeze.entries] at hone ⊢
    cases hu : foldToken u with
    | none =>
      rw [hu] at hone
      rw [mapStep_dropped hu]
      exact ih (i + 1) scan hone
    | some v =>
      rw [hu] at hone
      by_cases hv : isSpaceUnit v = true
      · simp only [hv, if_true] at hone ⊢
        rw [mapStep_space hu hv]
        have hplace : ({ scan with pendingSpace := true } : MapScan).place = scan.place.space := by
          unfold MapScan.place
          by_cases hout : scan.out = []
          · simp [hout, Squeeze.Place.space]
          · cases hpending : scan.pendingSpace <;> simp [hout, Squeeze.Place.space]
        have hrest := ih (i + 1) { scan with pendingSpace := true }
        rw [hplace] at hrest
        exact hrest hone
      · have hletter : isSpaceUnit v = false := Bool.eq_false_iff.2 hv
        simp only [hletter, Bool.false_eq_true, if_false] at hone ⊢
        have hwidth : (lib.lower [v]).length = 1 := hone (v, i) (by simp)
        rw [mapStep_letter hu hletter hwidth, pushSpace_eq]
        have hrest := ih (i + 1)
          (MapScan.push
            { out := scan.out ++ (scan.place.gapAt 0x20 i).map fun e => [e.1]
              map := scan.map.map (· ++ (scan.place.gapAt 0x20 i).map Prod.snd)
              pendingSpace := false } i (lib.lower [v]))
        have hplace : (MapScan.push
            { out := scan.out ++ (scan.place.gapAt 0x20 i).map fun e => [e.1]
              map := scan.map.map (· ++ (scan.place.gapAt 0x20 i).map Prod.snd)
              pendingSpace := false } i (lib.lower [v])).place = .inside := by
          simp [MapScan.place, MapScan.push]
        rw [hplace] at hrest
        obtain ⟨hout, hmap⟩ := hrest fun e he =>
          hone e (List.mem_append_right _ (List.mem_cons_of_mem _ he))
        -- the gap is in lower case already
        have hgap : (scan.place.gapAt 0x20 i).map (fun e => [e.1]) =
            (scan.place.gapAt 0x20 i).map fun e => lib.lower [e.1] := by
          cases scan.place <;> simp [Squeeze.Place.gapAt, lib.lower_gap]
        refine ⟨?_, ?_⟩
        · rw [hout, MapScan.push, hgap]
          simp
        · rw [hmap, MapScan.push]
          cases scan.map <;> simp

theorem mem_squeezed_of_entry {nfc : List Nat} {e : Nat × Nat} (he : e ∈ textEntries nfc) :
    e.1 ∈ squeezed nfc := List.mem_map_of_mem he

theorem normalizeWithMap_eq {nfc : List Nat} (h : lib.LowersUnits (squeezed nfc))
    (withMap : Bool) :
    lib.normalizeWithMap nfc withMap =
      ((textEntries nfc).map (fun e => lib.lowerUnit e.1),
        if withMap then some ((textEntries nfc).map Prod.snd) else none) := by
  have hone : ∀ e ∈ textEntries nfc, (lib.lower [e.1]).length = 1 :=
    fun e he => h.one e.1 (mem_squeezed_of_entry he)
  obtain ⟨hout, hmap⟩ := foldl_mapStep lib nfc 0
    ⟨[], if withMap then some [] else none, false⟩ hone
  unfold TextLibrary.normalizeWithMap TextLibrary.mapScan
  dsimp only
  rw [hout, hmap]
  refine Prod.ext ?_ ?_
  · show ([] ++ (textEntries nfc).map _).flatten = _
    rw [List.nil_append, ← List.flatMap_def, List.map_eq_flatMap]
    exact List.flatMap_congr fun e he => lower_singleton (hone e he)
  · show Option.map (· ++ (textEntries nfc).map Prod.snd) _ = _
    cases withMap <;> rfl

end Map

end Cine.Grading
