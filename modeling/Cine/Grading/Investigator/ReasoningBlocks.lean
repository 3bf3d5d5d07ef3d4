import Cine.Grading.Investigator.VerdictReader

/-!
# Drafts in reasoning blocks

A reasoning block begins with an opening tag outside the JSON objects.  It
is open until its tags of one kind are closed, where an opening tag of the
same kind counts as nested, or until the end of the reply.
`outsideBlocks` is what stands outside the blocks.

The reader takes the first closing tag for the end of a block.  As long as
no closed block has a second opening tag of its kind in front of it, both
agree (`stripReasoning_eq_outside`), and a value is read from characters
outside the blocks (`reads_outside`).  A nested block lets its draft through
(`nestedReply_reads_draft`).
-/

namespace Cine.Grading

open Cine.Lib

/-! ## Blocks with nested tags -/

/-- The rest behind a block of the kind that has `n + 1` tags open. -/
def blockEnd (kind : ReasoningKind) : Nat → Nat → List Placed → Option (List Placed)
  | 0, _, _ => none
  | _ + 1, _, [] => none
  | fuel + 1, n, p :: l =>
    match dropClose kind (p :: l) with
    | some rest => if n = 0 then some rest else blockEnd kind fuel (n - 1) rest
    | none =>
      match openTagAt (p :: l) with
      | some (other, rest) =>
        if other = kind then blockEnd kind fuel (n + 1) rest else blockEnd kind fuel n l
      | none => blockEnd kind fuel n l

/-- What stands outside the blocks, from a place on. -/
def outsideFrom : Nat → Scan → List Placed → List Placed
  | 0, _, _ => []
  | _ + 1, _, [] => []
  | fuel + 1, s, p :: l =>
    match if s.isOutside then openTagAt (p :: l) else none with
    | some (kind, after) =>
      match blockEnd kind after.length 0 after with
      | some rest => outsideFrom fuel s rest
      | none => []
    | none => p :: outsideFrom fuel (s.next p.1) l

/-- What stands outside the reasoning blocks of a reply. -/
def outsideBlocks (content : List Placed) : List Placed :=
  outsideFrom content.length .start content

/-- An opening tag of the kind stands in front of the first closing one. -/
def opensAgain (kind : ReasoningKind) : List Placed → Bool
  | [] => false
  | p :: l =>
    match dropClose kind (p :: l) with
    | some _ => false
    | none => (openTagAt (p :: l)).any (fun tag => tag.1 = kind) || opensAgain kind l

/-- No closed block has a nested one, from a place on. -/
def noNestedFrom : Nat → Scan → List Placed → Bool
  | 0, _, _ => true
  | _ + 1, _, [] => true
  | fuel + 1, s, p :: l =>
    match if s.isOutside then openTagAt (p :: l) else none with
    | some (kind, after) =>
      match findClose kind after with
      | some rest => !opensAgain kind after && noNestedFrom fuel s rest
      | none => true
    | none => noNestedFrom fuel (s.next p.1) l

/-- No closed reasoning block has an opening tag of its own kind in front of
its first closing tag. -/
def noNestedBlock (content : List Placed) : Bool :=
  noNestedFrom content.length .start content

/-! ## What stands behind a tag -/

variable {l rest : List Placed} {kind : ReasoningKind} {fuel : Nat}

theorem dropName_suffix {name : List Char} (h : dropName name l = some rest) : rest <:+ l := by
  induction name generalizing l with
  | nil =>
    cases h
    exact List.suffix_refl _
  | cons n name ih =>
    cases l with
    | nil => cases h
    | cons p l =>
      rw [dropName] at h
      split_ifs at h
      exact (ih h).trans (List.suffix_cons p l)

theorem dropOpen_suffix (h : dropOpen kind l = some rest) : rest <:+ l := by
  unfold dropOpen at h
  cases l with
  | nil => cases h
  | cons p l =>
    dsimp only at h
    split_ifs at h
    obtain ⟨named, hname, h⟩ := Option.bind_eq_some_iff.1 h
    split_ifs at h
    have hdrop := List.dropWhile_suffix (l := named) fun q : Placed => q.1 ≠ '>'
    cases hrest : named.dropWhile fun q : Placed => q.1 ≠ '>' with
    | nil =>
      rw [hrest] at h
      cases h
    | cons q after =>
      rw [hrest] at h hdrop
      cases h
      exact ((List.suffix_cons q rest).trans hdrop).trans
        ((dropName_suffix hname).trans (List.suffix_cons p l))

theorem openTagAt_suffix (h : openTagAt l = some (kind, rest)) : rest <:+ l := by
  obtain ⟨k, _, hk⟩ := List.exists_of_findSome?_eq_some h
  obtain ⟨after, hafter, heq⟩ := Option.map_eq_some_iff.1 hk
  cases heq
  exact dropOpen_suffix hafter

theorem findClose_suffix (hrest : rest <:+ l) (h : findClose kind l = none) :
    findClose kind rest = none := by
  obtain ⟨front, rfl⟩ := hrest
  induction front with
  | nil => exact h
  | cons p front ih =>
    rw [List.cons_append, findClose] at h
    cases hclose : dropClose kind (p :: (front ++ rest)) with
    | some after =>
      rw [hclose] at h
      cases h
    | none =>
      rw [hclose] at h
      exact ih h

/-! ## Both ends of a block -/

theorem blockEnd_of_findClose_none {n : Nat} (h : findClose kind l = none) :
    blockEnd kind fuel n l = none := by
  induction fuel generalizing n l with
  | zero => rfl
  | succ fuel ih =>
    cases l with
    | nil => rfl
    | cons p l =>
      have hl : findClose kind l = none := findClose_suffix (List.suffix_cons p l) h
      rw [blockEnd]
      cases hclose : dropClose kind (p :: l) with
      | some after =>
        rw [findClose, hclose] at h
        cases h
      | none =>
        dsimp only
        cases hopen : openTagAt (p :: l) with
        | none => exact ih hl
        | some tag =>
          obtain ⟨other, rest⟩ := tag
          dsimp only
          split_ifs
          · exact ih (findClose_suffix (openTagAt_suffix hopen) h)
          · exact ih hl

theorem blockEnd_of_not_opensAgain (hfuel : l.length ≤ fuel) (h : opensAgain kind l = false) :
    blockEnd kind fuel 0 l = findClose kind l := by
  induction fuel generalizing l with
  | zero =>
    rw [List.length_eq_zero_iff.1 (Nat.le_zero.1 hfuel)]
    rfl
  | succ fuel ih =>
    cases l with
    | nil => rfl
    | cons p l =>
      rw [opensAgain] at h
      rw [blockEnd, findClose]
      cases hclose : dropClose kind (p :: l) with
      | some after =>
        dsimp only
        rw [if_pos rfl]
      | none =>
        rw [hclose] at h
        obtain ⟨hopen, hagain⟩ := Bool.or_eq_false_iff.1 h
        have hrest := ih (Nat.le_of_succ_le_succ hfuel) hagain
        dsimp only
        cases htag : openTagAt (p :: l) with
        | none => exact hrest
        | some tag =>
          obtain ⟨other, rest⟩ := tag
          rw [htag] at hopen
          dsimp only
          rw [if_neg (of_decide_eq_false hopen)]
          exact hrest

theorem stripFrom_eq_outsideFrom {s : Scan} (h : noNestedFrom fuel s l = true) :
    stripFrom fuel s l = outsideFrom fuel s l := by
  induction fuel generalizing s l with
  | zero => rfl
  | succ fuel ih =>
    cases l with
    | nil => rfl
    | cons p l =>
      rw [noNestedFrom] at h
      rw [stripFrom, outsideFrom]
      cases htag : (if s.isOutside = true then openTagAt (p :: l) else none) with
      | none =>
        rw [htag] at h
        exact congrArg (p :: ·) (ih h)
      | some tag =>
        obtain ⟨kind, after⟩ := tag
        rw [htag] at h
        dsimp only at h ⊢
        cases hclose : findClose kind after with
        | none => rw [blockEnd_of_findClose_none hclose]
        | some rest =>
          rw [hclose] at h
          obtain ⟨hagain, hrest⟩ := Bool.and_eq_true_iff.1 h
          rw [blockEnd_of_not_opensAgain le_rfl (by simpa using hagain), hclose]
          exact ih hrest

theorem stripReasoning_eq_outside {content : List Placed} (h : noNestedBlock content = true) :
    stripReasoning content = outsideBlocks content :=
  stripFrom_eq_outsideFrom h

/-! ## What a value is read from -/

theorem mem_of_mem_trimPlaced {p : Placed} (h : p ∈ trimPlaced l) : p ∈ l := by
  unfold trimPlaced at h
  have h' := (List.dropWhile_suffix _).subset (List.mem_reverse.1 h)
  exact (List.dropWhile_suffix _).subset (List.mem_reverse.1 h')

theorem mem_of_mem_objectsFrom {s : Scan} {current o : List Placed}
    (h : o ∈ objectsFrom s current l) {p : Placed} (hp : p ∈ o) : p ∈ current ∨ p ∈ l := by
  induction l generalizing s current with
  | nil => cases h
  | cons q l ih =>
    rw [objectsFrom] at h
    have hcurrent : ∀ {b : Prop} [Decidable b], p ∈ (if b then [] else current ++ [q]) →
        p ∈ current ∨ p ∈ q :: l := by
      intro b _ hmem
      split_ifs at hmem
      · cases hmem
      · rcases List.mem_append.1 hmem with hmem | hmem
        · exact Or.inl hmem
        · rw [List.mem_singleton.1 hmem]
          exact Or.inr List.mem_cons_self
    by_cases hend : s.depth ≠ 0 ∧ (s.next q.1).depth = 0
    · rw [if_pos hend] at h
      rcases List.mem_cons.1 h with rfl | h
      · exact hcurrent hp
      · rcases ih h with hmem | hmem
        · cases hmem
        · exact Or.inr (List.mem_cons_of_mem q hmem)
    · rw [if_neg hend] at h
      rcases ih h with hmem | hmem
      · exact hcurrent hmem
      · exact Or.inr (List.mem_cons_of_mem q hmem)

section Read

variable {V : Type} {parse : String → Option V} {canonical : V → String}

theorem readPlaced_spec {content used : List Placed} {value : V}
    (h : readPlaced parse canonical content = .ok (value, used)) :
    parse (textOf used) = some value ∧ ∀ p ∈ used, p ∈ stripReasoning content := by
  unfold readPlaced at h
  dsimp only at h
  split_ifs at h
  cases hwhole : parse (textOf (trimPlaced (stripReasoning content))) with
  | some v =>
    rw [hwhole] at h
    cases h
    exact ⟨hwhole, fun p => mem_of_mem_trimPlaced⟩
  | none =>
    rw [hwhole] at h
    generalize hparsed : (topLevelObjects (trimPlaced (stripReasoning content))).filterMap
      (fun o => (parse (textOf o)).map (·, o)) = parsed at h
    cases parsed with
    | nil => cases h
    | cons first others =>
      dsimp only at h
      split_ifs at h
      cases h
      have hmem : (value, used) ∈ (topLevelObjects (trimPlaced (stripReasoning content))).filterMap
          (fun o => (parse (textOf o)).map (·, o)) := hparsed ▸ List.mem_cons_self
      obtain ⟨o, ho, hread⟩ := List.mem_filterMap.1 hmem
      obtain ⟨v, hv, heq⟩ := Option.map_eq_some_iff.1 hread
      cases heq
      refine ⟨hv, fun p hp => mem_of_mem_trimPlaced ?_⟩
      exact (mem_of_mem_objectsFrom ho hp).resolve_left List.not_mem_nil

end Read

/-- The value of a reply is read from characters outside the reasoning
blocks. -/
def ReadsOutside {V : Type} (parse : String → Option V) (canonical : V → String)
    (content : String) : Prop :=
  ∀ value used, readPlaced parse canonical (place content) = .ok (value, used) →
    parse (textOf used) = some value ∧ ∀ p ∈ used, p ∈ outsideBlocks (place content)

/-- Where no block is nested, no draft is read. -/
theorem reads_outside {V : Type} (parse : String → Option V) (canonical : V → String)
    (content : String) (h : noNestedBlock (place content) = true) :
    ReadsOutside parse canonical content := by
  intro value used hread
  obtain ⟨hparse, hused⟩ := readPlaced_spec hread
  rw [stripReasoning_eq_outside h] at hused
  exact ⟨hparse, hused⟩

/-! ## A draft behind a nested tag -/

/-- Reads two texts, the ones that occur here, and no others. -/
def readsTwo (text : String) : Option String :=
  if text = "\x7b\"draft\":1\x7d" ∨ text = "\x7b\"final\":1\x7d" then some text else none

def flatReply : String := "<think>\x7b\"draft\":1\x7d</think>\n\x7b\"final\":1\x7d"

theorem flatReply_reads_final :
    (readSingleJson readsTwo id flatReply).toOption = some "\x7b\"final\":1\x7d" ∧
      ReadsOutside readsTwo id flatReply :=
  ⟨by decide, reads_outside readsTwo id flatReply (by decide)⟩

/-- The outer block is never closed. -/
def nestedReply : String := "<think>a<think>b</think>\x7b\"draft\":1\x7d"

theorem nestedReply_reads_draft :
    (readSingleJson readsTwo id nestedReply).toOption = some "\x7b\"draft\":1\x7d" ∧
      outsideBlocks (place nestedReply) = [] ∧ ¬ ReadsOutside readsTwo id nestedReply := by
  have hread : (readPlaced readsTwo id (place nestedReply)).toOption =
      some ("\x7b\"draft\":1\x7d", (place nestedReply).drop 24) := by
    decide
  have hnone : outsideBlocks (place nestedReply) = [] := by decide
  refine ⟨by decide, hnone, fun h => ?_⟩
  cases hplaced : readPlaced readsTwo id (place nestedReply) with
  | error e =>
    rw [hplaced] at hread
    cases hread
  | ok r =>
    rw [hplaced] at hread
    obtain rfl : r = _ := Option.some_inj.1 hread
    have hmem := (h _ _ hplaced).2 ('\x7b', 24) (by decide)
    rw [hnone] at hmem
    cases hmem

end Cine.Grading
