import Cine.Grading.Investigator.ReasoningBlocks
import Cine.Grading.Investigator.ScannedJson
import Cine.Lib.JsonOrder

/-!
# An answer in JSON

The reader of verdicts with the JSON of a script.  Its strings have no half
surrogate pairs.

There are four groups.

* Closed blocks.  What is a closed block on its own is one in front of any
  text (`ClosedBlock.append`).
* `Prose` is a text without braces in which every reasoning tag that opens is
  closed.  Of prose and an object the reader strips the blocks only
  (`stripReasoning_answer`).
* Whole texts.  A trimmed text that the parser reads as a whole is one object
  for the scan, or it has no object, or it is an array or a string.
* `readJson_spec`: an answer behind prose is read, and a value that is read
  agrees with every object outside the blocks.
-/

namespace Cine.Grading

open Cine.Lib Cine.Lib.JsonText

/-! ## Closed blocks -/

/-- An opening tag whose first closing tag ends the text. -/
def ClosedBlock (block : List Placed) : Prop :=
  ∃ kind after, openTagAt block = some (kind, after) ∧ findClose kind after = some []

variable {l rest after : List Placed} {name : List Char} {kind : ReasoningKind} {p : Placed}

theorem dropName_append (r : List Placed) (h : dropName name l = some rest) :
    dropName name (l ++ r) = some (rest ++ r) := by
  induction name generalizing l with
  | nil =>
    cases h
    rfl
  | cons n name ih =>
    cases l with
    | nil => cases h
    | cons p l =>
      rw [dropName] at h
      rw [List.cons_append, dropName]
      split_ifs at h ⊢
      exact ih h

theorem dropName_split (h : dropName name l = some rest) :
    ∃ front, l = front ++ rest ∧ dropName name front = some [] ∧
      ∀ p ∈ front, p.1.toLower ∈ name := by
  induction name generalizing l with
  | nil =>
    cases h
    exact ⟨[], rfl, rfl, List.forall_mem_nil _⟩
  | cons n name ih =>
    cases l with
    | nil => cases h
    | cons p l =>
      rw [dropName] at h
      split_ifs at h with hp
      obtain ⟨front, rfl, hfront, hmem⟩ := ih h
      refine ⟨p :: front, rfl, ?_, ?_⟩
      · rw [dropName, if_pos hp]
        exact hfront
      · refine List.forall_mem_cons.2 ⟨hp ▸ List.mem_cons_self, fun q hq => ?_⟩
        exact List.mem_cons_of_mem n (hmem q hq)

theorem dropName_names {name' : List Char} (h : dropName name l = some rest) :
    dropName (name ++ name') l = dropName name' rest := by
  induction name generalizing l with
  | nil =>
    cases h
    rfl
  | cons n name ih =>
    cases l with
    | nil => cases h
    | cons p l =>
      rw [dropName] at h
      split_ifs at h with hp
      rw [List.cons_append, dropName, if_pos hp]
      exact ih h

theorem dropWhile_append_of_cons {α : Type} {f : α → Bool} {l after : List α} {q : α}
    (r : List α) (h : l.dropWhile f = q :: after) : (l ++ r).dropWhile f = q :: (after ++ r) := by
  rw [List.dropWhile_append, h]
  rfl

theorem dropOpen_append (r : List Placed) (h : dropOpen kind l = some after) :
    dropOpen kind (l ++ r) = some (after ++ r) := by
  unfold dropOpen at h ⊢
  cases l with
  | nil => cases h
  | cons p l =>
    dsimp only at h
    rw [List.cons_append]
    dsimp only
    split_ifs at h ⊢
    obtain ⟨rest, hname, h⟩ := Option.bind_eq_some_iff.1 h
    rw [dropName_append r hname, Option.bind_some]
    cases rest with
    | nil => cases h
    | cons q rest =>
      rw [List.cons_append]
      rw [List.head?_cons] at h ⊢
      split_ifs at h ⊢
      cases hdrop : (q :: rest).dropWhile fun q => q.1 ≠ '>' with
      | nil =>
        rw [hdrop] at h
        cases h
      | cons q' after' =>
        rw [hdrop] at h
        cases h
        have happend := dropWhile_append_of_cons r hdrop
        rw [List.cons_append] at happend
        rw [happend]

theorem dropOpen_name (h : dropOpen kind l = some after) :
    ∃ p rest behind, l = p :: rest ∧ dropName kind.name.toList rest = some behind ∧
      ∀ q, behind.head? = some q → isWordChar q.1 = false := by
  unfold dropOpen at h
  cases l with
  | nil => cases h
  | cons p l =>
    dsimp only at h
    split_ifs at h
    obtain ⟨behind, hname, h⟩ := Option.bind_eq_some_iff.1 h
    split_ifs at h with hword
    refine ⟨p, l, behind, rfl, hname, fun q hq => ?_⟩
    rw [hq] at hword
    simpa using hword

theorem isWordChar_of_toLower {c : Char} (h : c.toLower = 'i') : isWordChar c = true := by
  by_cases hupper : c.isUpper = true
  · show (c.isUpper || c.isLower || c.isDigit || decide (c = '_')) = true
    rw [hupper]
    rfl
  · unfold Char.toLower at h
    rw [dif_neg fun hletter => hupper (decide_eq_true hletter)] at h
    rw [h]
    decide

theorem dropOpen_kind {kind' : ReasoningKind} {after' : List Placed}
    (h : dropOpen kind l = some after) (h' : dropOpen kind' l = some after') : kind = kind' := by
  obtain ⟨p, rest, behind, rfl, hname, hword⟩ := dropOpen_name h
  obtain ⟨p', rest', behind', hl, hname', hword'⟩ := dropOpen_name h'
  obtain ⟨rfl, rfl⟩ := List.cons.inj hl
  -- the word goes on behind the shorter name
  have hlonger : ∀ {m m' : List Placed}, dropName "think".toList rest = some m →
      dropName "thinking".toList rest = some m' →
      ∃ q, m.head? = some q ∧ isWordChar q.1 = true := by
    intro m m' hm hm'
    rw [show "thinking".toList = "think".toList ++ "ing".toList from rfl, dropName_names hm] at hm'
    cases m with
    | nil => cases hm'
    | cons q m =>
      rw [show "ing".toList = ['i', 'n', 'g'] from rfl, dropName] at hm'
      split_ifs at hm' with hq
      exact ⟨q, rfl, isWordChar_of_toLower hq⟩
  have hother : ∀ {name : List Char} {m m' : List Placed},
      dropName ('t' :: name) rest = some m → dropName "reasoning".toList rest = some m' →
      False := by
    intro name m m' hm hm'
    cases rest with
    | nil => cases hm
    | cons q rest =>
      rw [show "reasoning".toList = 'r' :: "easoning".toList from rfl, dropName] at hm'
      rw [dropName] at hm
      split_ifs at hm' with hr
      rw [hr, if_neg (by decide)] at hm
      cases hm
  cases kind <;> cases kind'
  case think.think => rfl
  case thinking.thinking => rfl
  case reasoning.reasoning => rfl
  case think.thinking =>
    obtain ⟨q, hq, hyes⟩ := hlonger hname hname'
    rw [hword q hq] at hyes
    cases hyes
  case thinking.think =>
    obtain ⟨q, hq, hyes⟩ := hlonger hname' hname
    rw [hword' q hq] at hyes
    cases hyes
  case think.reasoning => exact (hother hname hname').elim
  case thinking.reasoning => exact (hother hname hname').elim
  case reasoning.think => exact (hother hname' hname).elim
  case reasoning.thinking => exact (hother hname' hname).elim

theorem openTagAt_eq_some_iff :
    openTagAt l = some (kind, after) ↔ dropOpen kind l = some after := by
  constructor
  · intro h
    obtain ⟨k, -, hk⟩ := List.exists_of_findSome?_eq_some h
    obtain ⟨after', hafter, heq⟩ := Option.map_eq_some_iff.1 hk
    cases heq
    exact hafter
  · intro h
    cases hopen : openTagAt l with
    | none =>
      have hnone := List.findSome?_eq_none_iff.1 hopen kind (by cases kind <;> simp)
      rw [h] at hnone
      cases hnone
    | some tag =>
      obtain ⟨k, -, hk⟩ := List.exists_of_findSome?_eq_some hopen
      obtain ⟨after', hafter, rfl⟩ := Option.map_eq_some_iff.1 hk
      obtain rfl := dropOpen_kind h hafter
      rw [h] at hafter
      cases hafter
      rfl

theorem openTagAt_append (r : List Placed) (h : openTagAt l = some (kind, after)) :
    openTagAt (l ++ r) = some (kind, after ++ r) :=
  openTagAt_eq_some_iff.2 (dropOpen_append r (openTagAt_eq_some_iff.1 h))

theorem dropClose_append (r : List Placed) (h : dropClose kind l = some after) :
    dropClose kind (l ++ r) = some (after ++ r) := by
  match l with
  | [] => cases h
  | [p] => cases h
  | p :: q :: l =>
    rw [List.cons_append, List.cons_append]
    rw [dropClose] at h ⊢
    split_ifs at h ⊢
    obtain ⟨behind, hname, h⟩ := Option.bind_eq_some_iff.1 h
    rw [dropName_append r hname, Option.bind_some]
    cases hdrop : behind.dropWhile fun q : Placed => Lib.isSpace q.1 with
    | nil =>
      rw [hdrop] at h
      cases h
    | cons q' after' =>
      rw [hdrop] at h
      rw [dropWhile_append_of_cons r hdrop]
      dsimp only at h ⊢
      split_ifs at h ⊢
      cases h
      rfl

/-- What a closing tag is read from. -/
theorem dropClose_split (h : dropClose kind (p :: l) = some rest) :
    ∃ front, l = front ++ rest ∧ dropClose kind (p :: front) = some [] ∧
      ∀ q ∈ front, q.1 ≠ '<' := by
  cases l with
  | nil => cases h
  | cons q l =>
    rw [dropClose] at h
    split_ifs at h with htag
    obtain ⟨behind, hname, hbehind⟩ := Option.bind_eq_some_iff.1 h
    obtain ⟨word, rfl, hword, hletters⟩ := dropName_split hname
    have hsplit := List.takeWhile_append_dropWhile (p := fun q : Placed => Lib.isSpace q.1)
      (l := behind)
    have hspaces : ∀ q' ∈ behind.takeWhile fun q : Placed => Lib.isSpace q.1,
        Lib.isSpace q'.1 = true :=
      fun _ hq => List.mem_takeWhile_imp (p := fun q : Placed => Lib.isSpace q.1) hq
    cases hdrop : behind.dropWhile fun q : Placed => Lib.isSpace q.1 with
    | nil =>
      rw [hdrop] at hbehind
      cases hbehind
    | cons q' after =>
      rw [hdrop] at hbehind hsplit
      dsimp only at hbehind
      split_ifs at hbehind with hend
      cases hbehind
      generalize behind.takeWhile (fun q : Placed => Lib.isSpace q.1) = spaces at hsplit hspaces
      subst hsplit
      refine ⟨q :: (word ++ (spaces ++ [q'])), by simp, ?_, ?_⟩
      · have hnotSpace : Lib.isSpace q'.1 = false := by
          rw [hend]
          decide
        rw [dropClose, if_pos htag, dropName_append _ hword, Option.bind_some, List.nil_append,
          List.dropWhile_append_of_pos hspaces, List.dropWhile_cons, hnotSpace]
        exact if_pos hend
      · intro c hc hopen
        rcases List.mem_cons.1 hc with rfl | hc
        · rw [htag.2] at hopen
          revert hopen
          decide
        rcases List.mem_append.1 hc with hc | hc
        · have hletter := hletters c hc
          rw [hopen] at hletter
          revert hletter
          cases kind <;> decide
        rcases List.mem_append.1 hc with hc | hc
        · have hspace := hspaces c hc
          rw [hopen] at hspace
          revert hspace
          decide
        · rw [List.mem_singleton.1 hc, hend] at hopen
          revert hopen
          decide

theorem findClose_cons :
    findClose kind (p :: l) = (dropClose kind (p :: l)).or (findClose kind l) := by
  rw [findClose]
  cases dropClose kind (p :: l) <;> rfl

theorem mem_of_findClose (h : findClose kind l = some rest) : ∃ p ∈ l, p.1 = '<' := by
  induction l with
  | nil => cases h
  | cons p l ih =>
    rw [findClose_cons] at h
    cases hclose : dropClose kind (p :: l) with
    | none =>
      rw [hclose] at h
      obtain ⟨q, hq, hopen⟩ := ih h
      exact ⟨q, List.mem_cons_of_mem p hq, hopen⟩
    | some after =>
      refine ⟨p, List.mem_cons_self, ?_⟩
      cases l with
      | nil => cases hclose
      | cons q l =>
        rw [dropClose] at hclose
        split_ifs at hclose with htag
        exact htag.1

theorem findClose_append (r : List Placed) (h : findClose kind l = some rest) :
    findClose kind (l ++ r) = some (rest ++ r) := by
  induction l with
  | nil => cases h
  | cons p l ih =>
    rw [findClose_cons] at h
    rw [List.cons_append, findClose_cons]
    cases hclose : dropClose kind (p :: l) with
    | some after =>
      rw [hclose] at h
      cases h
      rw [← List.cons_append, dropClose_append r hclose]
      rfl
    | none =>
      rw [hclose] at h
      have hnone : dropClose kind (p :: (l ++ r)) = none := by
        by_contra hsome
        obtain ⟨after, hafter⟩ := Option.ne_none_iff_exists'.1 hsome
        obtain ⟨front, hfront, hread, hplain⟩ := dropClose_split hafter
        rcases List.append_eq_append_iff.1 hfront with ⟨m, rfl, -⟩ | ⟨m, rfl, -⟩
        · obtain ⟨q, hq, hopen⟩ := mem_of_findClose (h : findClose kind l = some rest)
          exact hplain q (List.mem_append_left m hq) hopen
        · have hshort := dropClose_append m hread
          rw [List.cons_append, hclose] at hshort
          cases hshort
      rw [hnone, Option.none_or]
      exact ih h

theorem ClosedBlock.append {block : List Placed} (r : List Placed) (h : ClosedBlock block) :
    ∃ kind after, openTagAt (block ++ r) = some (kind, after) ∧
      findClose kind after = some r := by
  obtain ⟨kind, after, hopen, hclose⟩ := h
  exact ⟨kind, after ++ r, openTagAt_append r hopen, findClose_append r hclose⟩

/-! ## Prose in front of an answer -/

/-- A text in front of another one: it has no braces outside closed blocks,
and every reasoning tag that opens in it is closed in it. -/
inductive Prose (behind : List Placed) : List Placed → Prop
  | nil : Prose behind []
  | char {p : Placed} {l : List Placed} : p.1 ≠ '\x7b' → p.1 ≠ '\x7d' →
    openTagAt (p :: (l ++ behind)) = none → Prose behind l → Prose behind (p :: l)
  | block {block l : List Placed} : ClosedBlock block → Prose behind l → Prose behind (block ++ l)

theorem prose_of_plain {behind : List Placed} (h : ∀ p ∈ l, p.1 ≠ '<' ∧ p.1 ≠ '\x7b' ∧ p.1 ≠ '\x7d') :
    Prose behind l := by
  induction l with
  | nil => exact .nil
  | cons p l ih =>
    obtain ⟨⟨htag, hopen, hclose⟩, hl⟩ := List.forall_mem_cons.1 h
    exact .char hopen hclose (openTagAt_eq_none htag) (ih hl)

theorem stripFrom_prose {behind lead : List Placed} (h : Prose behind lead) {fuel : Nat}
    (hfuel : (lead ++ behind).length ≤ fuel) :
    ∃ kept fuel', behind.length ≤ fuel' ∧
      stripFrom fuel .start (lead ++ behind) = kept ++ stripFrom fuel' .start behind ∧
      ∀ p ∈ kept, p.1 ≠ '\x7b' ∧ p.1 ≠ '\x7d' := by
  induction h generalizing fuel with
  | nil => exact ⟨[], fuel, hfuel, rfl, List.forall_mem_nil _⟩
  | @char p l hopen hclose htag _ ih =>
    obtain ⟨fuel, rfl⟩ := Nat.exists_eq_add_one_of_ne_zero
      (Nat.ne_of_gt (Nat.lt_of_lt_of_le (Nat.succ_pos _) hfuel))
    obtain ⟨kept, fuel', hfuel', hstrip, hkept⟩ := ih (Nat.le_of_succ_le_succ hfuel)
    have hnext : Scan.start.next p.1 = .start := by
      simp [Scan.next, Scan.start, hopen, hclose]
    refine ⟨p :: kept, fuel', hfuel', ?_, List.forall_mem_cons.2 ⟨⟨hopen, hclose⟩, hkept⟩⟩
    rw [List.cons_append, stripFrom, htag, ite_self, hnext, hstrip]
    rfl
  | @block block l hblock _ ih =>
    obtain ⟨kind, after, hopen, hclose⟩ := hblock.append (l ++ behind)
    cases block with
    | nil =>
      obtain ⟨_, _, hopen, -⟩ := hblock
      cases hopen
    | cons p block =>
      rw [List.append_assoc] at hfuel ⊢
      obtain ⟨fuel, rfl⟩ := Nat.exists_eq_add_one_of_ne_zero
        (Nat.ne_of_gt (Nat.lt_of_lt_of_le (Nat.succ_pos _) hfuel))
      have hshort : (l ++ behind).length ≤ fuel := by
        rw [List.length_append, List.length_cons] at hfuel
        omega
      obtain ⟨kept, fuel', hfuel', hstrip, hkept⟩ := ih hshort
      refine ⟨kept, fuel', hfuel', ?_, hkept⟩
      rw [List.cons_append] at hopen ⊢
      rw [stripFrom, if_pos (by decide), hopen]
      dsimp only
      rw [hclose]
      exact hstrip

/-- What may stand behind an answer: the end of a code fence. -/
def isFence (c : Char) : Bool := Lib.isSpace c || c = '`'

theorem isFence_ne {c : Char} (h : isFence c = true) :
    c ≠ '<' ∧ c ≠ '\x7b' ∧ c ≠ '\x7d' ∧ c ≠ '"' ∧ c ≠ ']' := by
  refine ⟨?_, ?_, ?_, ?_, ?_⟩ <;> rintro rfl <;> revert h <;> decide

theorem stripReasoning_answer {lead answer fence : List Placed} {inner : List Char}
    (hlead : Prose (answer ++ fence) lead)
    (hanswer : answer.map Prod.fst = '\x7b' :: (inner ++ ['\x7d'])) (hinner : Balanced inner)
    (hfence : ∀ p ∈ fence, isFence p.1 = true) :
    ∃ kept, stripReasoning (lead ++ (answer ++ fence)) = kept ++ (answer ++ fence) ∧
      ∀ p ∈ kept, p.1 ≠ '\x7b' ∧ p.1 ≠ '\x7d' := by
  obtain ⟨kept, fuel, hfuel, hstrip, hkept⟩ := stripFrom_prose hlead le_rfl
  refine ⟨kept, ?_, hkept⟩
  obtain ⟨hobject, hback⟩ := kept_object (r := fence ++ []) hanswer hinner
  have hend : ∀ {s : Scan} {l : List Placed}, (∀ p ∈ l, isFence p.1 = true) →
      Kept s l [] := by
    intro s l hl
    induction l generalizing s with
    | nil => trivial
    | cons p l ih =>
      obtain ⟨hp, hl⟩ := List.forall_mem_cons.1 hl
      exact ⟨fun _ => openTagAt_eq_none (isFence_ne hp).1, ih hl⟩
  obtain ⟨extra, rfl⟩ := Nat.exists_eq_add_of_le' hfuel
  have hall := stripFrom_kept extra (hobject.append (hend hfence))
  unfold stripReasoning
  rw [hstrip]
  rw [List.append_nil] at hall
  rw [hall]
  cases extra <;> simp [stripFrom]

/-! ## NoOuterSpace texts -/

/-- A text that neither begins nor ends with a space. -/
structure NoOuterSpace (l : List Placed) : Prop where
  head : ∀ {p m}, l = p :: m → Lib.isSpace p.1 = false
  last : ∀ {p m}, l = m ++ [p] → Lib.isSpace p.1 = false

theorem not_space_of_dropWhile {m : List Placed}
    (h : l.dropWhile (fun p => Lib.isSpace p.1) = p :: m) : Lib.isSpace p.1 = false := by
  have hhead := List.head?_dropWhile_not (fun p : Placed => Lib.isSpace p.1) l
  rw [h] at hhead
  simpa using hhead

theorem trimPlaced_split (l : List Placed) :
    ∃ front back, l = front ++ (trimPlaced l ++ back) ∧
      (∀ p ∈ front, Lib.isSpace p.1 = true) ∧ (∀ p ∈ back, Lib.isSpace p.1 = true) := by
  have hfront := List.takeWhile_append_dropWhile (p := fun p : Placed => Lib.isSpace p.1) (l := l)
  have hback := List.takeWhile_append_dropWhile (p := fun p : Placed => Lib.isSpace p.1)
    (l := (l.dropWhile fun p => Lib.isSpace p.1).reverse)
  refine ⟨l.takeWhile fun p => Lib.isSpace p.1,
    ((l.dropWhile fun p => Lib.isSpace p.1).reverse.takeWhile fun p => Lib.isSpace p.1).reverse,
    ?_, fun p hp => ?_, fun p hp => ?_⟩
  · unfold trimPlaced
    rw [← List.reverse_append, hback, List.reverse_reverse, hfront]
  · exact List.mem_takeWhile_imp (p := fun p : Placed => Lib.isSpace p.1) hp
  · exact List.mem_takeWhile_imp (p := fun p : Placed => Lib.isSpace p.1) ( List.mem_reverse.1 hp)

theorem trimmed_trimPlaced (l : List Placed) : NoOuterSpace (trimPlaced l) := by
  unfold trimPlaced
  refine ⟨fun {p m} h => ?_, fun {p m} h => ?_⟩
  · have hback := List.takeWhile_append_dropWhile (p := fun p : Placed => Lib.isSpace p.1)
      (l := (l.dropWhile fun p => Lib.isSpace p.1).reverse)
    have hsplit := congrArg List.reverse hback
    rw [List.reverse_append, List.reverse_reverse, h] at hsplit
    exact not_space_of_dropWhile hsplit.symm
  · have hreverse := congrArg List.reverse h
    rw [List.reverse_reverse, List.reverse_append] at hreverse
    exact not_space_of_dropWhile hreverse

theorem dropWhile_append_of_stop {α : Type} {f : α → Bool} {l m : List α} {q : α}
    (h : f q = false) : (l ++ q :: m).dropWhile f = l.dropWhile f ++ q :: m := by
  induction l with
  | nil => exact List.dropWhile_cons_of_neg (by simp [h])
  | cons p l ih =>
    rw [List.cons_append, List.dropWhile_cons, List.dropWhile_cons, ih]
    split_ifs <;> rfl

theorem trimPlaced_answer (kept fence : List Placed) {answer : List Placed} {inner : List Char}
    (hanswer : answer.map Prod.fst = '\x7b' :: (inner ++ ['\x7d'])) :
    ∃ kept' fence', trimPlaced (kept ++ (answer ++ fence)) = kept' ++ (answer ++ fence') ∧
      (∀ p ∈ kept', p ∈ kept) ∧ (∀ p ∈ fence', p ∈ fence) := by
  obtain ⟨p, rest, rfl, hp, hrest⟩ := List.map_eq_cons_iff.1 hanswer
  obtain ⟨l, q', rfl, rfl, hq⟩ := List.map_eq_append_iff.1 hrest
  obtain ⟨q, rfl, hq'⟩ := List.map_eq_singleton_iff.1 hq
  have hpstop : Lib.isSpace p.1 = false := by
    rw [hp]
    decide
  have hqstop : Lib.isSpace q.1 = false := by
    rw [hq']
    decide
  refine ⟨kept.dropWhile fun p => Lib.isSpace p.1,
    (fence.reverse.dropWhile fun p => Lib.isSpace p.1).reverse, ?_,
    fun r hr => (List.dropWhile_suffix _).subset hr,
    fun r hr => List.mem_reverse.1 ((List.dropWhile_suffix _).subset (List.mem_reverse.1 hr))⟩
  unfold trimPlaced
  rw [List.cons_append,
    dropWhile_append_of_stop (f := fun p : Placed => Lib.isSpace p.1) hpstop]
  have hreverse : ((kept.dropWhile fun p => Lib.isSpace p.1) ++ p :: (l ++ [q] ++ fence)).reverse =
      fence.reverse ++ q :: (l.reverse ++ p ::
        (kept.dropWhile fun p => Lib.isSpace p.1).reverse) := by
    simp
  rw [hreverse, dropWhile_append_of_stop (f := fun p : Placed => Lib.isSpace p.1) hqstop]
  simp

/-! ## Whole texts -/

theorem objectsFrom_spaces {s : Scan} {current : List Placed}
    (h : ∀ p ∈ l, p.1 ≠ '\x7b' ∧ p.1 ≠ '\x7d') : objectsFrom s current l = [] := by
  induction l generalizing s current with
  | nil => rfl
  | cons p l ih =>
    obtain ⟨hp, hl⟩ := List.forall_mem_cons.1 h
    have hdepth : (s.next p.1).depth = s.depth := by
      unfold Scan.next
      split_ifs with h1 h2 h3 h4 h5 h6 h7
      · rfl
      · rfl
      · rfl
      · rfl
      · rfl
      · exact absurd h6 hp.1
      · exact absurd h7 hp.2
      · rfl
    rw [objectsFrom, if_neg (by rw [hdepth]; exact fun hand => hand.1 hand.2)]
    exact ih hl

theorem objectsFrom_append_spaces {s : Scan} {current sp : List Placed}
    (h : ∀ p ∈ sp, p.1 ≠ '\x7b' ∧ p.1 ≠ '\x7d') :
    objectsFrom s current (l ++ sp) = objectsFrom s current l := by
  induction l generalizing s current with
  | nil => exact objectsFrom_spaces h
  | cons p l ih =>
    rw [List.cons_append, objectsFrom, objectsFrom, ih, ih]

theorem topLevelObjects_trimPlaced (l : List Placed) :
    topLevelObjects (trimPlaced l) = topLevelObjects l := by
  obtain ⟨front, back, hl, hfront, hback⟩ := trimPlaced_split l
  have hplain : ∀ {p : Placed}, Lib.isSpace p.1 = true → p.1 ≠ '\x7b' ∧ p.1 ≠ '\x7d' := by
    intro p hp
    constructor <;> intro h <;> rw [h] at hp <;> revert hp <;> decide
  unfold topLevelObjects
  conv_rhs => rw [hl]
  rw [objectsFrom_outside fun p hp => hplain (hfront p hp),
    objectsFrom_append_spaces fun p hp => hplain (hback p hp)]

section Whole

variable {N : Type} {num : Numerals N}

/-- A trimmed text that the parser reads as a whole. -/
def WholeText (text : List Char) : Value N → Prop
  | .obj _ => ∃ inner, text = '\x7b' :: (inner ++ ['\x7d']) ∧ Balanced inner
  | .arr _ => ∃ front, text = front ++ [']']
  | .str _ => ∃ front, text = front ++ ['"']
  | _ => ∀ c ∈ text, IsPlain c

theorem isSpace_of_json {c : Char} (h : JsonText.isSpace c = true) : Lib.isSpace c = true := by
  simp only [JsonText.isSpace, Bool.or_eq_true, decide_eq_true_eq] at h
  rcases h with ((rfl | rfl) | rfl) | rfl <;> decide

theorem wholeText_of_parse {text : List Placed} {v : Value N} (htrim : NoOuterSpace text)
    (h : parse num (text.map Prod.fst) = some v) : WholeText (text.map Prod.fst) v := by
  obtain ⟨raw, hraw, rfl⟩ := Option.map_eq_some_iff.1 h
  obtain ⟨pre, sp, htext, hsp, hpre⟩ := consumed_of_parseRaw hraw
  -- there are no spaces at the ends
  have hnoEnd : sp = [] := by
    rcases List.eq_nil_or_concat sp with hnil | ⟨m, c, hconcat⟩
    · exact hnil
    · rw [List.concat_eq_append] at hconcat
      rw [hconcat, ← List.append_assoc] at htext
      obtain ⟨l, q', htext', -, hq⟩ := List.map_eq_append_iff.1 htext
      obtain ⟨q, rfl, hq'⟩ := List.map_eq_singleton_iff.1 hq
      have hc : c ∈ sp := hconcat ▸ List.mem_append_right m (List.mem_singleton_self c)
      have hspace := isSpace_of_json (hsp c hc)
      rw [← hq', htrim.last htext'] at hspace
      cases hspace
  subst hnoEnd
  rw [List.append_nil] at htext
  cases raw with
  | obj fields =>
    obtain ⟨sp, inner, rfl, hsp, hinner⟩ := hpre
    cases sp with
    | nil => exact ⟨inner, htext, hinner⟩
    | cons c sp =>
      obtain ⟨p, m, rfl, rfl, -⟩ := List.map_eq_cons_iff.1 htext
      have hspace := isSpace_of_json (hsp p.1 List.mem_cons_self)
      rw [htrim.head rfl] at hspace
      cases hspace
  | arr items =>
    obtain ⟨front, rfl, -⟩ := hpre
    exact ⟨front, htext⟩
  | str s =>
    obtain ⟨front, rfl, -⟩ := hpre
    exact ⟨front, htext⟩
  | null => exact fun c hc => hpre c (htext ▸ hc)
  | bool b => exact fun c hc => hpre c (htext ▸ hc)
  | num n => exact fun c hc => hpre c (htext ▸ hc)

end Whole

/-! ## The reader -/

section Reader

variable {N : Type} (num : Numerals N) (isFinite : N → Bool)

/-- `JSON.parse`. -/
def parseText (text : String) : Option (Value N) := parse num text.toList

/-- `readSingleJson`, where values are compared by their canonical texts. -/
def readJson (content : String) : Except ReadFailure (Value N) :=
  readSingleJson (parseText num) (fun v => String.ofList (canonicalStringify isFinite num v))
    content

/-- The reply is prose and an object that JSON writes, with or without a code
fence. -/
def IsAnswer (o : JsonObject isFinite) (content : String) : Prop :=
  ∃ lead answer fence, place content = lead ++ (answer ++ fence) ∧
    answer.map Prod.fst = print num o.value ∧ Prose (answer ++ fence) lead ∧
    ∀ p ∈ fence, isFence p.1 = true

/-- The value is no array and no string. -/
def isNoList : Value N → Bool
  | .arr _ => false
  | .str _ => false
  | _ => true

variable {num isFinite}

theorem print_object (num : Numerals N) (o : JsonObject isFinite) :
    ∃ inner, print num o.value = '\x7b' :: (inner ++ ['\x7d']) ∧ Balanced inner := by
  have hread := parseValue_print num o.value le_rfl Json.stops_nil
  obtain ⟨pre, hpre, sp, inner, rfl, hsp, hinner⟩ := (consumes _).value hread
  rw [List.append_nil, List.append_nil] at hpre
  cases sp with
  | nil => exact ⟨inner, hpre, hinner⟩
  | cons c sp =>
    obtain ⟨c', l, hl, hspace, -⟩ := print_head num o.value
    rw [hl] at hpre
    rw [(List.cons.inj hpre).1, hsp c List.mem_cons_self] at hspace
    cases hspace

theorem parse_object (o : JsonObject isFinite) :
    parse num (print num o.value) = some o.value := by
  rw [parse_print, collapse_of_unique o.unique_value]

theorem parseText_textOf (l : List Placed) :
    parseText num (textOf l) = parse num (l.map Prod.fst) := by
  rw [parseText, textOf, String.toList_ofList]

theorem topLevelObjects_object {text : List Placed} {inner : List Char}
    (h : text.map Prod.fst = '\x7b' :: (inner ++ ['\x7d'])) (hinner : Balanced inner) :
    topLevelObjects text = [text] := by
  have hobjects := objectsFrom_object (r := []) h hinner
  rwa [List.append_nil] at hobjects

variable {content : String} {v : Value N}

theorem readJson_answer {o : JsonObject isFinite} (h : IsAnswer num isFinite o content) :
    readJson num isFinite content = .ok o.value := by
  obtain ⟨lead, answer, fence, hplace, hanswer, hlead, hfence⟩ := h
  obtain ⟨inner, hprint, hinner⟩ := print_object num o
  have hobject := hanswer.trans hprint
  obtain ⟨kept, hstrip, hkept⟩ := stripReasoning_answer hlead hobject hinner hfence
  obtain ⟨kept', fence', htrim, hkept', hfence'⟩ :=
    trimPlaced_answer kept fence hobject
  have hfound : topLevelObjects (kept' ++ (answer ++ fence')) = [answer] := by
    unfold topLevelObjects
    rw [objectsFrom_outside fun p hp => hkept p (hkept' p hp), objectsFrom_object hobject hinner,
      objectsFrom_spaces fun p hp => ?_]
    have hne := isFence_ne (hfence p (hfence' p hp))
    exact ⟨hne.2.1, hne.2.2.1⟩
  have hread : parseText num (textOf answer) = some o.value := by
    rw [parseText_textOf, hanswer, parse_object]
  have hne : kept' ++ (answer ++ fence') ≠ [] := by
    intro hnil
    rw [hnil] at hfound
    cases hfound
  unfold readJson readSingleJson readPlaced
  rw [hplace, hstrip, htrim]
  dsimp only
  rw [if_neg hne]
  cases hwhole : parseText num (textOf (kept' ++ (answer ++ fence'))) with
  | none =>
    rw [hfound]
    simp [hread]
    rfl
  | some v =>
    rw [parseText_textOf] at hwhole
    have htext := wholeText_of_parse (htrim ▸ trimmed_trimPlaced _) hwhole
    -- the last character is that of the answer or of the fence
    have hlast : ∀ {front c}, (kept' ++ (answer ++ fence')).map Prod.fst = front ++ [c] →
        c ≠ ']' ∧ c ≠ '"' := by
      intro front c hmap
      have hget := congrArg List.getLast? hmap
      rw [List.map_append, List.map_append, hobject, ← List.cons_append, List.getLast?_append,
        List.getLast?_append, List.getLast?_concat, List.getLast?_concat] at hget
      cases hend : (fence'.map Prod.fst).getLast? with
      | none =>
        rw [hend] at hget
        cases hget
        decide
      | some d =>
        rw [hend] at hget
        cases hget
        obtain ⟨p, hp, rfl⟩ := List.mem_map.1 (List.mem_of_getLast? hend)
        have hne := isFence_ne (hfence p (hfence' p hp))
        exact ⟨hne.2.2.2.2, hne.2.2.2.1⟩
    have hbrace : '\x7b' ∈ (kept' ++ (answer ++ fence')).map Prod.fst := by
      rw [List.map_append, List.map_append, hobject]
      exact List.mem_append_right _ (List.mem_append_left _ List.mem_cons_self)
    cases v with
    | obj fields =>
      obtain ⟨inner', hmap, hinner'⟩ := htext
      have hall := topLevelObjects_object hmap hinner'
      rw [hfound] at hall
      obtain ⟨hall, -⟩ := List.cons.inj hall
      rw [← hall, ← parseText_textOf, hread] at hwhole
      cases hwhole
      rfl
    | arr items =>
      obtain ⟨front, hmap⟩ := htext
      exact absurd rfl (hlast hmap).1
    | str s =>
      obtain ⟨front, hmap⟩ := htext
      exact absurd rfl (hlast hmap).2
    | null => exact absurd rfl (htext '\x7b' hbrace).2.1
    | bool b => exact absurd rfl (htext '\x7b' hbrace).2.1
    | num n => exact absurd rfl (htext '\x7b' hbrace).2.1

theorem same_of_canonical_text (num : Numerals N) {w : Value N} (hv : v.Unique) (hw : w.Unique)
    (h : String.ofList (canonicalStringify isFinite num v) =
      String.ofList (canonicalStringify isFinite num w)) :
    (v.written isFinite).Same (w.written isFinite) := by
  refine (canonicalStringify_eq_iff isFinite num hv hw).1 ?_
  rw [← String.toList_ofList (l := canonicalStringify isFinite num v), h, String.toList_ofList]

theorem unique_of_parseText {text : String} (h : parseText num text = some v) :
    v.Unique := unique_of_parse h

theorem readJson_agrees (h : readJson num isFinite content = .ok v) (hlist : isNoList v = true)
    {o : List Placed} (ho : o ∈ topLevelObjects (stripReasoning (place content))) {w : Value N}
    (hw : parseText num (textOf o) = some w) : (w.written isFinite).Same (v.written isFinite) := by
  rw [← topLevelObjects_trimPlaced] at ho
  have htrim := trimmed_trimPlaced (stripReasoning (place content))
  unfold readJson readSingleJson readPlaced at h
  generalize trimPlaced (stripReasoning (place content)) = text at ho htrim h
  dsimp only at h
  by_cases hempty : text = []
  · rw [if_pos hempty] at h
    cases h
  rw [if_neg hempty] at h
  cases hwhole : parseText num (textOf text) with
  | some v' =>
    rw [hwhole] at h
    obtain rfl : v' = v := Except.ok.inj h
    have hunique := unique_of_parseText hwhole
    rw [parseText_textOf] at hwhole
    have htext := wholeText_of_parse htrim hwhole
    have hplain : (∀ c ∈ text.map Prod.fst, IsPlain c) → False := by
      intro hplain
      unfold topLevelObjects at ho
      rw [objectsFrom_spaces fun p hp => (hplain p.1 (List.mem_map_of_mem hp)).2] at ho
      cases ho
    cases v' with
    | obj fields =>
      obtain ⟨inner, hmap, hinner⟩ := htext
      rw [topLevelObjects_object hmap hinner, List.mem_singleton] at ho
      rw [ho, parseText_textOf, hwhole] at hw
      cases hw
      exact same_of_canonical_text num hunique hunique rfl
    | arr items => cases hlist
    | str s => cases hlist
    | null => exact (hplain htext).elim
    | bool b => exact (hplain htext).elim
    | num n => exact (hplain htext).elim
  | none =>
    rw [hwhole] at h
    generalize hparsed : (topLevelObjects text).filterMap
      (fun o => (parseText num (textOf o)).map (·, o)) = parsed at h
    have hmem : (w, o) ∈ parsed := by
      rw [← hparsed]
      exact List.mem_filterMap.2 ⟨o, ho, by rw [hw, Option.map_some]⟩
    cases parsed with
    | nil => cases h
    | cons first others =>
      dsimp only at h
      split_ifs at h with hagree
      · cases h
      obtain rfl : first.1 = v := Except.ok.inj h
      have hread : parseText num (textOf first.2) = some first.1 := by
        obtain ⟨o', -, hfirst⟩ := List.mem_filterMap.1 (hparsed ▸ List.mem_cons_self)
        obtain ⟨v, hv, heq⟩ := Option.map_eq_some_iff.1 hfirst
        cases heq
        exact hv
      refine same_of_canonical_text num (unique_of_parseText hw) (unique_of_parseText hread) ?_
      rcases List.mem_cons.1 hmem with heq | hother
      · rw [← heq]
      · by_contra hne
        exact hagree (List.any_eq_true.2 ⟨(w, o), hother, decide_eq_true hne⟩)

theorem readJson_of_whole (hne : trimPlaced (stripReasoning (place content)) ≠ [])
    (h : parse num ((trimPlaced (stripReasoning (place content))).map Prod.fst) = some v) :
    readJson num isFinite content = .ok v := by
  unfold readJson readSingleJson readPlaced
  dsimp only
  rw [if_neg hne, parseText_textOf, h]
  rfl

theorem readJson_of_pair {o o' : List Placed} {v' : Value N}
    (hwhole : parse num ((trimPlaced (stripReasoning (place content))).map Prod.fst) = none)
    (hobjects : topLevelObjects (trimPlaced (stripReasoning (place content))) = [o, o'])
    (ho : parse num (o.map Prod.fst) = some v) (ho' : parse num (o'.map Prod.fst) = some v')
    (hsame : canonicalStringify isFinite num v' = canonicalStringify isFinite num v) :
    readJson num isFinite content = .ok v := by
  have hne : trimPlaced (stripReasoning (place content)) ≠ [] := by
    intro hnil
    rw [hnil] at hobjects
    cases hobjects
  unfold readJson readSingleJson readPlaced
  dsimp only
  rw [if_neg hne, parseText_textOf, hwhole, hobjects]
  simp [parseText_textOf, ho, ho', hsame]
  rfl

end Reader

/-- An answer behind prose is read, whatever its strings hold.  A value that
is read agrees with every object outside the reasoning blocks, up to the order
of properties, unless it is an array or a string. -/
theorem readJson_spec {N : Type} (num : Numerals N) (isFinite : N → Bool) :
    (∀ (o : JsonObject isFinite) content, IsAnswer num isFinite o content →
      readJson num isFinite content = .ok o.value) ∧
    ∀ content v, readJson num isFinite content = .ok v → isNoList v = true →
      ∀ o ∈ topLevelObjects (stripReasoning (place content)), ∀ w,
        parseText num (textOf o) = some w → (w.written isFinite).Same (v.written isFinite) :=
  ⟨fun _ _ h => readJson_answer h, fun _ _ h hlist _ ho _ hw => readJson_agrees h hlist ho hw⟩

/-- Two numbers: one, and one that is too large. -/
def oneOrHuge : Numerals Bool where
  print n := if n then ['1'] else ['1', 'e', '9', '9', '9']
  read l := if l = ['1'] then some true
    else if l = ['1', 'e', '9', '9', '9'] then some false else none
  read_print := by decide
  head_print n := by cases n <;> exact ⟨_, _, rfl, by decide⟩
  print_numeral n := by cases n <;> simp [isNumeral]

/-- An answer with a brace, a quote, a tag and a fence in a string. -/
def fencedAnswer : JsonObject (id : Bool → Bool) where
  fields := .cons "note".toList (.str "a \x7d <think> \"```".toList)
    (.cons "score".toList (.num true) .nil)
  unique := ⟨rfl, trivial, rfl, trivial, trivial⟩
  finite := rfl

def fencedReply : String :=
  "<think>\x7b draft</think>Result:\n```json\n" ++
    "\x7b\"note\":\"a \x7d <think> \\\"```\",\"score\":1\x7d\n```"

theorem fencedReply_answers : IsAnswer oneOrHuge id fencedAnswer fencedReply := by
  refine ⟨(place fencedReply).take 38, ((place fencedReply).drop 38).take 38,
    (place fencedReply).drop 76, by decide, by decide, ?_, by decide⟩
  have hblock : ClosedBlock ((place fencedReply).take 22) :=
    ⟨.think, ((place fencedReply).take 22).drop 7, by decide, by decide⟩
  exact .block hblock (l := ((place fencedReply).take 38).drop 22) (prose_of_plain (by decide))

theorem fencedReply_read : readJson oneOrHuge id fencedReply = .ok fencedAnswer.value :=
  (readJson_spec oneOrHuge id).1 _ _ fencedReply_answers

/-- A value is read, and an object of the reply is another one. -/
def Disagrees (content : String) : Prop :=
  ∃ v, readJson oneOrHuge id content = .ok v ∧
    ∃ o ∈ topLevelObjects (stripReasoning (place content)), ∃ w,
      parseText oneOrHuge (textOf o) = some w ∧ ¬ w.Same v

/-- An object with one property. -/
def oneField (v : Value Bool) : Value Bool := .obj (.cons ['a'] v .nil)

/-- Two objects, one behind the other. -/
def listChars : List Char :=
  ['[', '\x7b', '"', 'a', '"', ':', 't', 'r', 'u', 'e', '\x7d', ',', '\x7b', '"', 'a', '"', ':',
    'f', 'a', 'l', 's', 'e', '\x7d', ']']

def listReply : String := String.ofList listChars

def quotedReply : String := "\"\x7b\x7d\""

def hugeReply : String := "\x7b\"a\":1e999\x7d\x7b\"a\":null\x7d"

theorem listReply_disagrees : Disagrees listReply := by
  have hwhole : parse oneOrHuge listChars =
      some (.arr (.cons (oneField (.bool true)) (.cons (oneField (.bool false)) .nil))) := rfl
  have hobject : parse oneOrHuge ((listChars.drop 1).take 10) =
      some (oneField (.bool true)) := rfl
  refine ⟨.arr (.cons (oneField (.bool true)) (.cons (oneField (.bool false)) .nil)),
    readJson_of_whole (by decide) ?_, ((place listReply).drop 1).take 10, by decide,
    oneField (.bool true), ?_, fun hsame => hsame⟩
  · rw [show (trimPlaced (stripReasoning (place listReply))).map Prod.fst = listChars by decide]
    exact hwhole
  · rw [parseText_textOf, show (((place listReply).drop 1).take 10).map Prod.fst =
      (listChars.drop 1).take 10 by decide]
    exact hobject

theorem quotedReply_disagrees : Disagrees quotedReply := by
  have hwhole : parse oneOrHuge quotedReply.toList = some (.str "\x7b\x7d".toList) := rfl
  have hobject : parse oneOrHuge "\x7b\x7d".toList = some (.obj .nil) := rfl
  refine ⟨.str "\x7b\x7d".toList, readJson_of_whole (by decide) ?_,
    ((place quotedReply).drop 1).take 2, by decide, .obj .nil, ?_, fun hsame => hsame⟩
  · rw [show (trimPlaced (stripReasoning (place quotedReply))).map Prod.fst =
      quotedReply.toList by decide]
    exact hwhole
  · rw [parseText_textOf, show (((place quotedReply).drop 1).take 2).map Prod.fst =
      "\x7b\x7d".toList by decide]
    exact hobject

theorem hugeReply_disagrees : Disagrees hugeReply := by
  have hwhole : parse oneOrHuge hugeReply.toList = none := rfl
  have hhuge : parse oneOrHuge "\x7b\"a\":1e999\x7d".toList = some (oneField (.num false)) := rfl
  have hnull : parse oneOrHuge "\x7b\"a\":null\x7d".toList = some (oneField .null) := rfl
  have hlast : parse oneOrHuge (((place hugeReply).drop 11).map Prod.fst) =
      some (oneField .null) := by
    rw [show ((place hugeReply).drop 11).map Prod.fst = "\x7b\"a\":null\x7d".toList by decide]
    exact hnull
  refine ⟨_, readJson_of_pair ?_ (by decide) (o := (place hugeReply).take 11)
    (v := oneField (.num false)) ?_ hlast rfl, (place hugeReply).drop 11, by decide,
    oneField .null, ?_, ?_⟩
  · rw [show (trimPlaced (stripReasoning (place hugeReply))).map Prod.fst = hugeReply.toList by
      decide]
    exact hwhole
  · rw [show ((place hugeReply).take 11).map Prod.fst = "\x7b\"a\":1e999\x7d".toList by decide]
    exact hhuge
  · rw [parseText_textOf]
    exact hlast
  · rintro ⟨-, ⟨v, hv, hsame⟩, -⟩
    cases hv
    exact hsame

/-- An open tag in the prose cuts the answer.  A list of two objects is read,
so is a string with an object inside, and a number that is too large is
compared as `null`. -/
theorem readJson_exceptions :
    readJson oneOrHuge id "<think>\x7b\"score\":1\x7d" = .error .empty ∧
      Disagrees listReply ∧ Disagrees quotedReply ∧ Disagrees hugeReply := by
  refine ⟨?_, listReply_disagrees, quotedReply_disagrees, hugeReply_disagrees⟩
  unfold readJson readSingleJson readPlaced
  rw [show stripReasoning (place "<think>\x7b\"score\":1\x7d") = [] by decide]
  rfl

end Cine.Grading
