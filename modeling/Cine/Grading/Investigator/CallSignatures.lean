import Cine.Grading.Investigator.Investigate
import Cine.Lib.JsonOrder
import Cine.Lib.Schema

/-!
# The signatures of tool calls

`grading/investigator/dedup.ts`.  A call is known by its tool and the
canonical text of its arguments, and the guard counts the calls it lets
through by this text.

There are three groups.

* `signatureOf_eq_iff`: a signature stands for a tool and for arguments up to
  the order of properties.
* The guard.  `Guards` is what the counters say about the answers so far.  One
  answer keeps it (`Guards.answer`), and so does a run (`guards_run`).
* `run_simulates`: the guard of the investigation, which counts by arguments,
  gives the same answers.
-/

namespace Cine.Grading

open Cine.Lib Cine.Lib.JsonText

variable {N : Type} {isFinite : N → Bool}

/-! ## Signatures -/

def ToolName.text : ToolName → String
  | .run => "run"
  | .runTests => "run_tests"
  | .readFile => "read_file"
  | .listFiles => "list_files"

structure OfferedCall (isFinite : N → Bool) where
  tool : ToolName
  args : JsonObject isFinite

section Signatures

variable (num : Numerals N)

def signatureOf (call : OfferedCall isFinite) : List Char :=
  call.tool.text.toList ++ ("::".toList ++ canonicalStringify isFinite num call.args.value)

theorem signature_tool {t t' : ToolName} {s s' : List Char}
    (h : t.text.toList ++ ("::".toList ++ s) = t'.text.toList ++ ("::".toList ++ s')) :
    t = t' ∧ s = s' := by
  cases t <;> cases t' <;> simp [ToolName.text] at h ⊢ <;> exact h

theorem signatureOf_eq_iff {c d : OfferedCall isFinite} :
    signatureOf num c = signatureOf num d ↔ c.tool = d.tool ∧ c.args.value.Same d.args.value := by
  have htext := canonicalStringify_eq_iff isFinite num c.args.unique_value d.args.unique_value
  rw [c.args.written_value, d.args.written_value] at htext
  constructor
  · intro h
    obtain ⟨htool, hargs⟩ := signature_tool h
    exact ⟨htool, htext.1 hargs⟩
  · rintro ⟨htool, hsame⟩
    unfold signatureOf
    rw [htool, htext.2 hsame]

end Signatures

/-! ## The guard -/

/-- The answer of `admit`. -/
inductive AdmitAnswer
  | admitted
  | blocked (message : String)
deriving DecidableEq, Repr

def AdmitAnswer.isBlocked : AdmitAnswer → Bool
  | .admitted => false
  | .blocked _ => true

/-- `DuplicateGuard`, which counts by signature. -/
structure SignatureGuard where
  counts : OrderedMap (List Char) Nat
  consecutiveBlocked : Nat

namespace SignatureGuard

def new : SignatureGuard where
  counts := .empty
  consecutiveBlocked := 0

/-- How often calls of the signature were let through. -/
def used (guard : SignatureGuard) (key : List Char) : Nat := (guard.counts.get? key).getD 0

def blockedMessage (tool : ToolName) (used : Nat) : String :=
  "Đã chặn: " ++ tool.text ++ " với đúng tham số này đã chạy " ++ toString used ++
    " lần (tối đa " ++ toString (duplicateLimit tool) ++ "). " ++
    "Kết quả sẽ không đổi — xem lại lời gọi trước, hoặc đổi tham số."

end SignatureGuard

def SignatureGuard.admit (num : Numerals N) (guard : SignatureGuard) (call : OfferedCall isFinite) :
    AdmitAnswer × SignatureGuard :=
  let key := signatureOf num call
  let used := guard.used key
  if duplicateLimit call.tool ≤ used then
    (.blocked (blockedMessage call.tool used),
      { guard with consecutiveBlocked := guard.consecutiveBlocked + 1 })
  else
    (.admitted, { counts := guard.counts.set key (used + 1), consecutiveBlocked := 0 })

namespace SignatureGuard

def stuck (guard : SignatureGuard) : Bool := maxConsecutiveBlocked ≤ guard.consecutiveBlocked

/-- Calls that are offered one after the other, with their answers. -/
def run (num : Numerals N) (guard : SignatureGuard) : List (OfferedCall isFinite) →
    List (OfferedCall isFinite × AdmitAnswer) × SignatureGuard
  | [] => ([], guard)
  | call :: calls =>
    let first := guard.admit num call
    let others := first.2.run num calls
    ((call, first.1) :: others.1, others.2)

theorem used_set (guard : SignatureGuard) (key other : List Char) (n : Nat) :
    used { guard with counts := guard.counts.set key n, consecutiveBlocked := 0 } other =
      if other = key then n else guard.used other := by
  unfold used
  rw [OrderedMap.get?_set]
  split_ifs <;> rfl

end SignatureGuard

/-- The admitted calls of a signature. -/
def admittedWith (num : Numerals N) (key : List Char)
    (answers : List (OfferedCall isFinite × AdmitAnswer)) :
    List (OfferedCall isFinite × AdmitAnswer) :=
  answers.filter fun p => signatureOf num p.1 = key ∧ p.2.isBlocked = false

/-- The last answers are blocked, at least `n` of them. -/
def EndsBlocked (n : Nat) (answers : List (OfferedCall isFinite × AdmitAnswer)) : Prop :=
  ∃ front last, answers = front ++ last ∧ n ≤ last.length ∧ ∀ p ∈ last, p.2.isBlocked = true

theorem endsBlocked_zero (answers : List (OfferedCall isFinite × AdmitAnswer)) :
    EndsBlocked 0 answers :=
  ⟨answers, [], (List.append_nil _).symm, Nat.zero_le _, nofun⟩

theorem endsBlocked_concat {n : Nat} {answers : List (OfferedCall isFinite × AdmitAnswer)}
    {p : OfferedCall isFinite × AdmitAnswer} :
    EndsBlocked (n + 1) (answers ++ [p]) ↔ p.2.isBlocked = true ∧ EndsBlocked n answers := by
  constructor
  · rintro ⟨front, last, heq, hlength, hblocked⟩
    rcases List.eq_nil_or_concat last with rfl | ⟨init, q, rfl⟩
    · cases hlength
    · rw [List.concat_eq_append] at heq hlength hblocked
      rw [← List.append_assoc] at heq
      obtain ⟨rfl, hq⟩ := List.append_inj' heq rfl
      obtain rfl := List.singleton_inj.1 hq
      rw [List.length_append, List.length_singleton] at hlength
      refine ⟨hblocked p (List.mem_append_right _ (List.mem_singleton_self p)), front, init, rfl,
        Nat.le_of_succ_le_succ hlength, fun q hq => hblocked q (List.mem_append_left _ hq)⟩
  · rintro ⟨hp, front, last, rfl, hlength, hblocked⟩
    refine ⟨front, last ++ [p], List.append_assoc _ _ _, ?_, fun q hq => ?_⟩
    · rw [List.length_append, List.length_singleton]
      exact Nat.succ_le_succ hlength
    · rcases List.mem_append.1 hq with hq | hq
      · exact hblocked q hq
      · rw [List.mem_singleton.1 hq]
        exact hp

/-- What the counters of a guard say about the answers that it gave. -/
structure Guards (num : Numerals N) (answers : List (OfferedCall isFinite × AdmitAnswer))
    (guard : SignatureGuard) : Prop where
  used : ∀ key, guard.used key = (admittedWith num key answers).length
  limit : ∀ call : OfferedCall isFinite,
    guard.used (signatureOf num call) ≤ duplicateLimit call.tool
  blocked : ∀ n, EndsBlocked n answers ↔ n ≤ guard.consecutiveBlocked

namespace Guards

variable {num : Numerals N} {answers : List (OfferedCall isFinite × AdmitAnswer)}
  {guard : SignatureGuard}

theorem new : Guards num ([] : List (OfferedCall isFinite × AdmitAnswer)) .new where
  used := fun _ => rfl
  limit := fun _ => Nat.zero_le _
  blocked := by
    intro n
    cases n with
    | zero => exact ⟨fun _ => Nat.le_refl 0, fun _ => endsBlocked_zero []⟩
    | succ n =>
      refine ⟨?_, fun h => absurd h (Nat.not_succ_le_zero n)⟩
      rintro ⟨front, last, heq, hlength, -⟩
      obtain ⟨-, rfl⟩ := List.append_eq_nil_iff.1 heq.symm
      exact hlength

theorem answer {call : OfferedCall isFinite} {given : AdmitAnswer} {next : SignatureGuard}
    (h : Guards num answers guard) (hcall : guard.admit num call = (given, next)) :
    Guards num (answers ++ [(call, given)]) next := by
  have hcount : ∀ (key : List Char) (answer : AdmitAnswer),
      (admittedWith num key (answers ++ [(call, answer)])).length =
        guard.used key +
          if signatureOf num call = key ∧ answer.isBlocked = false then 1 else 0 := by
    intro key answer
    unfold admittedWith
    rw [List.filter_append, List.length_append, h.used key]
    unfold admittedWith
    split_ifs with hkey <;> simp [hkey]
  unfold SignatureGuard.admit at hcall
  dsimp only at hcall
  split_ifs at hcall with hlimit <;> cases hcall
  · constructor
    · intro key
      rw [hcount]
      simp [AdmitAnswer.isBlocked, SignatureGuard.used]
    · exact h.limit
    · intro n
      cases n with
      | zero => exact ⟨fun _ => Nat.zero_le _, fun _ => endsBlocked_zero _⟩
      | succ n =>
        rw [endsBlocked_concat, h.blocked n, Nat.succ_le_succ_iff]
        exact ⟨fun hn => hn.2, fun hn => ⟨rfl, hn⟩⟩
  · constructor
    · intro key
      rw [SignatureGuard.used_set, hcount]
      by_cases hkey : key = signatureOf num call
      · rw [if_pos hkey, if_pos ⟨hkey.symm, rfl⟩, hkey]
      · rw [if_neg hkey, if_neg fun hc => hkey hc.1.symm, Nat.add_zero]
    · intro other
      rw [SignatureGuard.used_set]
      split_ifs with hkey
      · rw [((signatureOf_eq_iff num).1 hkey).1]
        exact Nat.lt_of_not_le hlimit
      · exact h.limit other
    · intro n
      cases n with
      | zero => exact ⟨fun _ => Nat.le_refl 0, fun _ => endsBlocked_zero _⟩
      | succ n =>
        rw [endsBlocked_concat]
        refine ⟨?_, fun hn => absurd hn (Nat.not_succ_le_zero n)⟩
        rintro ⟨⟨⟩, _⟩

theorem run (h : Guards num answers guard) (calls : List (OfferedCall isFinite)) :
    Guards num (answers ++ (guard.run num calls).1) (guard.run num calls).2 := by
  induction calls generalizing answers guard with
  | nil =>
    rw [SignatureGuard.run, List.append_nil]
    exact h
  | cons call calls ih =>
    rcases hcall : guard.admit num call with ⟨given, next⟩
    have hrest := ih (h.answer hcall)
    rw [List.append_assoc] at hrest
    rw [SignatureGuard.run, hcall]
    exact hrest

end Guards

theorem guards_run (num : Numerals N) (calls : List (OfferedCall isFinite)) :
    Guards num (SignatureGuard.new.run num calls).1 (SignatureGuard.new.run num calls).2 :=
  Guards.new.run calls

/-- Two calls share a signature exactly when they have one tool and the same
arguments up to the order of properties.  Over a sequence of calls, no
signature is admitted more often than its limit, and the guard is stuck
exactly when the last three calls or more were blocked. -/
theorem duplicateGuard_spec (num : Numerals N) (calls : List (OfferedCall isFinite)) :
    (∀ c d : OfferedCall isFinite, signatureOf num c = signatureOf num d ↔
      c.tool = d.tool ∧ c.args.value.Same d.args.value) ∧
    (∀ c : OfferedCall isFinite,
      (admittedWith num (signatureOf num c) (SignatureGuard.new.run num calls).1).length ≤
        duplicateLimit c.tool) ∧
    ((SignatureGuard.new.run num calls).2.stuck = true ↔
      EndsBlocked maxConsecutiveBlocked (SignatureGuard.new.run num calls).1) := by
  have h := guards_run num calls
  refine ⟨fun c d => signatureOf_eq_iff num, fun c => ?_, ?_⟩
  · rw [← h.used]
    exact h.limit c
  · rw [h.blocked, SignatureGuard.stuck, decide_eq_true_iff]

/-! ## The guard of the investigation -/

section Simulation

/-- The tool that takes the arguments. -/
def CallArgs.tool : CallArgs → ToolName
  | .run _ => .run
  | .runTests _ => .runTests
  | .readFile _ _ _ => .readFile
  | .listFiles => .listFiles

theorem tool_argsFor (call : ModelCall) : (argsFor call).tool = call.tool := by
  unfold argsFor
  cases call.tool <;> rfl

def stringValue (s : String) : Value N := .str s.toList

variable (ofInt : Int → N)

/-- The properties of the arguments. -/
def CallArgs.fields : CallArgs → Fields N
  | .run input => .cons "input".toList (orNull stringValue input) .nil
  | .runTests group => .cons "group".toList (orNull stringValue group) .nil
  | .readFile path fromLine toLine =>
    .cons "path".toList (orNull stringValue path)
      (.cons "fromLine".toList (orNull (fun i => .num (ofInt i)) fromLine)
        (.cons "toLine".toList (orNull (fun i => .num (ofInt i)) toLine) .nil))
  | .listFiles => .nil

theorem unique_orNull {α : Type} {f : α → Value N} (hf : ∀ a, (f a).Unique) (x : Option α) :
    (orNull f x).Unique := by
  cases x with
  | none => trivial
  | some a => exact hf a

theorem written_orNull {α : Type} {f : α → Value N} (hf : ∀ a, (f a).written isFinite = f a)
    (x : Option α) : (orNull f x).written isFinite = orNull f x := by
  cases x with
  | none => rfl
  | some a => exact hf a

theorem same_orNull {α : Type} {f : α → Value N} (hnull : ∀ a, f a ≠ .null)
    (hf : ∀ a b, (f a).Same (f b) → a = b) {x y : Option α}
    (h : (orNull f x).Same (orNull f y)) : x = y := by
  have hleft : ∀ v : Value N, Value.Same .null v → v = .null := by
    intro v hv
    cases v with
    | null => rfl
    | _ => cases hv
  have hright : ∀ v : Value N, v.Same .null → v = .null := by
    intro v hv
    cases v with
    | null => rfl
    | _ => cases hv
  cases x with
  | none =>
    cases y with
    | none => rfl
    | some b => exact absurd (hleft _ h) (hnull b)
  | some a =>
    cases y with
    | none => exact absurd (hright _ h) (hnull a)
    | some b => rw [hf a b h]

/-- A call of the model, as the guard sees it. -/
def CallArgs.offered (hfinite : ∀ i, isFinite (ofInt i) = true) (args : CallArgs) :
    OfferedCall isFinite where
  tool := args.tool
  args :=
    { fields := args.fields ofInt
      unique := by
        have htext : ∀ x, (orNull (N := N) stringValue x).Unique := unique_orNull fun _ => trivial
        have hline : ∀ x, (orNull (fun i => Value.num (ofInt i)) x).Unique :=
          unique_orNull fun _ => trivial
        cases args with
        | run input => exact ⟨rfl, htext input, trivial⟩
        | runTests group => exact ⟨rfl, htext group, trivial⟩
        | readFile path fromLine toLine =>
          exact ⟨rfl, htext path, rfl, hline fromLine, rfl, hline toLine, trivial⟩
        | listFiles => trivial
      finite := by
        have htext : ∀ x, (orNull stringValue x).written isFinite = orNull stringValue x :=
          written_orNull fun _ => rfl
        have hline : ∀ x, (orNull (fun i => Value.num (ofInt i)) x).written isFinite =
            orNull (fun i => Value.num (ofInt i)) x :=
          written_orNull fun i => by rw [Value.written, if_pos (hfinite i)]
        cases args <;> simp only [CallArgs.fields, Fields.written, htext, hline] }

variable {ofInt}

theorem offered_inj (hinj : Function.Injective ofInt) (hfinite : ∀ i, isFinite (ofInt i) = true)
    {a b : CallArgs} (htool : a.tool = b.tool)
    (hsame : (a.offered ofInt hfinite).args.value.Same (b.offered ofInt hfinite).args.value) :
    a = b := by
  have htext : ∀ {x y : Option String},
      (orNull (N := N) stringValue x).Same (orNull stringValue y) → x = y :=
    same_orNull (f := stringValue) nofun fun _ _ h => String.toList_inj.1 h
  have hline : ∀ {x y : Option Int}, (orNull (fun i => Value.num (ofInt i)) x).Same
      (orNull (fun i => Value.num (ofInt i)) y) → x = y :=
    same_orNull (f := fun i => .num (ofInt i)) nofun fun _ _ h => hinj h
  obtain ⟨-, hwithin⟩ := hsame
  cases a <;> cases b <;> try cases htool
  case run input input' =>
    obtain ⟨⟨w, hw, hv⟩, -⟩ := hwithin
    cases hw
    rw [htext hv]
  case runTests group group' =>
    obtain ⟨⟨w, hw, hv⟩, -⟩ := hwithin
    cases hw
    rw [htext hv]
  case readFile path fromLine toLine path' fromLine' toLine' =>
    obtain ⟨⟨w, hw, hv⟩, ⟨w', hw', hv'⟩, ⟨w'', hw'', hv''⟩, -⟩ := hwithin
    cases hw
    cases hw'
    cases hw''
    rw [htext hv, hline hv', hline hv'']
  case listFiles => rfl

/-- Calls that are offered to the guard of the investigation. -/
def DuplicateGuard.run (guard : DuplicateGuard) : List CallArgs → List Bool × DuplicateGuard
  | [] => ([], guard)
  | args :: calls =>
    let first := guard.admit args.tool args
    let others := first.2.run calls
    (first.1 :: others.1, others.2)

variable (num : Numerals N) (hfinite : ∀ i, isFinite (ofInt i) = true)

/-- The counters by signature and the counters by arguments agree. -/
structure CountsAlike (guard : SignatureGuard) (plain : DuplicateGuard) : Prop where
  used : ∀ args : CallArgs,
    guard.used (signatureOf num (args.offered ofInt hfinite)) = plain.counts args
  blocked : guard.consecutiveBlocked = plain.consecutiveBlocked

variable {num} {hfinite}

theorem CountsAlike.answer (hinj : Function.Injective ofInt) {guard guard' : SignatureGuard}
    {plain plain' : DuplicateGuard} {args : CallArgs} {given : AdmitAnswer} {admitted : Bool}
    (h : CountsAlike num hfinite guard plain)
    (hsigned : guard.admit num (args.offered ofInt hfinite) = (given, guard'))
    (hplain : plain.admit args.tool args = (admitted, plain')) :
    given.isBlocked = !admitted ∧ CountsAlike num hfinite guard' plain' := by
  unfold SignatureGuard.admit at hsigned
  unfold DuplicateGuard.admit at hplain
  have htool : (args.offered ofInt hfinite).tool = args.tool := rfl
  dsimp only at hsigned
  rw [h.used args, htool] at hsigned
  by_cases hlimit : duplicateLimit args.tool ≤ plain.counts args
  · rw [if_pos hlimit] at hsigned hplain
    cases hsigned
    cases hplain
    exact ⟨rfl, h.used, congrArg (· + 1) h.blocked⟩
  · rw [if_neg hlimit] at hsigned hplain
    cases hsigned
    cases hplain
    refine ⟨rfl, fun other => ?_, rfl⟩
    rw [SignatureGuard.used_set]
    show _ = Function.update plain.counts args (plain.counts args + 1) other
    rw [Function.update_apply]
    by_cases hother : other = args
    · rw [if_pos hother, if_pos (by rw [hother])]
    · rw [if_neg hother, if_neg fun hkey => ?_]
      · exact h.used other
      · obtain ⟨htool, hsame⟩ := (signatureOf_eq_iff num).1 hkey
        exact hother (offered_inj hinj hfinite htool hsame)

/-- The two guards let the same calls through, and give up after the same calls. -/
theorem run_simulates (hinj : Function.Injective ofInt) (calls : List CallArgs) :
    let signed := SignatureGuard.new.run num (calls.map fun a => a.offered ofInt hfinite)
    let plain := DuplicateGuard.new.run calls
    signed.1.map (fun p => !p.2.isBlocked) = plain.1 ∧ signed.2.stuck = plain.2.stuck := by
  have hrun : ∀ (guard : SignatureGuard) (plain : DuplicateGuard),
      CountsAlike num hfinite guard plain →
      (guard.run num (calls.map fun a => a.offered ofInt hfinite)).1.map
          (fun p => !p.2.isBlocked) = (plain.run calls).1 ∧
        (guard.run num (calls.map fun a => a.offered ofInt hfinite)).2.stuck =
          (plain.run calls).2.stuck := by
    induction calls with
    | nil =>
      intro guard plain h
      refine ⟨rfl, ?_⟩
      show decide (_ ≤ guard.consecutiveBlocked) = decide (_ ≤ plain.consecutiveBlocked)
      rw [h.blocked]
    | cons args calls ih =>
      intro guard plain h
      rcases hsigned : guard.admit num (args.offered ofInt hfinite) with ⟨given, guard'⟩
      rcases hplain : plain.admit args.tool args with ⟨admitted, plain'⟩
      obtain ⟨hanswer, hnext⟩ := h.answer hinj hsigned hplain
      obtain ⟨hothers, hstuck⟩ := ih _ _ hnext
      rw [List.map_cons, SignatureGuard.run, DuplicateGuard.run, hsigned, hplain]
      refine ⟨?_, hstuck⟩
      rw [List.map_cons, hothers]
      dsimp only
      rw [hanswer, Bool.not_not]
  exact hrun .new .new ⟨fun _ => rfl, rfl⟩

/-- Whole numbers in decimal digits. -/
def wholeNumbers : Numerals Int where
  print := Json.int
  read l :=
    if l.head? = some '-' then some (-(Nat.ofDigitChars 10 l.tail 0 : Int))
    else some (Nat.ofDigitChars 10 l 0)
  read_print n := by
    by_cases hneg : n < 0
    · simp [Json.int, hneg, abs_of_neg hneg]
    · have hhead : (Nat.toDigits 10 n.natAbs).head? ≠ some '-' := fun h =>
        Json.minus_not_mem_toDigits (List.mem_of_head? h)
      simp [Json.int, hneg, hhead, abs_of_nonneg (not_lt.1 hneg)]
  head_print := Json.heads_int
  print_numeral n c hc := by
    have hnumeral : (c.isDigit || c = '-') = true := Json.int_numeral n c hc
    unfold isNumeral
    rw [hnumeral]
    rfl

/-- Three runs of the tests of one group, the last of which is blocked. -/
def repeatedTests : List CallArgs :=
  [.runTests (some "edge"), .readFile (some "main.cpp") (some 1) (some 20),
    .runTests (some "edge"), .runTests (some "edge")]

theorem repeatedTests_simulated :
    let signed := SignatureGuard.new.run wholeNumbers
      (repeatedTests.map fun a => (a.offered id fun _ => rfl : OfferedCall fun _ : Int => true))
    signed.1.map (fun p => !p.2.isBlocked) = [true, true, true, false] ∧
      signed.2.stuck = false := by
  have hplain : (DuplicateGuard.new.run repeatedTests).1 = [true, true, true, false] := by decide
  rw [← hplain]
  exact run_simulates Function.injective_id repeatedTests

end Simulation

end Cine.Grading
