import Cine.Lib.JsonText
import Cine.Lib.Utf16

/-!
# Schemas of JSON values

A schema accepts or refuses a value whose numbers are whole.  A text is
measured in UTF-16 code units.  A property that no schema asks for is let
through, and where a text has a name twice, the last property counts.

`object_mk` is the rule for a value that was written with the properties of
its schema: it is accepted when each property is.
-/

namespace Cine.Lib

open JsonText

namespace JsonText

variable {N α : Type}

/-! ## Values from lists -/

def Items.mk : List (Value N) → Items N
  | [] => .nil
  | v :: rest => .cons v (Items.mk rest)

def Fields.mk : List (String × Value N) → Fields N
  | [] => .nil
  | (key, v) :: rest => .cons key.toList v (Fields.mk rest)

def Items.all (p : Value N → Bool) : Items N → Bool
  | .nil => true
  | .cons v rest => p v && rest.all p

def Fields.all (p : Value N → Bool) : Fields N → Bool
  | .nil => true
  | .cons _ v rest => p v && rest.all p

/-- An array, element by element. -/
def arrOf (f : α → Value N) (l : List α) : Value N := .arr (Items.mk (l.map f))

def text (s : String) : Value N := .str s.toList

def orNull (f : α → Value N) : Option α → Value N
  | none => .null
  | some a => f a

theorem Items.all_mk (p : Value N → Bool) (l : List (Value N)) : (Items.mk l).all p = l.all p := by
  induction l with
  | nil => rfl
  | cons v rest ih => exact congrArg (p v && ·) ih

theorem Fields.all_mk (p : Value N → Bool) (l : List (String × Value N)) :
    (Fields.mk l).all p = l.all fun f => p f.2 := by
  induction l with
  | nil => rfl
  | cons f rest ih => exact congrArg (p f.2 && ·) ih

theorem Fields.last?_mk_none {key : String} {l : List (String × Value N)}
    (h : ∀ f ∈ l, f.1 ≠ key) : (Fields.mk l).last? key.toList = none := by
  induction l with
  | nil => rfl
  | cons f rest ih =>
    have hrest := ih fun g hg => h g (List.mem_cons_of_mem f hg)
    have hne : f.1.toList ≠ key.toList := fun heq =>
      h f List.mem_cons_self (String.toList_inj.1 heq)
    rw [Fields.mk, Fields.last?, hrest]
    exact if_neg hne

/-- A property of names that differ is found. -/
theorem Fields.last?_mk {l : List (String × Value N)} (hl : (l.map Prod.fst).Nodup)
    {f : String × Value N} (hf : f ∈ l) : (Fields.mk l).last? f.1.toList = some f.2 := by
  induction l with
  | nil => exact absurd hf List.not_mem_nil
  | cons g rest ih =>
    obtain ⟨hg, hrest⟩ := List.nodup_cons.1 hl
    rw [Fields.mk, Fields.last?]
    rcases List.mem_cons.1 hf with rfl | hf
    · rw [Fields.last?_mk_none fun h hh heq => hg (List.mem_map.2 ⟨h, hh, heq⟩)]
      exact if_pos rfl
    · rw [ih hrest hf]

end JsonText

/-! ## Schemas -/

abbrev Schema := Value Int → Bool

namespace Schema

def string (p : List Char → Bool) : Schema
  | .str s => p s
  | _ => false

/-- `max(n)`. -/
def atMost (n : Nat) (s : List Char) : Bool := (s.flatMap codeUnits).length ≤ n

def oneOf (names : List String) : Schema :=
  string fun s => names.any fun name => name.toList = s

def int (p : Int → Bool) : Schema
  | .num n => p n
  | _ => false

def bool : Schema
  | .bool _ => true
  | _ => false

def nullable (p : Schema) : Schema
  | .null => true
  | v => p v

def array (p : Schema) : Schema
  | .arr items => items.all p
  | _ => false

def record (p : Schema) : Schema
  | .obj fields => fields.all p
  | _ => false

def object (fields : List (String × Schema)) : Schema
  | .obj values => fields.all fun f => (values.last? f.1.toList).any f.2
  | _ => false

/-- `refine`: a check of the whole value. -/
def refine (p check : Schema) : Schema := fun v => p v && check v

/-! ## What is accepted -/

theorem string_text {p : List Char → Bool} {s : String} (h : p s.toList = true) :
    string p (text s) = true := h

theorem atMost_text {n : Nat} {s : String} (h : (utf16 s).length ≤ n) :
    string (atMost n) (text s) = true :=
  decide_eq_true h

theorem oneOf_text {names : List String} {name : String} (h : name ∈ names) :
    oneOf names (text name) = true :=
  List.any_eq_true.2 ⟨name, h, decide_eq_true rfl⟩

theorem nullable_orNull {α : Type} {p : Schema} {f : α → Value Int} {a : Option α}
    (h : ∀ x, a = some x → p (f x) = true) : nullable p (orNull f a) = true := by
  cases a with
  | none => rfl
  | some x =>
    have hx := h x rfl
    unfold nullable orNull
    dsimp only
    split
    · rfl
    · exact hx

theorem array_arrOf {α : Type} {p : Schema} {f : α → Value Int} {l : List α}
    (h : ∀ a ∈ l, p (f a) = true) : array p (arrOf f l) = true := by
  show (Items.mk (l.map f)).all p = true
  rw [Items.all_mk, List.all_map]
  exact List.all_eq_true.2 h

theorem record_mk {p : Schema} {l : List (String × Value Int)} (h : ∀ f ∈ l, p f.2 = true) :
    record p (.obj (Fields.mk l)) = true := by
  show (Fields.mk l).all p = true
  rw [Fields.all_mk]
  exact List.all_eq_true.2 h

/-- A value with the properties of a schema, each as its schema wants it. -/
def Matches (schema : List (String × Schema)) (l : List (String × Value Int)) : Prop :=
  List.Forall₂ (fun f v => f.1 = v.1 ∧ f.2 v.2 = true) schema l

variable {schema : List (String × Schema)} {l : List (String × Value Int)}

theorem Matches.names (h : Matches schema l) : l.map Prod.fst = schema.map Prod.fst := by
  induction h with
  | nil => rfl
  | cons hstep _ ih => exact congrArg₂ List.cons hstep.1.symm ih

/-- A property is found under its name. -/
theorem Matches.last? (hnames : (schema.map Prod.fst).Nodup) (h : Matches schema l)
    {v : String × Value Int} (hv : v ∈ l) : (Fields.mk l).last? v.1.toList = some v.2 :=
  Fields.last?_mk (h.names.symm ▸ hnames) hv

theorem object_mk (hnames : (schema.map Prod.fst).Nodup) (h : Matches schema l) :
    object schema (.obj (Fields.mk l)) = true := by
  refine List.all_eq_true.2 fun f hf => ?_
  obtain ⟨v, hv, hname, hok⟩ : ∃ v ∈ l, f.1 = v.1 ∧ f.2 v.2 = true := by
    clear hnames
    induction h with
    | nil => exact absurd hf List.not_mem_nil
    | @cons g w schema l hstep _ ih =>
      rcases List.mem_cons.1 hf with rfl | hf
      · exact ⟨w, List.mem_cons_self, hstep⟩
      · obtain ⟨v, hv, hrest⟩ := ih hf
        exact ⟨v, List.mem_cons_of_mem w hv, hrest⟩
  rw [hname, h.last? hnames hv]
  exact hok

end Schema

end Cine.Lib
