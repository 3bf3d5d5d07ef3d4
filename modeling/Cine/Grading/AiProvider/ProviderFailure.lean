import Mathlib.Data.List.Infix

/-!
# What kind of failure a provider call ended in

`grading/ai-provider/provider-failure.ts`.  An error is any thrown value;
`ProviderError` keeps the fields that the classification reads, each one
absent where it has another type than the one asked for.
-/

namespace Cine.Grading

inductive ProviderFailureKind
  | transient
  | tierDead
  | badOutput
deriving DecidableEq, Repr

/-- `ErrorShape`: a thrown value as far as it is read. -/
inductive ProviderError
  | mk (badOutput : Bool) (code : Option String) (status : Option Int)
      (message : Option String) (cause : Option ProviderError)
deriving Repr

namespace ProviderError

def badOutput : ProviderError → Bool
  | mk b _ _ _ _ => b

def code : ProviderError → Option String
  | mk _ c _ _ _ => c

def status : ProviderError → Option Int
  | mk _ _ s _ _ => s

def message : ProviderError → Option String
  | mk _ _ _ m _ => m

def cause : ProviderError → Option ProviderError
  | mk _ _ _ _ c => c

end ProviderError

/-- `toLowerCase` as far as a comparison with plain text can tell: the one
letter outside plain text that goes to a plain one is the Kelvin sign. -/
def toLowerCase (s : String) : List Char :=
  s.toList.map fun c => if c = '\u212a' then 'k' else c.toLower

/-- `DEAD_CODES`. -/
def deadCodes : List String :=
  ["all_accounts_unavailable", "model_not_found", "insufficient_user_quota",
    "insufficient_quota", "access_denied", "invalid_api_key", "account_deactivated",
    "billing_hard_limit_reached"]

/-- `UNREACHABLE_CODES`. -/
def unreachableCodes : List String :=
  ["enotfound", "econnrefused", "eai_again"]

/-- The alternatives of `CREDIT_MESSAGE`. -/
def creditMessages : List String :=
  ["credit balance is too low", "insufficient credit", "insufficient balance",
    "insufficient funds"]

/-- `CREDIT_MESSAGE.test`: the letters of the pattern match in either case. -/
def matchesCreditMessage (message : String) : Bool :=
  creditMessages.any fun m => decide (m.toList <:+: message.toList.map Char.toLower)

def hasCodeIn (codes : List String) (error : ProviderError) : Bool :=
  match error.code with
  | some code => codes.any fun c => c.toList = toLowerCase code
  | none => false

/-- `isUnreachable`: the chain of causes, followed `depth` levels. -/
def isUnreachableWithin : Nat → ProviderError → Bool
  | 0, _ => false
  | depth + 1, error =>
    hasCodeIn unreachableCodes error ||
      match error.cause with
      | some cause => isUnreachableWithin depth cause
      | none => false

def isUnreachable (error : ProviderError) : Bool :=
  isUnreachableWithin 5 error

def classifyProviderFailure (error : ProviderError) : ProviderFailureKind :=
  if error.badOutput then .badOutput
  else if hasCodeIn deadCodes error then .tierDead
  else if isUnreachable error then .tierDead
  else if error.status = some 401 ∨ error.status = some 403 ∨ error.status = some 404 then
    .tierDead
  else if error.status = some 400 ∧ matchesCreditMessage (error.message.getD "") then .tierDead
  else .transient

/-- A host name that does not resolve is found below the outer error. -/
example : classifyProviderFailure
    (.mk false none none (some "fetch failed")
      (some (.mk false (some "ENOTFOUND") none none none))) = .tierDead := by
  decide +kernel

end Cine.Grading
