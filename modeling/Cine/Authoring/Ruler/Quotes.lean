import Cine.Grading.OneShot.EvidenceCheck

/-!
# Quotations of the statement

`exam-authoring/ruler/ruler-core.ts`: how a quotation is compared with the
statement of a question.  A normalized text is a list of UTF-16 code units; the
normal form NFC is a parameter.
-/

namespace Cine.Authoring.Ruler

open Cine.Lib Cine.Grading

def normalizeForQuote (nfc : List Nat → List Nat) (text : String) : List Nat :=
  Squeeze.trimEnds isSpaceUnit (Squeeze.collapse isSpaceUnit 0x20 false (nfc (utf16 text)))

/-- `MIN_QUOTE_CHARS`. -/
def minQuoteChars : Nat := 10

def quoteAppearsInStatement (nfc : List Nat → List Nat) (quote statement : String) : Bool :=
  let q := normalizeForQuote nfc quote
  decide (minQuoteChars ≤ q.length) && decide (q <:+: normalizeForQuote nfc statement)

end Cine.Authoring.Ruler
