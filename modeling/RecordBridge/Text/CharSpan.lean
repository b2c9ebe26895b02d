/-!
# Spans of characters

A Unicode property is kept as a table of spans of code points; a case mapping as spans with the
distance from a character to its counterpart.
-/

namespace RecordBridge.Text

/-- The code points `first`, `first + step`, … up to `last`. -/
structure CharSpan where
  first : Nat
  last : Nat
  step : Nat
  deriving Repr, DecidableEq

/-- Whether a code point belongs to the span. -/
def CharSpan.contains (s : CharSpan) (code : Nat) : Bool :=
  s.first ≤ code && code ≤ s.last && (code - s.first) % s.step == 0

/-- Whether a code point belongs to one of the spans. -/
def inSpans (spans : List CharSpan) (code : Nat) : Bool :=
  spans.any (·.contains code)

/-- Moves a character by the distance of the span that holds it; a character of no span stays. -/
def shiftBy (shifts : List (CharSpan × Int)) (c : Char) : Char :=
  match shifts.find? (·.1.contains c.toNat) with
  | some (_, distance) => Char.ofNat (c.toNat + distance).toNat
  | none => c

end RecordBridge.Text
