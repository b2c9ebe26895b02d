import RecordBridge.Text.CharSpan

/-!
# Blanks

The characters with the Unicode property White_Space, and texts without blanks at their ends.
-/

namespace RecordBridge.Text

/-- The blank characters. -/
def blankSpans : List CharSpan :=
  [⟨0x9, 0xD, 1⟩, ⟨0x20, 0x20, 1⟩, ⟨0x85, 0x85, 1⟩, ⟨0xA0, 0xA0, 1⟩, ⟨0x1680, 0x1680, 1⟩,
    ⟨0x2000, 0x200A, 1⟩, ⟨0x2028, 0x2029, 1⟩, ⟨0x202F, 0x202F, 1⟩, ⟨0x205F, 0x205F, 1⟩,
    ⟨0x3000, 0x3000, 1⟩]

/-- Whether a character is blank. -/
def isBlank (c : Char) : Bool :=
  inSpans blankSpans c.toNat

/-- A text without the blanks at its beginning and end. -/
def trim (s : List Char) : List Char :=
  ((s.dropWhile isBlank).reverse.dropWhile isBlank).reverse

end RecordBridge.Text
