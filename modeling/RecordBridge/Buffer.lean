import RecordBridge.Error

/-!
# Line buffers

Lines collected in order. None of them holds a line feed.
-/

namespace RecordBridge

/-- Lines collected in order. -/
structure Buffer where
  lines : List String := []
  deriving DecidableEq, Repr

namespace Buffer

/-- Adds a line, which must not hold a line feed. -/
def push (b : Buffer) (line : String) : Except Breakdown Buffer :=
  if (Line.mk 0 line).isSingle then .ok ⟨b.lines ++ [line]⟩ else .error (.brokenLine ⟨0, line⟩)

/-- Adds a line made of parts. -/
def append (b : Buffer) (parts : List String) : Except Breakdown Buffer :=
  b.push (String.join parts)

/-- Adds lines up to the first one that holds a line feed. -/
def extend (b : Buffer) : List String → Buffer × Option Breakdown
  | [] => (b, none)
  | line :: rest =>
    match b.push line with
    | .ok b => b.extend rest
    | .error fault => (b, some fault)

/-- The buffer without lines. -/
def clear (_ : Buffer) : Buffer :=
  {}

/-- The number of lines. -/
def size (b : Buffer) : Nat :=
  b.lines.length

/-- Whether there is no line. -/
def isEmpty (b : Buffer) : Bool :=
  b.lines.isEmpty

end Buffer

end RecordBridge
