import RecordBridge.Conversion.Guard

/-!
# Assignments

The assignment of one source field to one target field, with the tests that its source needs. A copy
between equal paths of `in` and `out` stands in blocks that have tested all records on the path. Any
other assignment tests the records on its way itself.
-/

namespace RecordBridge

/-- A source field to be assigned to a target field. -/
structure Assignment where
  source : Place
  sourceRequired : Bool
  /-- The target, below `out`. -/
  target : Path
  targetRequired : Bool
  cast : Cast
  /-- Whether to assign only if the source is set, even where that is not needed. -/
  onlyIfSet : Bool

namespace Assignment

/-- Whether the assignment copies between paths of one spelling. -/
def isCopy (a : Assignment) : Bool :=
  a.source.root = .input && a.source.path.text = a.target.text

/-- Whether the cast would go wrong on an absent source. -/
def needsSource (a : Assignment) : Bool :=
  !a.sourceRequired && a.targetRequired && !a.cast.acceptsAbsent

/-- The places that have to be set for the assignment to take place. -/
def tested (a : Assignment) : List Place :=
  if a.isCopy then
    if a.onlyIfSet || a.needsSource then [a.source] else []
  else if a.onlyIfSet || a.needsSource then a.source.selections
  else a.source.selections.dropLast

/-- Whether the assignment stands in a block under a test. A test that was asked for is kept even if
there is no place to be tested. -/
def isTested (a : Assignment) : Bool :=
  a.onlyIfSet || !a.tested.isEmpty

/-- The statements of the assignment, after the guards for the records above its target. -/
def code (a : Assignment) (guards : Code) : Code :=
  let write := guards ++
    .step (.assign ⟨.output, a.target⟩ (.convert a.cast a.source)) .done
  if a.isTested then .nest (.ifSet a.tested) write .done else write

end Assignment

end RecordBridge
