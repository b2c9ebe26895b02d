import RecordBridge.Conversion.Assignment
import RecordBridge.Conversion.Source
import RecordBridge.Draft
import RecordBridge.Schema.Reach

/-!
# The progress of a conversion

What stays fixed during a conversion, what changes from statement to statement, and where in the two
records the conversion stands.
-/

namespace RecordBridge

/-- What stays fixed during a conversion. -/
structure Settings where
  schema : Schema
  resolve : Resolver
  /-- The mappings by target path, in increasing order of the paths. -/
  mapped : List (String × MappedField)
  /-- Target paths that may stay unset. -/
  optional : List String
  /-- The records of either side that occur within themselves. -/
  cyclic : List Nat

namespace Settings

/-- Whether records are converted by local functions. -/
def isRecursive (c : Settings) : Bool :=
  !c.cyclic.isEmpty

/-- The variable at which mapped sources start. Local functions hide `in`. -/
def mappedRoot (c : Settings) : Var :=
  if c.isRecursive then .wholeInput else .input

/-- Whether the conversion between two records needs a local function. -/
def needsHelper (c : Settings) (target source : RecordRef) : Bool :=
  c.cyclic.contains target.id || c.cyclic.contains source.id

/-- The mapping of a target path. -/
def mapping? (c : Settings) (path : String) : Option MappedField :=
  c.mapped.lookup path

/-- Whether something beneath a target path is mapped. -/
def mapsBelow (c : Settings) (path : String) : Bool :=
  c.mapped.any fun entry => Text.startsWith (path ++ ".") entry.1

/-- Whether a target path may stay unset: it, or one above it, is listed. -/
def allowsUnset (c : Settings) (path : String) : Bool :=
  c.optional.any fun listed => path == listed || Text.startsWith (listed ++ ".") path

end Settings

/-- A local function in scope: the target and source record that it converts between, and its
name. -/
structure Helper where
  target : Nat
  source : Nat
  name : Var
  deriving DecidableEq, Repr

/-- What changes during a conversion. -/
structure Progress where
  /-- The number in the last generated name. -/
  counter : Nat := 0
  /-- The local functions in scope, the innermost first. -/
  helpers : List Helper := []
  deferred : Deferred := .empty

/-- Writes statements of a conversion. -/
abbrev Writing := Draft Statement Head Progress

/-- Where a conversion stands. -/
structure Position where
  /-- The path of the record being filled, below `out`. -/
  target : Path := []
  /-- The record it is filled from, if it has one, and its fields. -/
  source : Option (Place × List Field) := none
  /-- The path from the whole target record to the `out` of the innermost local function. -/
  scope : Path := []

namespace Writing

/-- The next number for a generated name. -/
def fresh : Writing Nat := do
  Draft.update fun p => { p with counter := p.counter + 1 }
  return (← Draft.state).counter

/-- Runs a draft whose local functions are out of scope after it. -/
def enclosed {α : Type} (d : Writing α) : Writing α := do
  let before ← Draft.state
  let a ← d
  Draft.update fun p => { p with helpers := before.helpers }
  return a

/-- The guards for the deferred records above a target path. -/
def guards (pos : Position) (target : Path) : Writing Code := do
  return (← Draft.state).deferred.guards pos.scope target

/-- Writes one statement. -/
def statement (s : Statement) : Writing Unit :=
  Draft.write (.step s .done)

/-- Assigns to a path below `out`. -/
def assign (target : Path) (value : Expr) : Writing Unit :=
  statement (.assign ⟨.output, target⟩ value)

end Writing

end RecordBridge
