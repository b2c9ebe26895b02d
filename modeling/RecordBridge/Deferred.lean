import RecordBridge.Place
import RecordBridge.Table

/-!
# Deferred records

An optional target record without a source of its own is allocated only when something beneath it is
written. Until then it waits in a table, by the spelling of its path. The spelling of a record comes
before those of the records beneath it, so the table lists a record before them.
-/

namespace RecordBridge

/-- The target records whose allocation waits for a write beneath them, with their Go types, by the
spelling of their paths. -/
abbrev Deferred := Table (Path × GoType)

namespace Deferred

/-- Defers a record, or gives a deferred record another type. -/
def defer (d : Deferred) (path : Path) (type : GoType) : Deferred :=
  d.insert path.text (path, type)

/-- The deferred records above a path, outermost first: those after whose spelling that of the path
goes on with one of some characters. -/
def waiting (d : Deferred) (marks : List Char) (path : Path) : List (Path × GoType) :=
  let whole := path.text
  (d.entries.filter fun e => Text.goesOnWith marks e.1 whole).map (·.2)

end Deferred

end RecordBridge
