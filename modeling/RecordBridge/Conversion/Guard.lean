import RecordBridge.Conversion.Statement
import RecordBridge.Deferred

/-!
# Guards

A write beneath a deferred record comes after a guard that allocates the record if it is still
absent. Local functions see only the record that they fill and, by a second name, the whole target.
-/

namespace RecordBridge

/-- The place of a record at `path` in the whole target, as seen within local functions that fill
the record at `scope`. Beneath that record it is reached from their own result, and elsewhere from
the whole target. -/
def seenFrom (scope path : Path) : Place :=
  if scope.isEmpty then ⟨.output, path⟩
  else match path.beneath? scope.text.toList with
    | some inside => ⟨.output, inside⟩
    | none => ⟨.wholeOutput, path⟩

/-- A statement that allocates a record that is absent. -/
def guard (place : Place) (type : GoType) : Code :=
  .nest (.ifUnset place) (.step (.assign place (.newRecord type)) .done) .done

/-- The guards for the deferred ancestors of a target path, which lies in the record at `scope`. -/
def Deferred.guards (d : Deferred) (scope target : Path) : Code :=
  (d.waiting ['.', '['] (scope ++ target)).foldr
    (fun parent rest => guard (seenFrom scope parent.1) parent.2 ++ rest) .done

end RecordBridge
