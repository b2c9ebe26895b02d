import RecordBridge.Error
import RecordBridge.Naming.Identifier
import RecordBridge.Schema.Basic

/-!
# Go types

The Go type of a schema type. Records, enumerations and aliases are named types in the package of
the file that declares them; a `Resolver` tells that package.
-/

namespace RecordBridge

/-- Tells the Go package of a schema file, or why it has none. -/
abbrev Resolver := String → Except String String

/-- A Go type. -/
inductive GoType where
  | bool
  | int8
  | int16
  | int32
  | int64
  | float64
  | string
  | bytes
  | named (package name : String)
  | pointer (target : GoType)
  | slice (element : GoType)
  | keySet (element : GoType)
  | map (key value : GoType)
  /-- A slice of key and value pairs. -/
  | pairs (key value : GoType)
  deriving DecidableEq, Repr, Inhabited

/-- The spelling of a Go type. -/
def GoType.text : GoType → String
  | .bool => "bool"
  | .int8 => "int8"
  | .int16 => "int16"
  | .int32 => "int32"
  | .int64 => "int64"
  | .float64 => "float64"
  | .string => "string"
  | .bytes => "[]byte"
  | .named package name => package ++ "." ++ name
  | .pointer target => "*" ++ target.text
  | .slice element => "[]" ++ element.text
  | .keySet element => "map[" ++ element.text ++ "]struct\x7b\x7d"
  | .map key value => "map[" ++ key.text ++ "]" ++ value.text
  | .pairs key value => "[]struct\x7bKey " ++ key.text ++ "; Value " ++ value.text ++ "\x7d"

/-- The Go type that a file declares under a schema name. -/
def namedType (resolve : Resolver) (name file : String) : Except GenerationError GoType :=
  match resolve file with
  | .ok package => .ok (.named package (pascal name))
  | .error reason => .error (.unresolvedPackage name reason)

namespace FieldType

/-- How values of a type with the Go type `go` are held in fields and containers: records by
pointer, all else as it is. -/
def held (t : FieldType) (go : GoType) : GoType :=
  match t with
  | .record _ => .pointer go
  | _ => go

/-- The Go type of a schema type. A set is the keys of a map unless its elements cannot be keys or
it asks for a slice; a map whose keys cannot be keys in Go is a slice of pairs. -/
def goType (resolve : Resolver) : FieldType → Except GenerationError GoType
  | .bool => .ok .bool
  | .int8 => .ok .int8
  | .int16 => .ok .int16
  | .int32 => .ok .int32
  | .int64 => .ok .int64
  | .double => .ok .float64
  | .text => .ok .string
  | .binary => .ok .bytes
  | .enum name file => namedType resolve name file
  | .alias name file _ => namedType resolve name file
  | .record ref => namedType resolve ref.name ref.file
  | .list element => do
    let go ← element.goType resolve
    .ok (.slice (element.held go))
  | .set element form => do
    let go ← element.goType resolve
    if form = .keyed && element.isHashable then .ok (.keySet (element.held go))
    else .ok (.slice (element.held go))
  | .map key value => do
    let goKey ← key.goType resolve
    let goValue ← value.goType resolve
    if key.isHashable then .ok (.map (key.held goKey) (value.held goValue))
    else .ok (.pairs (key.held goKey) (value.held goValue))

/-- The Go type by which values of a type are held in fields and containers. -/
def heldType (resolve : Resolver) (t : FieldType) : Except GenerationError GoType := do
  let go ← t.goType resolve
  .ok (t.held go)

/-- The Go type of a type that must be a named one. -/
def ownType (resolve : Resolver) (t : FieldType) : Except Stop GoType :=
  match t with
  | .enum name file | .alias name file _ | .record ⟨_, name, file⟩ =>
    (namedType resolve name file).mapError .failed
  | other => .error (.broke (.unnamedType other.name))

end FieldType

end RecordBridge
