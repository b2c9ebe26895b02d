import RecordBridge.Conversion.Source
import RecordBridge.Naming.Snake
import RecordBridge.Plugin.Error
import RecordBridge.Text.Blank

/-!
# Parameters

The parameter of a plugin is a text of `key=value` pieces with commas between them. Later pieces go
before earlier ones that set the same thing.
-/

namespace RecordBridge

/-- What a plugin generates. -/
inductive Mode where
  | convert
  | populate
  | propagate
  deriving DecidableEq, Repr

namespace Mode

/-- The word for a mode. -/
def word : Mode → String
  | .convert => "convert"
  | .populate => "populate"
  | .propagate => "propagate"

/-- The mode of a word. -/
def ofWord? (word : String) : Option Mode :=
  [convert, populate, propagate].find? (·.word == word)

end Mode

/-- One piece of a parameter. -/
inductive Piece where
  | mode (m : Mode)
  | source (message : String)
  | target (message : String)
  | output (name : String)
  | map (target : String) (mapping : Mapping)
  | optional (path : String)
  deriving DecidableEq, Repr

namespace Piece

/-- The two sides of the first equals sign. -/
def sides? (s : String) : Option (String × String) :=
  (Text.cutFirst '=' s.toList).map fun (key, value) => (String.ofList key, String.ofList value)

/-- A mapping, of which the source may end in an exclamation mark to override. -/
def mapping (source : String) : Mapping :=
  match Text.dropEnd? "!" source with
  | some source => ⟨source, true⟩
  | none => ⟨source, false⟩

/-- Reads one piece. -/
def read (piece : String) : Except PluginError Piece :=
  match sides? piece with
  | none => .error (.parameter ("expected key=value, got `" ++ piece ++ "`"))
  | some ("mode", value) =>
    match Mode.ofWord? value with
    | some m => .ok (.mode m)
    | none => .error (.parameter ("unknown mode `" ++ value ++ "`"))
  | some ("from", value) => .ok (.source value)
  | some ("to", value) => .ok (.target value)
  | some ("out", value) => .ok (.output value)
  | some ("map", value) =>
    match sides? value with
    | some (path, name) => .ok (.map path (mapping name))
    | none => .error (.parameter ("expected map=Target=Source, got `" ++ piece ++ "`"))
  | some ("optional", value) => .ok (.optional value)
  | some (other, _) => .error (.parameter ("unknown key `" ++ other ++ "`"))

end Piece

/-- The parameter of a plugin. -/
structure Parameters where
  mode : Mode := .convert
  source? : Option String := none
  target? : Option String := none
  output? : Option String := none
  mappings : Mappings := .empty
  /-- Target paths that may stay unset. -/
  optional : Table Unit := .empty

namespace Parameters

/-- The parameters with what a piece sets. -/
def set (p : Parameters) : Piece → Parameters
  | .mode m => { p with mode := m }
  | .source message => { p with source? := some message }
  | .target message => { p with target? := some message }
  | .output name => { p with output? := some name }
  | .map target mapping => { p with mappings := p.mappings.insert target mapping }
  | .optional path => { p with optional := p.optional.insert path () }

/-- The pieces of a parameter, without blanks around them; empty ones do not count. -/
def pieces (s : String) : List String :=
  ((Text.splitWhere (· == ',') s.toList).map Text.trim).filterMap fun piece =>
    if piece.isEmpty then none else some (String.ofList piece)

/-- Reads a parameter. -/
def read (s : String) : Except PluginError Parameters := do
  let pieces ← (pieces s).mapM Piece.read
  .ok (pieces.foldl set {})

/-- The source message, which has to be given. -/
def source (p : Parameters) : Except PluginError String :=
  match p.source? with
  | some name => .ok name
  | none => .error (.parameter "missing `from`")

/-- The target message, which has to be given. -/
def target (p : Parameters) : Except PluginError String :=
  match p.target? with
  | some name => .ok name
  | none => .error (.parameter "missing `to`")

/-- The name of the generated file: the one given, or one made from the target message, in snake case,
and the mode. -/
def outputName (p : Parameters) (snakeCase : String → String := snake) : Except PluginError String :=
  match p.output? with
  | some name => .ok name
  | none => do
    let target ← p.target
    .ok (snakeCase (Text.afterLast '.' target) ++ "_" ++ p.mode.word ++ ".go.txt")

end Parameters

end RecordBridge
