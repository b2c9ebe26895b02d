import RecordBridge.Conversion.Field

/-!
# Conversions

The statements that fill the fields of a target record `out` from those of a source record `in`.
-/

namespace RecordBridge

/-- A conversion to be generated. -/
structure ConversionRequest where
  schema : Schema
  resolve : Resolver
  source : List Field
  target : List Field
  mappings : Mappings
  /-- Target paths that may stay unset even if they are required, with all beneath them. -/
  optional : List String

namespace ConversionRequest

/-- The records that occur in the source and target fields at any depth. -/
def records (r : ConversionRequest) : List Nat :=
  r.schema.reachable ((Schema.mentioned (r.source ++ r.target)).map (·.id))

/-- How deep records can be nested in the statements. Each level converts a record in place, calls a
local function for a pair of records that has none, or leads towards a mapped path; between two
levels of the last two kinds, no record is converted in place twice. -/
def depthBound (r : ConversionRequest) : Nat :=
  let records := r.records.length
  let longest := (r.mappings.keys.map String.length).foldl max 0
  (records * records + longest + 1) * (records + 2) + 1

/-- The settings of a conversion whose mappings have been followed. -/
def settings (r : ConversionRequest) (mapped : List (String × MappedField)) : Settings :=
  { schema := r.schema
    resolve := r.resolve
    mapped
    optional := r.optional
    cyclic := r.records.filter r.schema.isCyclic }

/-- The statements that keep the whole records in reach of local functions. -/
def preamble (c : Settings) : Code :=
  if c.isRecursive && !c.mapped.isEmpty then
    .ofList [.keep .wholeInput .input, .keep .wholeOutput .output]
  else .done

/-- Writes the statements of a conversion by its settings. -/
def body (r : ConversionRequest) (c : Settings) : Writing Unit := do
  Draft.write (preamble c)
  fillFields c r.depthBound { source := some (.ofVar .input, r.source) } r.target

/-- Writes the statements of a conversion. -/
def draft (r : ConversionRequest) : Writing Unit := do
  let mapped ← Draft.ofExcept (r.schema.followMappings r.source r.mappings.entries)
  r.body (r.settings mapped)

/-- The lines of a conversion, or why there are none. -/
def run (r : ConversionRequest) : Outcome :=
  r.draft.outcome {}

end ConversionRequest

end RecordBridge
