import RecordBridge.Conversion.Progress

/-!
# Converting records

A record is converted field by field, in a block of its own or in a local function where one of the
two records occurs within itself. Both take `fill`, which writes the statements for the fields of a
record from a position.
-/

namespace RecordBridge

/-- Writes the statements that fill some fields from a position. -/
abbrev Fill := Position → List Field → Writing Unit

/-- A record to be converted, and where it goes. -/
structure RecordJob where
  target : RecordRef
  source : RecordRef
  /-- The path of the target, below `out`. -/
  path : Path

variable (c : Settings) (fill : Fill) (pos : Position)

/-- Converts a record in place. It becomes a new record if `tested` is set, and absent if not;
`base` leads to the fields of the source. Beneath a deferred record it is left alone if not. -/
def convertInline (job : RecordJob) (type : GoType) (tested base : Place) : Writing Unit := do
  let guards ← Writing.guards pos job.path
  let body : Writing Unit := Writing.enclosed do
    Draft.write guards
    Writing.assign job.path (.newRecord type)
    fill
      { pos with target := job.path, source := some (base, c.schema.fields job.source) }
      (c.schema.fields job.target)
  if guards.isEmpty then
    Draft.fork (.ifSet [tested]) body (Writing.assign job.path .absent)
  else
    Draft.nest (.ifSet [tested]) body

/-- The body of a local function that converts a record. -/
def helperBody (job : RecordJob) (helper : HelperSignature) : Writing Unit := do
  Writing.statement (.declare helper)
  Draft.nest (.helperBody helper) do
    Draft.fork (.ifSet [.ofVar .input])
      (Writing.enclosed do
        Writing.statement (.assign (.ofVar .output) (.newRecord helper.target))
        fill
          { target := []
            source := some (.ofVar .input, c.schema.fields job.source)
            scope := pos.scope ++ job.path }
          (c.schema.fields job.target))
      (Writing.statement (.assign (.ofVar .output) .absent))
    Writing.statement .giveBack

/-- The local function that converts a record: the innermost one in scope, or a new one. -/
def helperFor (job : RecordJob) : Writing Var := do
  let inScope := (← Draft.state).helpers.find? fun h =>
    h.target == job.target.id && h.source == job.source.id
  match inScope with
  | some helper => return helper.name
  | none =>
    let target ← Draft.ofExcept (FieldType.goType c.resolve (.record job.target))
    let source ← Draft.ofExcept (FieldType.goType c.resolve (.record job.source))
    let name := Var.helper (pascal job.target.name) (← Writing.fresh)
    Draft.update fun p =>
      { p with helpers := ⟨job.target.id, job.source.id, name⟩ :: p.helpers }
    helperBody c fill pos job ⟨name, source, target⟩
    return name

end RecordBridge
