import RecordBridge.Conversion.Request
import RecordBridge.Header.Binding
import RecordBridge.Header.Reading

/-!
# Generators

A generator answers one request after another. It holds the lines of the last one, and a generator of
conversions also what it has counted, declared and deferred. A run takes up what the generator holds
once it has dropped what earlier runs have left there, and leaves what it has come to, also where it
stops half-way.

A run that fails leaves no lines. A run that breaks leaves the lines written before, except for the
reading of headers, which writes its lines apart.
-/

namespace RecordBridge

/-- A request to a generator. -/
inductive GeneratorRequest where
  | convert (r : ConversionRequest)
  | bind (r : BindingRequest)
  | read (r : ReadingRequest)

/-- What a request comes to. -/
def GeneratorRequest.run : GeneratorRequest → Outcome
  | .convert r => r.run
  | .bind r => r.run
  | .read r => r.run

/-- What is left of a run: what it has come to, the lines that are held after it, and the state at its
end. -/
structure Leftover (σ : Type) where
  outcome : Outcome
  lines : List String
  state : σ

/-- Runs a draft that adds its lines to those held. The lines are dropped if it fails. -/
def Draft.resume {S H σ α : Type} [Spelled S] [Spelled H] (d : Draft S H σ α) (held : List String)
    (state : σ) : Leftover σ :=
  match d state with
  | .ok (_, b, state) =>
    let lines := held ++ b.lines.map Line.indented
    ⟨.lines lines, lines, state⟩
  | .error halt =>
    let lines := held ++ halt.written.map Line.indented
    match halt.stop with
    | .failed cause => ⟨.failed cause, [], halt.state⟩
    | .broke fault => ⟨.broke fault lines, lines, halt.state⟩
    | .unfinished => ⟨.unfinished, [], halt.state⟩

/-- A generator, with what it keeps from one run to the next. -/
structure Generator where
  lines : List String := []
  /-- The names given out, the local functions in scope and the deferred records of a conversion. -/
  progress : Progress := {}
  /-- Whether a conversion uses local functions. -/
  recursive : Bool := false

namespace Generator

/-- The settings of a conversion whose mappings have been followed, by what the generator has noted
about local functions. -/
def settings (g : Generator) (r : ConversionRequest) (mapped : List (String × MappedField)) :
    Settings :=
  let c := r.settings mapped
  { c with cyclic := if g.recursive then c.cyclic else [] }

/-- Answers a conversion. What other conversions have left is dropped at the start, but for the note on
local functions, which is made anew once the mappings have been followed. -/
def convert (g : Generator) (r : ConversionRequest) : Outcome × Generator :=
  let g := { g with lines := [], progress := {} }
  match r.schema.followMappings r.source r.mappings.entries with
  | .error cause => (.failed cause, g)
  | .ok mapped =>
    let g := { g with recursive := r.records.any r.schema.isCyclic }
    let left := (r.body (g.settings r mapped)).resume g.lines g.progress
    (left.outcome, { g with lines := left.lines, progress := left.state })

/-- Answers a request to bind headers. -/
def bind (g : Generator) (r : BindingRequest) : Outcome × Generator :=
  let g := { g with lines := [] }
  let left := r.draft.resume g.lines ()
  (left.outcome, { g with lines := left.lines })

/-- Answers a request to read headers. Its lines take the place of those held once it has finished. -/
def read (g : Generator) (r : ReadingRequest) : Outcome × Generator :=
  let outcome := r.run
  match outcome with
  | .lines text => (outcome, { g with lines := text })
  | .failed _ | .unfinished => (outcome, { g with lines := [] })
  | .broke _ _ => (outcome, g)

/-- Answers a request. -/
def answer (g : Generator) : GeneratorRequest → Outcome × Generator
  | .convert r => g.convert r
  | .bind r => g.bind r
  | .read r => g.read r

/-- Answers requests in order. -/
def answerAll (g : Generator) : List GeneratorRequest → List Outcome × Generator
  | [] => ([], g)
  | request :: rest =>
    let (outcome, g) := g.answer request
    let (outcomes, g) := g.answerAll rest
    (outcome :: outcomes, g)

end Generator

end RecordBridge
