import RecordBridge.Generator
import RecordBridge.Proofs.Conversion.Layout
import RecordBridge.Proofs.Header.Layout

/-!
# Generators

What holds of all generators.

The runs of a generator are independent. A generator keeps its lines and the progress of its last
conversion, however that run ended. None of it reaches a later run: lines and progress are dropped
where a run starts, and the note on local functions is made anew before it is read
(`settings_of_noted`). So each request comes to what it comes to alone, from whatever generator
(`answer_outcome`), and by induction on the requests so does each of a sequence (`answerAll_outcomes`).

The lines that a generator gives are in blocks, which can be told from the lines alone
(`lines_isBlockStructured`).
-/

namespace RecordBridge

namespace Draft

variable {S H σ α : Type} [Spelled S] [Spelled H]

/-- A draft that is resumed with no lines held comes to what it comes to alone. -/
theorem resume_outcome (d : Draft S H σ α) (state : σ) :
    (d.resume [] state).outcome = d.outcome state := by
  rw [resume, outcome]
  rcases d state with ⟨written, stop, after⟩ | ⟨a, b, after⟩
  · cases stop <;> rfl
  · rfl

/-- A draft that fails leaves no lines, whatever was held. -/
theorem resume_lines_of_failed {d : Draft S H σ α} {held : List String} {state : σ}
    {cause : GenerationError} (h : (d.resume held state).outcome = .failed cause) :
    (d.resume held state).lines = [] := by
  rw [resume] at h ⊢
  cases hd : d state with
  | ok r =>
    rw [hd] at h
    cases h
  | error halt =>
    obtain ⟨written, stop, after⟩ := halt
    cases stop with
    | failed cause => rfl
    | broke fault =>
      -- A broken run keeps its lines, but it has not failed.
      rw [hd] at h
      cases h
    | unfinished => rfl

end Draft

namespace Generator

variable (g : Generator)

/-! ## One run -/

/-- Once the note on local functions has been made for a conversion, it says what the records of the
conversion say. -/
theorem settings_of_noted {r : ConversionRequest} {mapped : List (String × MappedField)}
    (h : g.recursive = r.records.any r.schema.isCyclic) : g.settings r mapped = r.settings mapped := by
  have hcyclic : (if g.recursive then (r.settings mapped).cyclic else []) =
      (r.settings mapped).cyclic := by
    rw [h]
    split
    · rfl
    · rename_i hnone
      -- Without a record that occurs within itself there is nothing to leave out.
      exact (List.filter_eq_nil_iff.mpr (by simpa using hnone)).symm
  simp only [settings, hcyclic]

/-- A conversion comes to the same from every generator. -/
theorem convert_outcome (r : ConversionRequest) : (g.convert r).1 = r.run := by
  rw [convert, ConversionRequest.run, ConversionRequest.draft]
  cases r.schema.followMappings r.source r.mappings.entries with
  | error cause => rfl
  | ok mapped =>
    simp only [settings_of_noted]
    rw [Draft.resume_outcome]
    exact congrArg (Draft.outcome · {})
      (pure_bind mapped fun mapped => r.body (r.settings mapped)).symm

/-- A conversion that fails leaves no lines. -/
theorem convert_lines_of_failed {r : ConversionRequest} {cause : GenerationError}
    (h : (g.convert r).1 = .failed cause) : (g.convert r).2.lines = [] := by
  rw [convert] at h ⊢
  cases hmapped : r.schema.followMappings r.source r.mappings.entries with
  | error cause => rfl
  | ok mapped =>
    rw [hmapped] at h
    exact Draft.resume_lines_of_failed h

/-- A reading that fails leaves no lines. -/
theorem read_lines_of_failed {r : ReadingRequest} {cause : GenerationError}
    (h : (g.read r).1 = .failed cause) : (g.read r).2.lines = [] := by
  rw [read] at h ⊢
  cases hrun : r.run with
  | failed cause => rfl
  | lines text => rw [hrun] at h; cases h
  | broke fault written => rw [hrun] at h; cases h
  | unfinished => rfl

/-- A reading comes to the same from every generator. -/
theorem read_outcome (r : ReadingRequest) : (g.read r).1 = r.run := by
  rw [read]
  cases r.run <;> rfl

/-- A request comes to the same from every generator. -/
theorem answer_outcome (request : GeneratorRequest) : (g.answer request).1 = request.run := by
  cases request with
  | convert r => exact g.convert_outcome r
  | bind r => exact Draft.resume_outcome r.draft ()
  | read r => exact g.read_outcome r

/-- A request that fails leaves no lines. -/
theorem answer_lines_of_failed {request : GeneratorRequest} {cause : GenerationError}
    (h : (g.answer request).1 = .failed cause) : (g.answer request).2.lines = [] := by
  cases request with
  | convert r => exact g.convert_lines_of_failed h
  | bind r => exact Draft.resume_lines_of_failed h
  | read r => exact g.read_lines_of_failed h

/-! ## Sequences of runs -/

/-- Each of a sequence of requests comes to what it comes to alone. -/
theorem answerAll_outcomes (requests : List GeneratorRequest) :
    (g.answerAll requests).1 = requests.map GeneratorRequest.run := by
  induction requests generalizing g with
  | nil => rfl
  | cons request rest ih =>
    show (g.answer request).1 :: ((g.answer request).2.answerAll rest).1 = _
    rw [g.answer_outcome, ih, List.map_cons]

/-- On one generator, each of a sequence of requests comes to what it comes to on a new generator,
whether those before it gave lines, failed or broke; and one that fails leaves no lines. -/
theorem runs_independent (requests : List GeneratorRequest) :
    (g.answerAll requests).1 =
        requests.map (fun request => (({} : Generator).answer request).1) ∧
      ∀ earlier request cause, ((g.answerAll earlier).2.answer request).1 = .failed cause →
        ((g.answerAll earlier).2.answer request).2.lines = [] := by
  refine ⟨?_, fun earlier request cause h => answer_lines_of_failed _ h⟩
  rw [answerAll_outcomes]
  exact List.map_congr_left fun request _ => (answer_outcome {} request).symm

/-- A conversion between chains of records, whose target records end in a given field. -/
def chainEnding (last : Field) : GeneratorRequest :=
  .convert
    { schema := ⟨
        [(0, [⟨0, "next", false, .record ⟨0, "Foo", "structs"⟩, []⟩, ⟨1, "name", true, .text, []⟩]),
         (1, [⟨2, "next", false, .record ⟨1, "Bar", "structs"⟩, []⟩, last])]⟩
      resolve := .ok
      source := [⟨3, "first", false, .record ⟨0, "Foo", "structs"⟩, []⟩]
      target := [⟨4, "first", false, .record ⟨1, "Bar", "structs"⟩, []⟩]
      mappings := .empty
      optional := [] }

/-- A run that breaks within a local function leaves its lines; one that fails after it leaves
none. -/
theorem chainEnding_lines :
    let broken := chainEnding ⟨5, "name", true, .enum "Color" "a\nb", []⟩
    let failing := chainEnding ⟨5, "size", true, .int32, []⟩
    let g := (({} : Generator).answerAll [broken, failing, broken]).2
    g.lines ≠ [] ∧ (g.answer failing).1 = .failed (.missingRequired "size") ∧
      (g.answer failing).2.lines = [] := by
  intro broken failing g
  have hfailed : (g.answer failing).1 = .failed (.missingRequired "size") := by decide +kernel
  exact ⟨by decide +kernel, hfailed, (runs_independent {} []).2 _ failing _ hfailed⟩

end Generator

/-! ## Layout -/

namespace GeneratorRequest

/-- No name of a source field of a conversion holds an opening brace; an identifier holds none. All
else may have any name. -/
def Unbraced : GeneratorRequest → Prop
  | .convert r => r.Unbraced
  | .bind _ | .read _ => True

/-- **Lines are in blocks**: a scan that counts the open blocks, by the braces at the start and the
end of lines alone, finds each line indented by as many tabs, meets no brace that closes a block when
none is open, and ends with none open. -/
theorem lines_isBlockStructured {request : GeneratorRequest} (h : request.Unbraced)
    {text : List String} (hrun : request.run = .lines text) : IsBlockStructured text := by
  cases request with
  | convert r => exact ConversionRequest.run_isBlockStructured h hrun
  | bind r => exact BindingRequest.run_isBlockStructured hrun
  | read r => exact ReadingRequest.run_isBlockStructured hrun

/-- The lines of a local function, with blocks that hold blocks. -/
theorem chainEnding_isBlockStructured :
    let request := Generator.chainEnding ⟨5, "name", true, .text, []⟩
    let text :=
      ["var convertBarHelper1 func(in *structs.Foo) (out *structs.Bar)",
        "convertBarHelper1 = func(in *structs.Foo) (out *structs.Bar) \x7b",
        "\tif in != nil \x7b",
        "\t\tout = &structs.Bar\x7b\x7d",
        "\t\tout.Next = convertBarHelper1(in.Next)",
        "\t\tout.Name = string(in.Name)",
        "\t\x7d else \x7b",
        "\t\tout = nil",
        "\t\x7d",
        "\treturn",
        "\x7d",
        "out.First = convertBarHelper1(in.First)"]
    request.Unbraced ∧ request.run = .lines text ∧ IsBlockStructured text := by
  intro request text
  have hnames : request.Unbraced := by
    show ConversionRequest.Unbraced _
    decide
  have hrun : request.run = .lines text := by decide +kernel
  exact ⟨hnames, hrun, lines_isBlockStructured hnames hrun⟩

end GeneratorRequest

end RecordBridge
