import RecordBridge.Plugin.Reply
import RecordBridge.Proofs.Conversion.Clean
import RecordBridge.Proofs.Conversion.Derivation
import RecordBridge.Proofs.Descriptor.Supported
import RecordBridge.Proofs.Header.Clean
import RecordBridge.Proofs.Plugin.Parameters

/-!
# Every request is answered

A request whose parameter and names hold no line feed is answered by a file or by an error, and never
breaks (`respond_answers`). The file holds the lines of the generator, one by one, and the error is never
that a package is not known: all named types come from the files of the request.
-/

namespace RecordBridge

namespace PluginRequest

/-! ## Contents -/

/-- The content of a file is cut into its lines, with nothing after the last one. -/
theorem split_content {lines : List String} (hne : lines ≠ []) (h : ∀ line ∈ lines, IsSingle line) :
    Text.split '\n' (content lines) = lines ++ [""] := by
  have hsingle : ∀ piece ∈ lines.map String.toList ++ [[]], '\n' ∉ piece := by
    rw [List.forall_mem_append, List.forall_mem_singleton]
    refine ⟨fun piece hpiece => ?_, List.not_mem_nil⟩
    obtain ⟨line, hline, rfl⟩ := List.mem_map.mp hpiece
    exact h line hline
  have hcontent : (content lines).toList =
      List.intercalate ['\n'] (lines.map String.toList ++ [[]]) := by
    rw [content, String.toList_append, String.toList_intercalate,
      ← Text.intercalate_append_mark (by simpa using hne)]
    rfl
  rw [Text.split, hcontent, Text.splitWhere_intercalate (by simp) hsingle]
  simp

/-! ## Errors of parameters -/

section Parameters

variable {p : Parameters} {e : PluginError} {snakeCase : String → String}

theorem isEarly_of_target (h : p.target = .error e) : e.IsEarly := by
  rw [Parameters.target] at h
  split at h
  · cases h
  · cases h
    trivial

theorem isEarly_of_source (h : p.source = .error e) : e.IsEarly := by
  rw [Parameters.source] at h
  split at h
  · cases h
  · cases h
    trivial

theorem isEarly_of_outputName (h : p.outputName snakeCase = .error e) : e.IsEarly := by
  rw [Parameters.outputName] at h
  split at h
  · cases h
  · cases htarget : p.target with
    | error e' =>
      rw [htarget] at h
      cases h
      exact isEarly_of_target htarget
    | ok name =>
      rw [htarget] at h
      cases h

/-- All that can be wrong with a piece is an error of parameters. -/
theorem isEarly_of_readPiece {piece : String} (h : Piece.read piece = .error e) : e.IsEarly := by
  unfold Piece.read at h
  split at h
  · cases h
    trivial
  · split at h
    · cases h
    · cases h
      trivial
  · cases h
  · cases h
  · cases h
  · split at h
    · cases h
    · cases h
      trivial
  · cases h
  · cases h
    trivial

/-- So is what is wrong with the whole parameter: it is what is wrong with a piece. -/
theorem isEarly_of_read {s : String} (h : Parameters.read s = .error e) : e.IsEarly := by
  rw [Parameters.read] at h
  cases hmap : (Parameters.pieces s).mapM Piece.read with
  | error e' =>
    rw [hmap] at h
    cases h
    obtain ⟨_, piece, _, -, -, hpiece⟩ := mapM_eq_error_iff.mp hmap
    exact isEarly_of_readPiece hpiece
  | ok ps =>
    rw [hmap] at h
    cases h

end Parameters

/-! ## Runs -/

/-- A result that is an early error, single lines, or an error that is no unknown package. -/
def IsCleanRun : Except PluginError Outcome → Prop
  | .error e => e.IsEarly
  | .ok outcome => (∃ lines, outcome = .lines lines ∧ ∀ line ∈ lines, IsSingle line) ∨
      ∃ cause, outcome = .failed cause ∧ ∀ name reason, cause ≠ .unresolvedPackage name reason

section Runs

variable {files : List FileDescriptor} (hfiles : ∀ f ∈ files, f.IsSingle) {p : Parameters}
  (hp : p.IsSingle)

include hfiles hp

/-- A run: the target is lowered, then the source in what this has left, and then a generator is clean on
supported records. -/
theorem run_clean : IsCleanRun (run (.ofFiles files) p) := by
  have hempty : Schema.Supported (Registry.ofFiles files).package {} :=
    fun _ h => absurd h List.not_mem_nil
  unfold run
  cases htarget : p.target with
  | error e => exact isEarly_of_target htarget
  | ok name =>
    simp only [Bind.bind, Except.bind]
    rcases hlower : (Registry.ofFiles files).lower name {} with ⟨result, lowered⟩
    obtain ⟨hlowered, hearly⟩ := Lowering.lower_supported hfiles hempty hlower
    cases result with
    | error e => exact hearly e rfl
    | ok target =>
      have htargets := hlowered target rfl
      dsimp only
      split
      · cases hsource : p.source with
        | error e => exact isEarly_of_source hsource
        | ok name =>
          dsimp only
          rcases hlower : (Registry.ofFiles files).lower name lowered with ⟨result, lowered'⟩
          obtain ⟨hlowered', hearly⟩ := Lowering.lower_supported hfiles htargets hlower
          cases result with
          | error e => exact hearly e rfl
          | ok source =>
            -- Lowering the source keeps what the target needs, so both are resolved in the last schema.
            have hschema := hlowered' source rfl
            have hresolved := hschema.resolved
            exact ConversionRequest.run_clean
              ⟨hresolved, hresolved source trivial, hresolved target trivial⟩
      · exact BindingRequest.run_clean ⟨htargets, htargets.fields target, hp⟩

end Runs

/-! ## Replies -/

/-- A reply is a file with single lines, or an error that is no unknown package. -/
theorem reply_clean {r : PluginRequest} (snakeCase : String → String)
    (hfiles : ∀ f ∈ r.files, f.IsSingle) {p : Parameters} (hp : p.IsSingle) :
    (∃ lines name, run (.ofFiles r.files) p = .ok (.lines lines) ∧
        r.reply snakeCase p = .ok (.answered { files := [⟨name, content lines⟩] }) ∧
        ∀ line ∈ lines, IsSingle line) ∨
      ∃ e, r.reply snakeCase p = .error e ∧
        ∀ name reason, e ≠ .generation (.unresolvedPackage name reason) := by
  have hearly : ∀ {e : PluginError}, e.IsEarly →
      ∀ name reason, e ≠ .generation (.unresolvedPackage name reason) := by
    rintro _ he name reason rfl
    exact he
  have hclean := run_clean hfiles hp
  unfold reply
  cases hrun : run (.ofFiles r.files) p with
  | error e =>
    rw [hrun] at hclean
    exact .inr ⟨e, rfl, hearly hclean⟩
  | ok outcome =>
    rw [hrun] at hclean
    -- Lines need a name for the file, which may be missing; a failure is passed on.
    rcases hclean with ⟨lines, rfl, hsingle⟩ | ⟨cause, rfl, hcause⟩
    · cases hname : p.outputName snakeCase with
      | error e => exact .inr ⟨e, rfl, hearly (isEarly_of_outputName hname)⟩
      | ok name => exact .inl ⟨lines, name, rfl, rfl, hsingle⟩
    · refine .inr ⟨.generation cause, rfl, fun name reason heq => ?_⟩
      exact hcause name reason (PluginError.generation.inj heq)

/-- **Every request is answered** by one file, whose content is cut into the lines of the generator, or
by an error that is no unknown package, however names are put into snake case. The two things that
generators take for granted of types hold too: no alias is left at the root of a type, and the type of a
record is a named one. -/
theorem respond_answers (r : PluginRequest) (snakeCase : String → String)
    (hparameter : IsSingle r.parameter) (hfiles : ∀ f ∈ r.files, f.IsSingle) :
    ((∃ p lines name, Parameters.read r.parameter = .ok p ∧
        run (.ofFiles r.files) p = .ok (.lines lines) ∧
        r.respond snakeCase = .answered { error := none, files := [⟨name, content lines⟩] } ∧
        (lines ≠ [] → Text.split '\n' (content lines) = lines ++ [""])) ∨
      ∃ e, (Parameters.read r.parameter >>= r.reply snakeCase) = .error e ∧
        r.respond snakeCase = .answered { error := some e.message, files := [] } ∧
        ∀ name reason, e ≠ .generation (.unresolvedPackage name reason)) ∧
    ∀ t : FieldType, (∀ name file target, t.root ≠ .alias name file target) ∧
      ∀ ref, t.record? = some ref → ∀ resolve name,
        t.root.ownType resolve ≠ .error (.broke (.unnamedType name)) := by
  refine ⟨?_, fun t => ⟨t.root_ne_alias, fun ref href resolve name => ?_⟩⟩
  · have hanswer : ∀ {reply}, (Parameters.read r.parameter >>= r.reply snakeCase) = .ok reply →
        r.respond snakeCase = reply := by
      intro reply hreply
      rw [respond, hreply]
    -- A reply is the response; an error is worded in one.
    have herror : ∀ {e}, (Parameters.read r.parameter >>= r.reply snakeCase) = .error e →
        r.respond snakeCase = .answered { error := some e.message, files := [] } := by
      intro e he
      rw [respond, he]
    cases hread : Parameters.read r.parameter with
    | error e =>
      rw [hread] at herror
      refine .inr ⟨e, rfl, herror rfl, ?_⟩
      rintro name reason rfl
      exact isEarly_of_read hread
    | ok p =>
      rw [hread] at hanswer herror
      have hp := Parameters.isSingle_of_read hparameter hread
      rcases reply_clean snakeCase hfiles hp with ⟨lines, name, hrun, hreply, hsingle⟩ | ⟨e, hreply, he⟩
      · exact .inl ⟨p, lines, name, rfl, hrun, hanswer hreply, fun hne => split_content hne hsingle⟩
      · exact .inr ⟨e, hreply, herror hreply, he⟩
  · rw [FieldType.root_of_record href, FieldType.ownType]
    cases namedType resolve ref.name ref.file <;> exact nofun

/-- The user of a session is filled from a header. -/
def sessionRequest : PluginRequest where
  parameter := "mode=populate,to=Session,map=user=x-user"
  files :=
    [{ name := "session.proto", package := "", syntaxName := "proto3", goPackage := "", enums := []
       messages :=
        [.mk "Session" [⟨"user", 1, .optional, .string, "", false, false⟩] [] [] false] }]

/-- The reply is a file with the lines of the populator. -/
theorem sessionRequest_answered : ∃ lines name, lines ≠ [] ∧
    sessionRequest.respond = .answered { error := none, files := [⟨name, content lines⟩] } ∧
    Text.split '\n' (content lines) = lines ++ [""] := by
  have hfiles : ∀ f ∈ sessionRequest.files, f.IsSingle :=
    List.forall_mem_singleton.mpr (FileDescriptor.isSingle_of_listed nofun (by decide +kernel))
  have hfile : sessionRequest.respond = .answered { files := [⟨"session_populate.go.txt",
      "if key, ok := headers.Get(\"x-user\"); ok \x7b\n\tif in.user != \"\" \x7b\n\t\tin.user = key\n\t\x7d\n\x7d\n"⟩] } := by
    decide +kernel
  rcases (respond_answers sessionRequest snake (by decide +kernel) hfiles).1 with
    ⟨p, lines, name, -, -, hrespond, hsplit⟩ | ⟨e, -, hrespond, -⟩
  · have hne : lines ≠ [] := by
      rintro rfl
      rw [hrespond] at hfile
      exact absurd hfile (by simp [content])
    exact ⟨lines, name, hne, hrespond, hsplit hne⟩
  · rw [hrespond] at hfile
    exact absurd hfile (by simp)

end PluginRequest

end RecordBridge
