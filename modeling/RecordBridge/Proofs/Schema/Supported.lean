import RecordBridge.Proofs.Schema.Within
import RecordBridge.Proofs.SingleLine

/-!
# Supported types

A field type is resolved if the packages of all named types in it are known and its names hold no line
feed. It then has a Go type, which is spelled in a single line (`FieldType.Resolved.goType`). A set of
known records tells which records may occur in it. A type is supported if it is resolved, whatever its
records, and no single byte.
-/

namespace RecordBridge

variable {resolve : Resolver}

/-- A named type is declared in a file whose package is known; neither name holds a line feed. -/
def NameSupported (resolve : Resolver) (name file : String) : Prop :=
  IsSingle name ∧ ∃ package, resolve file = .ok package ∧ IsSingle package

/-- A name in a file with a known package has a Go type, spelled in one line. -/
theorem NameSupported.namedType {name file : String} (h : NameSupported resolve name file) :
    ∃ go, namedType resolve name file = .ok go ∧ IsSingle go.text := by
  obtain ⟨hname, package, hpackage, hsingle⟩ := h
  refine ⟨.named package (pascal name), ?_, GoType.isSingle_named.mpr ⟨hsingle, hname.pascal⟩⟩
  rw [RecordBridge.namedType, hpackage]

namespace FieldType

/-- A type as it is held in fields and elements differs by a pointer at most. -/
theorem isSingle_held {go : GoType} (t : FieldType) (h : IsSingle go.text) :
    IsSingle (t.held go).text := by
  unfold held
  split
  · exact GoType.isSingle_pointer.mpr h
  · exact h

/-- All named types in a type have packages, and its records are known. -/
def Resolved (resolve : Resolver) (known : RecordRef → Prop) : FieldType → Prop
  | .enum name file => NameSupported resolve name file
  | .alias name file target => NameSupported resolve name file ∧ target.Resolved resolve known
  | .record ref => NameSupported resolve ref.name ref.file ∧ known ref
  | .list element | .set element _ => element.Resolved resolve known
  | .map key value => key.Resolved resolve known ∧ value.Resolved resolve known
  | .bool | .int8 | .int16 | .int32 | .int64 | .double | .text | .binary => True

namespace Resolved

variable {known : RecordRef → Prop} {t : FieldType}

/-- What is behind the aliases of a resolved type is resolved. -/
theorem root (h : t.Resolved resolve known) : t.root.Resolved resolve known := by
  induction t with
  | «alias» name file target ih => exact ih h.2
  | _ => exact h

/-- The record of a resolved type has a package and is known. -/
theorem record? (h : t.Resolved resolve known) {ref : RecordRef} (href : t.record? = some ref) :
    NameSupported resolve ref.name ref.file ∧ known ref := by
  have hroot := h.root
  rw [FieldType.record?] at href
  split at href
  · rename_i heq
    cases href
    rwa [heq] at hroot
  · cases href

/-- A resolved type has a Go type. -/
theorem goType (h : t.Resolved resolve known) :
    ∃ go, t.goType resolve = .ok go ∧ IsSingle go.text := by
  induction t with
  | bool | int8 | int16 | int32 | int64 | double | text | binary => exact ⟨_, rfl, by decide⟩
  | enum name file => exact h.namedType
  | «alias» name file target => exact h.1.namedType
  | record ref => exact h.1.namedType
  | list element ih =>
    -- Containers have a Go type if what they hold has one; it is spelled around the types that are held.
    obtain ⟨go, hgo, hsingle⟩ := ih h
    refine ⟨.slice (element.held go), ?_, GoType.isSingle_slice.mpr (isSingle_held _ hsingle)⟩
    rw [FieldType.goType, hgo]
    rfl
  | set element form ih =>
    obtain ⟨go, hgo, hsingle⟩ := ih h
    rw [FieldType.goType, hgo]
    dsimp only [Bind.bind, Except.bind]
    split
    · exact ⟨_, rfl, GoType.isSingle_keySet.mpr (isSingle_held _ hsingle)⟩
    · exact ⟨_, rfl, GoType.isSingle_slice.mpr (isSingle_held _ hsingle)⟩
  | map key value ihkey ihvalue =>
    obtain ⟨goKey, hgoKey, hkey⟩ := ihkey h.1
    obtain ⟨goValue, hgoValue, hvalue⟩ := ihvalue h.2
    have hsingle := And.intro (key.isSingle_held hkey) (value.isSingle_held hvalue)
    rw [FieldType.goType, hgoKey, hgoValue]
    dsimp only [Bind.bind, Except.bind]
    split
    · exact ⟨_, rfl, GoType.isSingle_map.mpr hsingle⟩
    · exact ⟨_, rfl, GoType.isSingle_pairs.mpr hsingle⟩

/-- A type that is resolved can be held, too. -/
theorem heldType (h : t.Resolved resolve known) :
    ∃ go, t.heldType resolve = .ok go ∧ IsSingle go.text := by
  obtain ⟨go, hgo, hsingle⟩ := h.goType
  refine ⟨t.held go, ?_, isSingle_held _ hsingle⟩
  rw [FieldType.heldType, hgo]
  rfl

end Resolved

/-- All named types in a type have packages, and it is no single byte. -/
def Supported (resolve : Resolver) : FieldType → Prop
  | .int8 => False
  | .enum name file => NameSupported resolve name file
  | .alias name file target => NameSupported resolve name file ∧ target.Supported resolve
  | .record ref => NameSupported resolve ref.name ref.file
  | .list element | .set element _ => element.Supported resolve
  | .map key value => key.Supported resolve ∧ value.Supported resolve
  | .bool | .int16 | .int32 | .int64 | .double | .text | .binary => True

/-- A supported type is resolved, whatever records are known. -/
theorem Supported.resolved {t : FieldType} (h : t.Supported resolve) :
    t.Resolved resolve fun _ => True := by
  induction t with
  | «alias» name file target ih => exact ⟨h.1, ih h.2⟩
  | record ref => exact ⟨h, trivial⟩
  | list element ih | set element form ih => exact ih h
  | map key value ihkey ihvalue => exact ⟨ihkey h.1, ihvalue h.2⟩
  | enum name file => exact h
  | _ => trivial

end FieldType

/-- The name of a field holds no line feed, and its type is resolved. -/
structure Field.Resolved (resolve : Resolver) (known : RecordRef → Prop) (f : Field) : Prop where
  name : IsSingle f.name
  type : f.type.Resolved resolve known

/-- The name of a field holds no line feed, and its type is supported. -/
structure Field.Supported (resolve : Resolver) (f : Field) : Prop where
  name : IsSingle f.name
  type : f.type.Supported resolve

/-- Supported fields are resolved, whichever records are known. -/
theorem Field.Supported.resolved {f : Field} (h : f.Supported resolve) :
    f.Resolved resolve fun _ => True :=
  ⟨h.name, h.type.resolved⟩

/-- The fields of all known records are resolved. -/
def Schema.Resolved (resolve : Resolver) (known : RecordRef → Prop) (s : Schema) : Prop :=
  ∀ ref, known ref → ∀ f ∈ s.fields ref, f.Resolved resolve known

/-- All fields that a schema tells are supported. -/
def Schema.Supported (resolve : Resolver) (s : Schema) : Prop :=
  ∀ entry ∈ s.records, ∀ f ∈ entry.2, f.Supported resolve

/-- The fields of every record of a supported schema are supported. -/
theorem Schema.Supported.fields {s : Schema} (h : s.Supported resolve) (ref : RecordRef) :
    ∀ f ∈ s.fields ref, f.Supported resolve :=
  Schema.fields_of_records (P := fun fields => ∀ f ∈ fields, f.Supported resolve)
    (fun _ hf => absurd hf List.not_mem_nil) h ref

/-- So all of its records are resolved. -/
theorem Schema.Supported.resolved {s : Schema} (h : s.Supported resolve) :
    s.Resolved resolve fun _ => True :=
  fun ref _ f hf => (h.fields ref f hf).resolved

end RecordBridge
