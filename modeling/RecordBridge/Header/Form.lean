import RecordBridge.Draft
import RecordBridge.Header.Statement

/-!
# Header values

How the text of a header becomes the value of a field, and the statements that write it.
-/

namespace RecordBridge

/-- How the text of a header becomes the value of a field. -/
inductive HeaderForm where
  /-- As it is. -/
  | plain
  /-- Converted to a named type. -/
  | named (type : GoType)
  /-- By reading a literal. A text that spells none is passed over. -/
  | literal (l : Literal)
  deriving DecidableEq, Repr

/-- Writes statements that use headers, with a state in `σ`. -/
abbrev HeaderWriting (σ : Type) := Draft HeaderStatement HeaderHead σ

/-- The form of header values for a field of a type, if a header can hold them. -/
def headerForm {σ : Type} (resolve : Resolver) (type : FieldType) :
    HeaderWriting σ (Option HeaderForm) :=
  match type with
  | .text => return some .plain
  | .bool => return some (.literal .bool)
  | .int16 => return some (.literal (.int 16))
  | .int32 => return some (.literal (.int 32))
  | .int64 => return some (.literal (.int 64))
  | .double => return some (.literal .float)
  | .int8 => Draft.stop (.broke .byteHeader)
  | .enum _ _ => return some (.named (← Draft.ofExcept (type.goType resolve)))
  | .alias _ _ _ =>
    if type.isText then return some (.named (← Draft.ofExcept (type.goType resolve)))
    else return none
  | _ => return none

/-- The form of header values for a field, which must be able to hold the header. -/
def formFor {σ : Type} (resolve : Resolver) (header : String) (field : Field) :
    HeaderWriting σ HeaderForm := do
  match ← headerForm resolve field.type with
  | some form => return form
  | none => Draft.fail (.headerTarget header field.name)

/-- The statements that write the header text in `v` to a place. An optional field holds an
address. -/
def HeaderForm.store (form : HeaderForm) (place : Place) (v : HeaderVar) (required : Bool) :
    HeaderCode :=
  match form with
  | .plain => .ofList [.store place v (!required)]
  | .named type =>
    if required then .ofList [.storeAs place type v]
    else .ofList [.convert type v, .store place .converted true]
  | .literal l =>
    .nest (.ifParsed l v)
      (.ofList <| match l with
        | .int 16 => [.convert .int16 .parsed, .store place .converted (!required)]
        | .int 32 => [.convert .int32 .parsed, .store place .converted (!required)]
        | _ => [.store place .parsed (!required)])
      .done

end RecordBridge
