import RecordBridge.Place

/-!
# Statements of a conversion

The Go statements that fill a target record `out` from a source record `in`.
-/

namespace RecordBridge

/-- How the value of a source field becomes that of a target field. -/
inductive Cast where
  /-- A value becomes a value of another type. -/
  | plain (type : GoType)
  /-- A value becomes a pointer. -/
  | address (type : GoType)
  /-- A pointer becomes the value that it points to. -/
  | load
  /-- A pointer becomes a pointer to another type. -/
  | pointer (type : GoType)
  /-- Bytes become bytes, also absent ones. -/
  | bytes (type : GoType)
  deriving DecidableEq, Repr

namespace Cast

/-- The spelling of a cast applied to an expression. -/
def text (c : Cast) (x : String) : String :=
  match c with
  | .plain type | .bytes type => type.text ++ "(" ++ x ++ ")"
  | .address type => "(*" ++ type.text ++ ")(&(" ++ x ++ "))"
  | .load => "*(" ++ x ++ ")"
  | .pointer type => "(*" ++ type.text ++ ")(" ++ x ++ ")"

/-- Whether an absent source is as good as any other. -/
def acceptsAbsent : Cast → Bool
  | .bytes _ => true
  | _ => false

/-- The cast between fields that are required or not. -/
def forPresence (type : GoType) (sourceRequired targetRequired : Bool) : Cast :=
  match sourceRequired, targetRequired with
  | true, true => .plain type
  | true, false => .address type
  | false, true => .load
  | false, false => .pointer type

end Cast

/-- The right side of an assignment. -/
inductive Expr where
  | absent
  | flag (on : Bool)
  /-- The mark of a key that is in a set. -/
  | present
  | read (source : Place)
  | newRecord (type : GoType)
  | convert (cast : Cast) (source : Place)
  | call (helper : Var) (source : Place)
  /-- A container made for as many elements as another one holds. -/
  | make (type : GoType) (source : Place)
  /-- An empty slice with room for as many elements as another container holds. -/
  | makeRoom (type : GoType) (source : Place)
  /-- A slice with one more element, converted to its type. -/
  | append (target : Place) (type : GoType) (v : Var)
  deriving DecidableEq, Repr

/-- The spelling of an expression. -/
def Expr.text : Expr → String
  | .absent => "nil"
  | .flag true => "true"
  | .flag false => "false"
  | .present => "struct\x7b\x7d\x7b\x7d"
  | .read source => source.text
  | .newRecord type => "&" ++ type.text ++ "\x7b\x7d"
  | .convert cast source => cast.text source.text
  | .call helper source => helper.text ++ "(" ++ source.text ++ ")"
  | .make type source => "make(" ++ type.text ++ ", len(" ++ source.text ++ "))"
  | .makeRoom type source => "make(" ++ type.text ++ ", 0, len(" ++ source.text ++ "))"
  | .append target type v =>
    "append(" ++ target.text ++ ", " ++ type.text ++ "(" ++ v.text ++ "))"

/-- A local function from a source to a target record. -/
structure HelperSignature where
  name : Var
  source : GoType
  target : GoType
  deriving DecidableEq, Repr

/-- The spelling of the type of a local function. -/
def HelperSignature.text (h : HelperSignature) : String :=
  "func(in *" ++ h.source.text ++ ") (out *" ++ h.target.text ++ ")"

/-- A simple statement of a conversion. -/
inductive Statement where
  /-- Gives a variable a second name that inner functions do not hide. -/
  | keep (name known : Var)
  | assign (target : Place) (value : Expr)
  | define (v : Var) (value : Expr)
  | declare (helper : HelperSignature)
  | giveBack
  deriving DecidableEq, Repr

/-- The spelling of a simple statement. -/
def Statement.text : Statement → String
  | .keep name known => name.text ++ " := " ++ known.text ++ "; _ = " ++ name.text
  | .assign target value => target.text ++ " = " ++ value.text
  | .define v value => v.text ++ " := " ++ value.text
  | .declare helper => "var " ++ helper.name.text ++ " " ++ helper.text
  | .giveBack => "return"

instance : Spelled Statement :=
  ⟨Statement.text⟩

/-- The head of a statement with a block. -/
inductive Head where
  /-- Runs its block if all places are set; each is tested after those before it. -/
  | ifSet (places : List Place)
  | ifUnset (place : Place)
  | ifFlag (v : Var)
  /-- Runs over the elements of a container with their indices or keys. -/
  | each (position value : Var) (source : Place)
  | eachKey (v : Var) (source : Place)
  | eachValue (v : Var) (source : Place)
  /-- The body of a local function. -/
  | helperBody (helper : HelperSignature)
  deriving DecidableEq, Repr

/-- The spelling of a head. -/
def Head.text : Head → String
  | .ifSet places =>
    "if " ++ String.intercalate " && " (places.map fun p => p.text ++ " != nil")
  | .ifUnset place => "if " ++ place.text ++ " == nil"
  | .ifFlag v => "if " ++ v.text
  | .each position value source =>
    "for " ++ position.text ++ ", " ++ value.text ++ " := range " ++ source.text
  | .eachKey v source => "for " ++ v.text ++ " := range " ++ source.text
  | .eachValue v source => "for _, " ++ v.text ++ " := range " ++ source.text
  | .helperBody helper => helper.name.text ++ " = " ++ helper.text

instance : Spelled Head :=
  ⟨Head.text⟩

/-- The statements of a conversion. -/
abbrev Code := Block Statement Head

end RecordBridge
