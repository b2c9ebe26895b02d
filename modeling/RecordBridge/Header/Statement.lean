import RecordBridge.Place

/-!
# Statements that use headers

The Go statements that look a header up and write its value into a field.
-/

namespace RecordBridge

/-- A variable that holds the value of a header. -/
inductive HeaderVar where
  /-- The text of a header that was looked up. -/
  | text
  /-- The number or truth value that the text spells. -/
  | parsed
  /-- The value in the type of its field. -/
  | converted
  /-- The text of a header of a request, under a name made from that of the header. -/
  | named (name : String)
  deriving DecidableEq, Repr

/-- The spelling of a header variable. -/
def HeaderVar.spelling : HeaderVar → String
  | .text => "key"
  | .parsed => "v"
  | .converted => "val"
  | .named name => name

/-- What a header text may spell. -/
inductive Literal where
  | bool
  | int (bits : Nat)
  | float
  deriving DecidableEq, Repr

/-- The call that reads a literal from a text. -/
def Literal.call (l : Literal) (x : String) : String :=
  match l with
  | .bool => "strconv.ParseBool(" ++ x ++ ")"
  | .int bits => "strconv.ParseInt(" ++ x ++ ", 10, " ++ toString bits ++ ")"
  | .float => "strconv.ParseFloat(" ++ x ++ ", 64)"

/-- A simple statement. -/
inductive HeaderStatement where
  | allocate (place : Place) (type : GoType)
  /-- Writes a variable, or its address, to a place. -/
  | store (place : Place) (v : HeaderVar) (byAddress : Bool)
  | storeAs (place : Place) (type : GoType) (v : HeaderVar)
  /-- Holds a value in another type. -/
  | convert (type : GoType) (v : HeaderVar)
  /-- Looks up a header of the request. -/
  | fetch (v : HeaderVar) (header : String)
  /-- Looks up a header of the request and keeps whether it is there. -/
  | fetchTested (v : HeaderVar) (header : String)
  deriving DecidableEq, Repr

/-- The variable that tells whether a header is there. -/
def HeaderVar.presence (v : HeaderVar) : String :=
  v.spelling ++ "Exists"

/-- The spelling of a simple statement. -/
def HeaderStatement.text : HeaderStatement → String
  | .allocate place type => place.text ++ " = &" ++ type.text ++ "\x7b\x7d"
  | .store place v byAddress => place.text ++ " = " ++ (if byAddress then "&" else "") ++ v.spelling
  | .storeAs place type v => place.text ++ " = " ++ type.text ++ "(" ++ v.spelling ++ ")"
  | .convert type v =>
    HeaderVar.converted.spelling ++ " := " ++ type.text ++ "(" ++ v.spelling ++ ")"
  | .fetch v header => v.spelling ++ ", _ := req.Header.Get(\"" ++ header ++ "\")"
  | .fetchTested v header =>
    v.spelling ++ ", " ++ v.presence ++ " := req.Header.Get(\"" ++ header ++ "\")"

instance : Spelled HeaderStatement :=
  ⟨HeaderStatement.text⟩

/-- The head of a statement with a block. -/
inductive HeaderHead where
  /-- Looks up a header and runs its block if it is there. -/
  | ifHeader (header : String)
  | ifUnset (place : Place)
  | ifNotEmpty (place : Place)
  /-- Runs its block if a header of the request is there. -/
  | ifExists (v : HeaderVar)
  /-- Runs its block if a text spells a literal. -/
  | ifParsed (literal : Literal) (v : HeaderVar)
  deriving DecidableEq, Repr

/-- The spelling of a head. -/
def HeaderHead.text : HeaderHead → String
  | .ifHeader header => "if key, ok := headers.Get(\"" ++ header ++ "\"); ok"
  | .ifUnset place => "if " ++ place.text ++ " == nil"
  | .ifNotEmpty place => "if " ++ place.text ++ " != \"\""
  | .ifExists v => "if " ++ v.presence
  | .ifParsed literal v => "if v, err := " ++ literal.call v.spelling ++ "; err == nil"

instance : Spelled HeaderHead :=
  ⟨HeaderHead.text⟩

/-- Statements that use headers. -/
abbrev HeaderCode := Block HeaderStatement HeaderHead

end RecordBridge
