import RecordBridge.GoType
import RecordBridge.Block

/-!
# Places

A place is a Go expression that names storage: a local variable followed by selectors and indices.
Paths are the selectors and indices alone.

Names are spelled as they are, whatever characters they hold. A dot in a name separates two
selectors, and a name that ends in a bracket counts as an element that is taken.
-/

namespace RecordBridge

/-- A variable of the generated code. Those with a number are declared by the code itself. -/
inductive Var where
  | input
  | wholeInput
  | output
  | wholeOutput
  | requestBody
  | index (n : Nat)
  | key (n : Nat)
  | value (n : Nat)
  | sourceList (n : Nat)
  | overridden (n : Nat)
  /-- A local function that converts into a record type of the given Go name. -/
  | helper (record : String) (n : Nat)
  deriving DecidableEq, Repr, Inhabited

/-- The spelling of a variable. -/
def Var.text : Var → String
  | .input => "in"
  | .wholeInput => "inOriginal"
  | .output => "out"
  | .wholeOutput => "outOriginal"
  | .requestBody => "requestBody"
  | .index n => "index" ++ toString n
  | .key n => "key" ++ toString n
  | .value n => "value" ++ toString n
  | .sourceList n => "sourceList" ++ toString n
  | .overridden n => "isOverridden" ++ toString n
  | .helper record n => "convert" ++ record ++ "Helper" ++ toString n

/-- One selector or index. -/
inductive Step where
  | field (name : String)
  | index (v : Var)
  /-- An index converted to the key type of a map. -/
  | keyAs (type : GoType) (v : Var)
  deriving DecidableEq, Repr, Inhabited

namespace Step

/-- The spelling of a step. -/
def text : Step → String
  | .field name => "." ++ name
  | .index v => "[" ++ v.text ++ "]"
  | .keyAs type v => "[" ++ type.text ++ "(" ++ v.text ++ ")]"

/-- Whether a step selects a field. -/
def isField : Step → Bool
  | .field _ => true
  | _ => false

/-- Whether a step takes an element, by its spelling: it ends in a bracket. -/
def takesElement (s : Step) : Bool :=
  s.text.toList.getLast? == some ']'

end Step

/-- Selectors and indices in order. -/
abbrev Path := List Step

namespace Path

/-- The spelling of a path below a variable. -/
def text (p : Path) : String :=
  String.join (p.map Step.text)

/-- The spelling of a path on its own, without the dot before its first selector. -/
def bare (p : Path) : String :=
  String.ofList (p.text.toList.drop 1)

/-- The path to a field of the record at a path. A dot within a name separates two selectors. -/
def select (p : Path) (name : String) : Path :=
  p ++ (Text.split '.' name).map .field

/-- Whether a path goes on with an index. -/
def startsIndexed : Path → Bool
  | [] => false
  | step :: _ => !step.isField

/-- The fields that a path selects after `before`, each as a path from the start, the outermost
first. A container of which an element is taken is none of them. -/
def selections (before : Path) : Path → List Path
  | [] => []
  | step :: rest =>
    let here := before ++ [step]
    if !step.takesElement && !startsIndexed rest then here :: selections here rest
    else selections here rest

/-- What follows `start` in the spelling of a path, as a path, if it begins with a selector. Where
`start` ends within a step, the rest of that step is read as a selector. -/
def beneath? : (start : List Char) → Path → Option Path
  | _, [] => none
  | [], step :: rest => if step.isField then some (step :: rest) else none
  | c :: start, step :: rest =>
    match Text.afterStart? step.text.toList (c :: start) with
    | some start => beneath? start rest
    | none =>
      match Text.afterStart? (c :: start) step.text.toList with
      | some ('.' :: name) => some (.field (String.ofList name) :: rest)
      | _ => none

end Path

/-- A variable and a path below it. -/
structure Place where
  root : Var
  path : Path := []
  deriving DecidableEq, Repr, Inhabited

namespace Place

/-- The spelling of a place. -/
def text (p : Place) : String :=
  p.root.text ++ p.path.text

/-- The place of a variable. -/
def ofVar (v : Var) : Place :=
  ⟨v, []⟩

/-- A field of the record at a place. -/
def select (p : Place) (name : String) : Place :=
  { p with path := Path.select p.path name }

/-- An element of the container at a place. -/
def element (p : Place) (v : Var) : Place :=
  { p with path := p.path ++ [.index v] }

/-- The fields that a place selects on its way, each as a place, the outermost first. A container of
which an element is taken is none of them. -/
def selections (p : Place) : List Place :=
  (Path.selections [] p.path).map fun path => { p with path := path }

end Place

instance : Spelled Place :=
  ⟨Place.text⟩

end RecordBridge
