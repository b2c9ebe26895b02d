/-!
# Cutting texts

Cutting a text at separators. There is always one piece more than there are separators, so the empty
text has one empty piece.
-/

namespace RecordBridge.Text

/-- The pieces between the characters that are separators. -/
def splitWhere (isSeparator : Char → Bool) : List Char → List (List Char)
  | [] => [[]]
  | c :: rest =>
    if isSeparator c then [] :: splitWhere isSeparator rest
    else match splitWhere isSeparator rest with
      | [] => [[c]]
      | piece :: pieces => (c :: piece) :: pieces

/-- The runs of characters of a class, in order; what lies between them is dropped. -/
def runs (inClass : Char → Bool) (s : List Char) : List (List Char) :=
  (splitWhere (fun c => !inClass c) s).filter (fun piece => !piece.isEmpty)

/-- The pieces between the occurrences of one character. -/
def split (separator : Char) (s : String) : List String :=
  (splitWhere (· == separator) s.toList).map String.ofList

/-- What stands before and after the first occurrence of a character, if it occurs. -/
def cutFirst (separator : Char) : List Char → Option (List Char × List Char)
  | [] => none
  | c :: rest =>
    if c = separator then some ([], rest)
    else (cutFirst separator rest).map fun (before, after) => (c :: before, after)

/-- What stands before and after the last occurrence of a character, if it occurs. -/
def cutLast (separator : Char) : List Char → Option (List Char × List Char)
  | [] => none
  | c :: rest =>
    match cutLast separator rest with
    | some (before, after) => some (c :: before, after)
    | none => if c = separator then some ([], rest) else none

/-- What follows the last occurrence of a character, or all of the text. -/
def afterLast (separator : Char) (s : String) : String :=
  match cutLast separator s.toList with
  | some (_, after) => String.ofList after
  | none => s

/-- What follows `start` in a list that begins with it. -/
def afterStart? : List Char → List Char → Option (List Char)
  | [], s => some s
  | _ :: _, [] => none
  | p :: start, c :: s => if p = c then afterStart? start s else none

/-- The rest of a text that begins with `start`. -/
def dropStart? (start s : String) : Option String :=
  (afterStart? start.toList s.toList).map String.ofList

/-- The rest of a text that ends with `ending`. -/
def dropEnd? (ending s : String) : Option String :=
  (afterStart? ending.toList.reverse s.toList.reverse).map fun rest => String.ofList rest.reverse

/-- Whether a text begins with `start` and goes on with one of some characters. -/
def goesOnWith (marks : List Char) (start s : String) : Bool :=
  match afterStart? start.toList s.toList with
  | some (c :: _) => marks.contains c
  | _ => false

/-- Whether a text begins with `start`. -/
def startsWith (start s : String) : Bool :=
  start.toList.isPrefixOf s.toList

end RecordBridge.Text
