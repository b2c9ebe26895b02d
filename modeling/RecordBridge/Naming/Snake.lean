import RecordBridge.Text.Alphabetic
import RecordBridge.Text.CaseMapping
import RecordBridge.Text.Split

/-!
# Snake case

Words in lower case joined by underscores. A word ends before a capital that follows a lowercase
letter, and before the last of a run of capitals if a lowercase letter follows it: `HTTPServer` has
the words `http` and `server`.
-/

namespace RecordBridge

open Text

/-- The case of the letters read last within a word. -/
inductive LetterMode where
  | start
  | lowercase
  | uppercase
  deriving DecidableEq, Repr

/-- The mode after a character; digits and uncased letters leave it. -/
def LetterMode.next (mode : LetterMode) (c : Char) : LetterMode :=
  if isLowercase c then .lowercase else if isUppercase c then .uppercase else mode

/-- The words of a run of letters and digits, of whose first word `word` has been read. -/
def caseWords (mode : LetterMode) (word : List Char) : List Char → List (List Char)
  | [] => []
  | [c] => [word ++ [c]]
  | c :: d :: rest =>
    if mode.next c = .lowercase && isUppercase d then
      (word ++ [c]) :: caseWords .start [] (d :: rest)
    else if mode = .uppercase && isUppercase c && isLowercase d then
      word :: caseWords .start [c] (d :: rest)
    else caseWords (mode.next c) (word ++ [c]) (d :: rest)

/-- A word in lower case; a sigma that ends it takes its final form. -/
def lowerWord : List Char → List Char
  | [] => []
  | ['Σ'] => ['ς']
  | c :: rest => lowerChar c ++ lowerWord rest

/-- A name in snake case. -/
def snake (name : String) : String :=
  let words := (splitWhere (fun c => !isAlphanumeric c) name.toList).flatMap (caseWords .start [])
  String.ofList (List.intercalate ['_'] (words.map lowerWord))

end RecordBridge
