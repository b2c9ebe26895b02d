import RecordBridge.Text.LetterCase

/-!
# Case mapping of texts

Upper and lower case of whole texts. Uppercase works character by character. Lowercase does so too,
except for the capital sigma, which has a form of its own at the end of a word.
-/

namespace RecordBridge.Text

/-- Every character in upper case. -/
def upper (s : List Char) : List Char :=
  s.flatMap upperChar

/-- Whether the nearest character that is not ignorable is cased. -/
def meetsCased (s : List Char) : Bool :=
  match s.dropWhile isCaseIgnorable with
  | [] => false
  | c :: _ => isCased c

/-- The lowercase form of a capital sigma: `ς` after a letter and not before one, else `σ`.
`before` holds the characters on its left, nearest first. -/
def lowerSigma (before after : List Char) : Char :=
  if meetsCased before && !meetsCased after then 'ς' else 'σ'

/-- Lower case of `s`, where `before` holds the characters on its left, nearest first. -/
def lowerAfter (before : List Char) : List Char → List Char
  | [] => []
  | c :: rest =>
    (if c = 'Σ' then [lowerSigma before rest] else lowerChar c) ++ lowerAfter (c :: before) rest

/-- Every character in lower case, with a final sigma at the end of a word. -/
def lower (s : List Char) : List Char :=
  lowerAfter [] s

/-- The first character in upper case, the rest as it is. -/
def upperFirst : List Char → List Char
  | [] => []
  | c :: rest => upperChar c ++ rest

/-- The first character in lower case, the rest as it is. -/
def lowerFirst : List Char → List Char
  | [] => []
  | c :: rest => lowerChar c ++ rest

/-- Whether two texts agree up to the case of their ASCII letters. -/
def sameIgnoringCase (a b : String) : Bool :=
  a.toList.map Char.toLower == b.toList.map Char.toLower

end RecordBridge.Text
