import RecordBridge.Naming.Initialism
import RecordBridge.Text.Alphabetic
import RecordBridge.Text.Split

/-!
# Go identifiers

The spelling of schema names and header names in Go: Pascal case for fields and types, camel case
for local variables, and a single lowercase word for packages.
-/

namespace RecordBridge

open Text

/-- Whether every letter is a capital; other characters do not count. -/
def allCapitals (s : List Char) : Bool :=
  s.all fun c => !isAlphabetic c || isUppercase c

/-- One word of a Pascal case name. An initialism is written in capitals. A word in capitals gets a
single capital, unless it is the whole name. Any other word gets its first letter in upper case. -/
def pascalWord (whole : Bool) (word : List Char) : List Char :=
  if isInitialism (upper word) then upper word
  else if !whole && allCapitals word then upperFirst (lower word)
  else upperFirst word

/-- A schema name in Pascal case; underscores separate its words. -/
def pascalChars (s : List Char) : List Char :=
  match splitWhere (· == '_') s with
  | [word] => pascalWord true word
  | words => words.flatMap (pascalWord false)

/-- The Go name of a field or type: its schema name in Pascal case. -/
def pascal (name : String) : String :=
  String.ofList (pascalChars name.toList)

/-- Capitals for a word that is an initialism, or for the initialism with which it begins. -/
def capitalizeInitialism (word : List Char) : List Char :=
  if isInitialism (upper word) then upper word
  else match initialismStart? (upper word) with
    | some n => (upper word).take n ++ word.drop n
    | none => word

/-- The words of a free-form name: its runs of ASCII letters and digits. -/
def asciiWords (s : List Char) : List (List Char) :=
  runs Char.isAlphanum s

/-- A free-form name in camel case: `x-request-id` becomes `xRequestID`. -/
def camelChars (s : List Char) : List Char :=
  match asciiWords s with
  | [] => []
  | word :: words => lowerFirst word ++ words.flatMap (capitalizeInitialism ∘ upperFirst)

/-- The name of the local variable for a header. -/
def camel (name : String) : String :=
  String.ofList (camelChars name.toList)

/-- A package name: the ASCII letters and digits of a text in lower case. -/
def packageWord (name : String) : String :=
  String.ofList ((asciiWords name.toList).flatMap lower)

end RecordBridge
