import RecordBridge.Wire.Basic

/-!
# Messages

Reading messages by a grammar, which tells the known fields of each message type. The result holds
the known fields in the order in which they were read, and leaves it to the message type what a
repeated field means. Fields that are not known are skipped.
-/

namespace RecordBridge.Wire

/-- What a field holds. -/
inductive Content (τ : Type) where
  | text
  | number
  | message (type : τ)

/-- A known field. -/
structure Rule (τ : Type) where
  number : Nat
  name : String
  content : Content τ

/-- The known fields of the message types in `τ`. -/
structure Grammar (τ : Type) where
  name : τ → String
  rules : τ → List (Rule τ)

/-- The value of a known field. -/
inductive Value where
  | text (s : String)
  | number (n : Nat)
  | message (fields : List (Nat × Value))

/-- The known fields of a message with their numbers, in the order in which they were read. -/
abbrev Values := List (Nat × Value)

/-- A flaw, and the fields within which it was found, the innermost first. -/
structure DecodeError where
  path : List (String × String)
  flaw : Flaw
  deriving DecidableEq, Repr

namespace DecodeError

/-- A flaw that is not within a field. -/
def ofFlaw (flaw : Flaw) : DecodeError :=
  ⟨[], flaw⟩

/-- The error within a field. -/
def within (message field : String) (e : DecodeError) : DecodeError :=
  { e with path := e.path ++ [(message, field)] }

/-- The wording of a decoding error. -/
def message (e : DecodeError) : String :=
  "decode error: failed to decode Protobuf message: " ++
    String.join (e.path.map fun (message, field) => message ++ "." ++ field ++ ": ") ++
    e.flaw.message

end DecodeError

/-- Reads something as part of a message. -/
abbrev Decoder (α : Type) := Bytes → Except DecodeError (α × Bytes)

/-- Reads a part in which the fault is not in a known field. -/
def decoder {α : Type} (read : Reader α) : Decoder α := fun bytes =>
  (read bytes).mapError DecodeError.ofFlaw

/-- Requires a wire type. -/
def expect (actual expected : WireType) : Except DecodeError Unit :=
  if actual = expected then .ok () else .error (.ofFlaw (.otherWireType actual expected))

/-- Reads fields until at most `limit` bytes are left. There is at least one byte for each of the
`count` fields. -/
def readFields (readField : Decoder Values) (limit : Nat) : (count : Nat) → Decoder Values
  | 0, bytes => .ok ([], bytes)
  | count + 1, bytes =>
    if bytes.length ≤ limit then .ok ([], bytes)
    else do
      let (field, rest) ← readField bytes
      let (fields, rest) ← readFields readField limit count rest
      .ok (field ++ fields, rest)

/-- Reads the body of a message after its length, with `readBody`, which is told how many bytes the
message leaves. -/
def readMessage (readBody : Nat → Decoder Values) : Decoder Values := fun bytes => do
  let (size, rest) ← decoder readVarint bytes
  if rest.length < size then .error (.ofFlaw .underflow)
  else
    let limit := rest.length - size
    let (fields, rest) ← readBody limit rest
    if rest.length = limit then .ok (fields, rest) else .error (.ofFlaw .overrun)

variable {τ : Type} (g : Grammar τ)

/-- Reads the value of a known field. Messages within it are read with `nested`. -/
def readValue (nested : τ → Decoder Values) (content : Content τ) (type : WireType) :
    Decoder Value := fun bytes =>
  match content with
  | .text => do
    expect type .lengthDelimited
    let (text, rest) ← decoder readText bytes
    .ok (.text text, rest)
  | .number => do
    expect type .varint
    let (n, rest) ← decoder readVarint bytes
    .ok (.number n, rest)
  | .message inner => do
    expect type .lengthDelimited
    let (fields, rest) ← nested inner bytes
    .ok (.message fields, rest)

/-- Reads one field of a message of a type: its key, and its value if the field is known. -/
def readField (nested : τ → Decoder Values) (depth : Nat) (message : τ) : Decoder Values :=
  fun bytes => do
    let ((number, type), rest) ← decoder readKey bytes
    match (g.rules message).find? (·.number = number) with
    | some rule =>
      match readValue nested rule.content type rest with
      | .ok (value, rest) => .ok ([(number, value)], rest)
      | .error e => .error (e.within (g.name message) rule.name)
    | none => do
      let ((), rest) ← decoder (skipValue depth number type) rest
      .ok ([], rest)

/-- Reads the fields of a message of a type until at most `limit` bytes are left. Messages within it
may be nested up to `depth` levels. -/
def readBody : (depth : Nat) → τ → (limit : Nat) → Decoder Values
  | 0, message, limit => fun bytes =>
    readFields (readField g (fun _ _ => .error (.ofFlaw .tooDeep)) 0 message) limit bytes.length
      bytes
  | depth + 1, message, limit => fun bytes =>
    readFields (readField g (fun inner => readMessage (readBody depth inner)) (depth + 1) message)
      limit bytes.length bytes

/-- Messages and groups may be nested this deep. -/
def nestingLimit : Nat :=
  100

/-- Reads a whole input as a message of a type. -/
def readAll (message : τ) (bytes : Bytes) : Except DecodeError Values :=
  (readBody g nestingLimit message 0 bytes).map (·.1)

namespace Values

/-- The texts of a field, in order. -/
def texts (v : Values) (number : Nat) : List String :=
  v.filterMap fun
    | (n, .text s) => if n = number then some s else none
    | _ => none

/-- The text of a field, of which the last one counts, or the empty text. -/
def text (v : Values) (number : Nat) : String :=
  (v.texts number).getLast?.getD ""

/-- The number of a field, of which the last one counts. -/
def number? (v : Values) (number : Nat) : Option Nat :=
  (v.filterMap fun
    | (n, .number x) => if n = number then some x else none
    | _ => none).getLast?

/-- The number of a field as a signed number of 32 bits. -/
def int32? (v : Values) (number : Nat) : Option Int :=
  (v.number? number).map fun n => Int.bmod n 0x100000000

/-- Whether a field holds a number other than zero. -/
def flag (v : Values) (number : Nat) : Bool :=
  match v.number? number with
  | some n => n != 0
  | none => false

/-- The messages of a field, in order. -/
def messages (v : Values) (number : Nat) : List Values :=
  v.filterMap fun
    | (n, .message fields) => if n = number then some fields else none
    | _ => none

/-- The fields of a message that may be given in several parts. -/
def merged (v : Values) (number : Nat) : Values :=
  (v.messages number).flatten

end Values

end RecordBridge.Wire
