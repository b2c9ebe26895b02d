/-!
# The wire format

The parts of the protobuf wire format: varints, keys, length-delimited texts, and fields that are
skipped. Readers take the bytes that are left of the whole input and return what they leave.
-/

namespace RecordBridge.Wire

/-- How a field is written. -/
inductive WireType where
  | varint
  | sixtyFourBit
  | lengthDelimited
  | startGroup
  | endGroup
  | thirtyTwoBit
  deriving DecidableEq, Repr

namespace WireType

/-- The wire type of a number in a key. -/
def ofNat? : Nat → Option WireType
  | 0 => some .varint
  | 1 => some .sixtyFourBit
  | 2 => some .lengthDelimited
  | 3 => some .startGroup
  | 4 => some .endGroup
  | 5 => some .thirtyTwoBit
  | _ => none

/-- The name of a wire type in messages. -/
def name : WireType → String
  | .varint => "Varint"
  | .sixtyFourBit => "SixtyFourBit"
  | .lengthDelimited => "LengthDelimited"
  | .startGroup => "StartGroup"
  | .endGroup => "EndGroup"
  | .thirtyTwoBit => "ThirtyTwoBit"

end WireType

/-- What can be wrong with bytes. -/
inductive Flaw where
  | badVarint
  | badKey (key : Nat)
  | badWireType (number : Nat)
  | badTag (tag : Nat)
  | otherWireType (actual expected : WireType)
  /-- A length goes beyond the end of the input. -/
  | underflow
  | notText
  /-- Messages or groups are nested too deep. -/
  | tooDeep
  | strayGroupEnd
  /-- The fields of a message go beyond its length. -/
  | overrun
  deriving DecidableEq, Repr

/-- The wording of a flaw. -/
def Flaw.message : Flaw → String
  | .badVarint => "invalid varint"
  | .badKey key => "invalid key value: " ++ toString key
  | .badWireType number => "invalid wire type value: " ++ toString number
  | .badTag tag => "invalid tag value: " ++ toString tag
  | .otherWireType actual expected =>
    "invalid wire type: " ++ actual.name ++ " (expected " ++ expected.name ++ ")"
  | .underflow => "buffer underflow"
  | .notText => "invalid string value: data is not UTF-8 encoded"
  | .tooDeep => "recursion limit reached"
  | .strayGroupEnd => "unexpected end group tag"
  | .overrun => "delimited length exceeded"

/-- Bytes in order. -/
abbrev Bytes := List UInt8

/-- Reads a value from the bytes that are left, and leaves the rest. -/
abbrev Reader (α : Type) := Bytes → Except Flaw (α × Bytes)

/-- Reads a number in base 128 from at most `count` bytes, the lowest digit first. The high bit of a
byte announces another one; the last byte allowed holds a single bit. -/
def readDigits : (count : Nat) → Reader Nat
  | 0, _ => .error .badVarint
  | _ + 1, [] => .error .badVarint
  | count + 1, b :: rest =>
    if b.toNat < 128 then
      if count = 0 && 1 < b.toNat then .error .badVarint else .ok (b.toNat, rest)
    else do
      let (high, rest) ← readDigits count rest
      .ok (b.toNat % 128 + 128 * high, rest)

/-- Reads a varint, a number below 2 ^ 64 in at most ten bytes. -/
def readVarint : Reader Nat :=
  readDigits 10

/-- Reads the key of a field: its number and its wire type. -/
def readKey : Reader (Nat × WireType) := fun bytes => do
  let (key, rest) ← readVarint bytes
  if 0x100000000 ≤ key then .error (.badKey key)
  else match WireType.ofNat? (key % 8) with
    | none => .error (.badWireType (key % 8))
    | some type => if key / 8 = 0 then .error (.badTag 0) else .ok ((key / 8, type), rest)

/-- Reads a number of bytes. -/
def readBytes (count : Nat) : Reader Bytes := fun bytes =>
  if bytes.length < count then .error .underflow else .ok (bytes.take count, bytes.drop count)

/-- Reads bytes after their number. -/
def readDelimited : Reader Bytes := fun bytes => do
  let (count, rest) ← readVarint bytes
  readBytes count rest

/-- Reads a text in UTF-8 after its length. -/
def readText : Reader String := fun bytes => do
  let (body, rest) ← readDelimited bytes
  match String.fromUTF8? ⟨body.toArray⟩ with
  | some text => .ok (text, rest)
  | none => .error .notText

/-- Skips the fields of a group, each with `skip`, up to the end of the group. There is at least one
byte for each of the `count` fields. -/
def skipGroup (skip : Nat → WireType → Reader Unit) (number : Nat) : (count : Nat) → Reader Unit
  | 0, _ => .error .badVarint
  | count + 1, bytes => do
    let ((inner, type), rest) ← readKey bytes
    if type = .endGroup then
      if inner = number then .ok ((), rest) else .error .strayGroupEnd
    else
      let ((), rest) ← skip inner type rest
      skipGroup skip number count rest

/-- Skips the value of a field. Groups within it may be nested up to `depth` levels. -/
def skipValue : (depth : Nat) → Nat → WireType → Reader Unit
  | 0, _, _, _ => .error .tooDeep
  | depth + 1, number, type, bytes =>
    match type with
    | .varint => do
      let (_, rest) ← readVarint bytes
      .ok ((), rest)
    | .thirtyTwoBit => do
      let (_, rest) ← readBytes 4 bytes
      .ok ((), rest)
    | .sixtyFourBit => do
      let (_, rest) ← readBytes 8 bytes
      .ok ((), rest)
    | .lengthDelimited => do
      let (_, rest) ← readDelimited bytes
      .ok ((), rest)
    | .startGroup => skipGroup (skipValue depth) number bytes.length bytes
    | .endGroup => .error .strayGroupEnd

/-- Writes a number in base 128, the lowest digit first, in at most `count` digits before the
last. -/
def writeDigits : (count : Nat) → Nat → Bytes
  | 0, n => [n.toUInt8]
  | count + 1, n =>
    if n < 128 then [n.toUInt8] else (n % 128 + 128).toUInt8 :: writeDigits count (n / 128)

/-- Writes a varint. A number has fewer digits than its value. -/
def writeVarint (n : Nat) : Bytes :=
  writeDigits n n

/-- Writes a field that holds a number. -/
def writeNumber (number value : Nat) : Bytes :=
  writeVarint (8 * number) ++ writeVarint value

/-- Writes a field that holds bytes. -/
def writeDelimited (number : Nat) (body : Bytes) : Bytes :=
  writeVarint (8 * number + 2) ++ writeVarint body.length ++ body

/-- Writes a field that holds a text. -/
def writeText (number : Nat) (text : String) : Bytes :=
  writeDelimited number text.toUTF8.toList

end RecordBridge.Wire
