import RecordBridge.Descriptor.Basic
import RecordBridge.Schema.Basic

/-!
# The registry of declarations

All messages and enumerations of a set of files by their full names, such as `.pkg.Outer.Inner`. Of
two declarations of one name the later one counts; those within a message come before it.
-/

namespace RecordBridge

/-- A registered message. -/
structure RegisteredMessage where
  descriptor : MessageDescriptor
  file : String
  /-- Its name in Go before casing: the names of the messages around it and its own, with
  underscores between them. -/
  goName : String
  proto3 : Bool

/-- A registered enumeration. -/
structure RegisteredEnum where
  file : String
  goName : String
  deriving DecidableEq, Repr

/-- Declarations by full name, the latest first. The first one of a name counts. -/
structure Registry where
  messages : List (String × RegisteredMessage)
  enums : List (String × RegisteredEnum)
  /-- The Go packages of the files. -/
  packages : List (String × String)

namespace Registry

/-- The enumerations declared in a scope. -/
def enumsIn (file scope goScope : String) (enums : List String) :
    List (String × RegisteredEnum) :=
  enums.map fun name => (scope ++ "." ++ name, ⟨file, goScope ++ name⟩)

mutual

/-- A message declared in a scope, after the messages declared within it. -/
def messagesOf (file : String) (proto3 : Bool) (scope goScope : String) :
    MessageDescriptor → List (String × RegisteredMessage)
  | .mk name fields nested enums isMapEntry =>
    messagesIn file proto3 (scope ++ "." ++ name) (goScope ++ name ++ "_") nested ++
      [(scope ++ "." ++ name,
        ⟨.mk name fields nested enums isMapEntry, file, goScope ++ name, proto3⟩)]

/-- The messages declared in a scope, and those within them. -/
def messagesIn (file : String) (proto3 : Bool) (scope goScope : String) :
    List MessageDescriptor → List (String × RegisteredMessage)
  | [] => []
  | m :: rest =>
    messagesOf file proto3 scope goScope m ++ messagesIn file proto3 scope goScope rest

end

mutual

/-- The enumerations declared within a message. -/
def enumsOf (file scope goScope : String) : MessageDescriptor → List (String × RegisteredEnum)
  | .mk name _ nested enums _ =>
    enumsIn file (scope ++ "." ++ name) (goScope ++ name ++ "_") enums ++
      enumsWithin file (scope ++ "." ++ name) (goScope ++ name ++ "_") nested

/-- The enumerations declared within messages. -/
def enumsWithin (file scope goScope : String) :
    List MessageDescriptor → List (String × RegisteredEnum)
  | [] => []
  | m :: rest => enumsOf file scope goScope m ++ enumsWithin file scope goScope rest

end

/-- The registry of some files. -/
def ofFiles (files : List FileDescriptor) : Registry where
  messages := (files.flatMap fun f => messagesIn f.name f.isProto3 f.scope "" f.messages).reverse
  enums := (files.flatMap fun f =>
    enumsIn f.name f.scope "" f.enums ++ enumsWithin f.name f.scope "" f.messages).reverse
  packages := (files.map fun f => (f.name, f.goPackageName)).reverse

/-- The message of a full name. -/
def message? (r : Registry) (name : String) : Option RegisteredMessage :=
  r.messages.lookup name

/-- The enumeration of a full name. -/
def enum? (r : Registry) (name : String) : Option RegisteredEnum :=
  r.enums.lookup name

/-- The Go package of a file. -/
def package (r : Registry) (file : String) : Except String String :=
  match r.packages.lookup file with
  | some package => .ok package
  | none => .error ("no Go package known for " ++ file)

/-- The position of a full name among the messages, which tells messages apart. -/
def position (r : Registry) (name : String) : Nat :=
  r.messages.findIdx (·.1 == name)

/-- The reference to a registered message. -/
def ref (r : Registry) (name : String) (m : RegisteredMessage) : RecordRef :=
  ⟨r.position name, m.goName, m.file⟩

end Registry

end RecordBridge
