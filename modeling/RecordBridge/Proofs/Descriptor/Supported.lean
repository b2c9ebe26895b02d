import RecordBridge.Proofs.Descriptor.Lowering
import RecordBridge.Proofs.Schema.Supported

/-!
# What lowering gives is supported

The fields of lowered messages are supported: a named type among them is declared in one of the files,
and each file has a Go package, whose name holds no line feed. So only the names of messages, fields and
enumerations matter.
-/

namespace RecordBridge

/-- The names within a message, but for those of the messages within it, hold no line feed. -/
structure MessageDescriptor.IsSingle (d : MessageDescriptor) : Prop where
  name : RecordBridge.IsSingle d.name
  fields : ∀ f ∈ d.fields, RecordBridge.IsSingle f.name
  enums : ∀ n ∈ d.enums, RecordBridge.IsSingle n

instance (d : MessageDescriptor) : Decidable d.IsSingle :=
  decidable_of_iff (RecordBridge.IsSingle d.name ∧
    (∀ f ∈ d.fields, RecordBridge.IsSingle f.name) ∧ ∀ n ∈ d.enums, RecordBridge.IsSingle n)
    ⟨fun h => ⟨h.1, h.2.1, h.2.2⟩, fun h => ⟨h.name, h.fields, h.enums⟩⟩

/-- The names of enumerations, messages and fields in a file hold no line feed. -/
structure FileDescriptor.IsSingle (f : FileDescriptor) : Prop where
  enums : ∀ n ∈ f.enums, RecordBridge.IsSingle n
  messages : ∀ name goName d, DeclaredIn f.scope "" f.messages name goName d → d.IsSingle

/-- The messages of a file are those that its registry lists. -/
theorem FileDescriptor.isSingle_of_listed {f : FileDescriptor}
    (henums : ∀ n ∈ f.enums, RecordBridge.IsSingle n)
    (hmessages : ∀ e ∈ Registry.messagesIn f.name f.isProto3 f.scope "" f.messages,
      e.2.descriptor.IsSingle) : f.IsSingle :=
  ⟨henums, fun _ _ _ hd => hmessages _ (Registry.mem_messagesIn_of_declaredIn hd)⟩

/-- The Go name of a nested message is made of the names around it. -/
theorem DeclaredIn.isSingle_goName {scope goScope name goName : String}
    {messages : List MessageDescriptor} {d : MessageDescriptor}
    (h : DeclaredIn scope goScope messages name goName d) (hscope : IsSingle goScope)
    (hall : ∀ n g e, DeclaredIn scope goScope messages n g e → e.IsSingle) : IsSingle goName := by
  induction h with
  | here hmem => exact isSingle_append.mpr ⟨hscope, (hall _ _ _ (.here hmem)).name⟩
  | within hmem _ ih =>
    have hname := (hall _ _ _ (.here hmem)).name
    refine ih ?_ fun n g e he => hall n g e (.within hmem he)
    exact isSingle_append.mpr ⟨isSingle_append.mpr ⟨hscope, hname⟩, by decide⟩

section Files

variable {files : List FileDescriptor} (h : ∀ f ∈ files, f.IsSingle) {name : String}

include h

theorem Declares.isSingle {m : RegisteredMessage} (hm : Declares files name m) :
    m.descriptor.IsSingle := by
  obtain ⟨f, hf, goName, d, hd, rfl⟩ := hm
  exact (h f hf).messages _ _ _ hd

/-- A declared message has a Go name in the file that declares it, whose package is registered. -/
theorem Declares.supported {m : RegisteredMessage} (hm : Declares files name m) :
    NameSupported (Registry.ofFiles files).package m.goName m.file := by
  obtain ⟨g, -, hpackage⟩ := Registry.package_of_declares hm
  refine ⟨?_, g.goPackageName, hpackage, isSingle_packageWord _⟩
  obtain ⟨f, hf, goName, d, hd, rfl⟩ := hm
  exact hd.isSingle_goName (by decide) (h f hf).messages

/-- So has a declared enum. -/
theorem DeclaresEnum.supported {e : RegisteredEnum} (he : DeclaresEnum files name e) :
    NameSupported (Registry.ofFiles files).package e.goName e.file := by
  obtain ⟨g, -, hpackage⟩ := Registry.package_of_declaresEnum he
  refine ⟨?_, g.goPackageName, hpackage, isSingle_packageWord _⟩
  obtain ⟨f, hf, ⟨n, hn, -, rfl⟩ | ⟨full, goName, d, hd, n, hn, -, rfl⟩⟩ := he
  · exact isSingle_append.mpr ⟨by decide, (h f hf).enums n hn⟩
  · have hgoName := hd.isSingle_goName (by decide) (h f hf).messages
    have hname := ((h f hf).messages _ _ _ hd).enums n hn
    exact isSingle_append.mpr ⟨isSingle_append.mpr ⟨hgoName, by decide⟩, hname⟩

end Files

namespace Lowering

/-- Where everything lowered before is supported, what is lowered is so too, and the value holds. -/
def Supports {α : Type} (resolve : Resolver) (Q : α → Prop) (x : Lowering α) : Prop :=
  ∀ l, l.schema.Supported resolve →
    Agree x x l fun a l' => l'.schema.Supported resolve ∧ Q a

namespace Supports

variable {α β : Type} {resolve : Resolver} {Q : α → Prop} {R : β → Prop}

theorem pure {a : α} (h : Q a) : Supports resolve Q (Pure.pure a) :=
  fun _ hl => .pure ⟨hl, h⟩

theorem throw {e : PluginError} (he : e.IsEarly) :
    Supports resolve Q (MonadExcept.throw e) :=
  fun _ _ => .throw he

/-- One lowering after another; the second may rely on what the first one gives. -/
theorem bind {x : Lowering α} {f : α → Lowering β} (hx : Supports resolve Q x)
    (hf : ∀ a, Q a → Supports resolve R (f a)) : Supports resolve R (x >>= f) :=
  fun l hl => (hx l hl).bind fun a l' ha => hf a ha.2 l' ha.1

theorem get {f : Lowered → Lowering β} (h : ∀ l, Supports resolve R (f l)) :
    Supports resolve R (MonadState.get >>= f) :=
  fun l hl => .get (h l l hl)

theorem enter {name : String} {f : Unit → Lowering β} (h : Supports resolve R (f ())) :
    Supports resolve R (Lowering.enter name >>= f) :=
  fun _ hl => .enter (h _ hl)

/-- Fields may be attached to a record if they are supported. -/
theorem attach {ref : RecordRef} {fields : List Field} {f : Unit → Lowering β}
    (hfields : ∀ f ∈ fields, f.Supported resolve) (h : Supports resolve R (f ())) :
    Supports resolve R (Lowering.attach ref fields >>= f) := by
  intro l hl
  refine .attach (h _ fun entry hentry => ?_)
  rcases List.mem_append.mp hentry with hentry | hentry
  · exact hl entry hentry
  · rw [List.mem_singleton.mp hentry]
    exact hfields

end Supports

section Files

variable {files : List FileDescriptor} (h : ∀ f ∈ files, f.IsSingle)

section Fields

variable {lower : String → Lowering RecordRef}
  (hlower : ∀ name, Supports (Registry.ofFiles files).package
    (fun ref => NameSupported (Registry.ofFiles files).package ref.name ref.file) (lower name))
  (owner : String) (field : FieldDescriptor)

include h hlower

/-- The type of a single value: a scalar, or a record or enum of the files. -/
theorem valueType_supports : Supports (Registry.ofFiles files).package
    (FieldType.Supported (Registry.ofFiles files).package)
    (valueType (.ofFiles files) lower owner field) := by
  unfold valueType
  cases field.type
  case enum =>
    cases he : (Registry.ofFiles files).enum? field.typeName with
    | none => exact .throw (by trivial)
    | some e =>
      have hdeclared := Registry.mem_enums_ofFiles.mp (Registry.mem_of_lookup he)
      exact .pure (hdeclared.supported h)
  case message => exact .bind (hlower _) fun ref href => .pure href
  case group => exact .throw (by trivial)
  all_goals exact .pure trivial

/-- A map entry holds two fields, one for the keys and one for the values. -/
theorem entryType_supports (entry : MessageDescriptor) (number : Nat) :
    Supports (Registry.ofFiles files).package
      (FieldType.Supported (Registry.ofFiles files).package)
      (entryType (.ofFiles files) lower owner field entry number) := by
  unfold entryType
  split
  · exact valueType_supports h hlower owner _
  · exact .throw (by trivial)

/-- The type of a field, with its label. -/
theorem typeOf_supports : Supports (Registry.ofFiles files).package
    (FieldType.Supported (Registry.ofFiles files).package)
    (typeOf (.ofFiles files) lower owner field) := by
  unfold typeOf
  split
  · exact .bind (entryType_supports h hlower owner field _ 1) fun key hkey =>
      .bind (entryType_supports h hlower owner field _ 2) fun value hvalue => .pure ⟨hkey, hvalue⟩
  · refine .bind (valueType_supports h hlower owner field) fun t ht => .pure ?_
    split
    · exact ht
    · exact ht

omit field in
/-- The fields of a message, one after the other; they keep their names. -/
theorem fieldsOf_supports (proto3 : Bool) (first : Nat) {fields : List FieldDescriptor}
    (hfields : ∀ f ∈ fields, IsSingle f.name) : Supports (Registry.ofFiles files).package
      (fun fs => ∀ f ∈ fs, Field.Supported (Registry.ofFiles files).package f)
      (fieldsOf (.ofFiles files) lower owner proto3 first fields) := by
  induction fields generalizing first with
  | nil => exact .pure fun _ hf => absurd hf List.not_mem_nil
  | cons field rest ih =>
    obtain ⟨hname, hrest⟩ := List.forall_mem_cons.mp hfields
    exact .bind (typeOf_supports h hlower owner field) fun t ht => .bind (ih (first + 1) hrest)
      fun fs hfs => .pure (List.forall_mem_cons.mpr ⟨⟨hname, ht⟩, hfs⟩)

end Fields

include h

/-- By induction on the bound: at zero a message is named only, and otherwise its fields are lowered by
calls for other messages. -/
theorem message_supports (depth : Nat) (name : String) : Supports (Registry.ofFiles files).package
    (fun ref => NameSupported (Registry.ofFiles files).package ref.name ref.file)
    (message (.ofFiles files) depth name) := by
  have hfound : ∀ {name m}, (Registry.ofFiles files).message? name = some m →
      Declares files name m :=
    fun hlookup => Registry.mem_messages_ofFiles.mp (Registry.mem_of_lookup hlookup)
  induction depth generalizing name with
  | zero =>
    unfold message
    split
    · rename_i m hm
      exact .pure ((hfound hm).supported h)
    · exact .throw (by trivial)
  | succ depth ih =>
    unfold message
    split
    · exact .throw (by trivial)
    · rename_i m hm
      have href := (hfound hm).supported h
      refine .get fun l => ?_
      split
      · -- The message has been entered before, so its record is there, perhaps still without fields.
        exact .pure href
      · have hfields := fieldsOf_supports h ih name m.proto3
          (firstField (.ofFiles files) ((Registry.ofFiles files).ref name m).id)
          ((hfound hm).isSingle h).fields
        exact .enter (.bind hfields fun fields hfs => .attach hfs (.pure href))

/-- What is lowered by name is supported, and what cannot be lowered is not because of generating
statements. -/
theorem lower_supported {name : String} {l l' : Lowered}
    (hl : l.schema.Supported (Registry.ofFiles files).package) {result : Except PluginError RecordRef}
    (hrun : (Registry.ofFiles files).lower name l = (result, l')) :
    (∀ ref, result = .ok ref → l'.schema.Supported (Registry.ofFiles files).package) ∧
      ∀ e, result = .error e → e.IsEarly := by
  have hagree := message_supports h ((Registry.ofFiles files).messages.length + 1) (fullName name)
    l hl
  constructor
  · rintro ref rfl
    exact (hagree.ends hrun).1
  · rintro e rfl
    exact hagree.fails hrun

end Files

end Lowering

end RecordBridge
