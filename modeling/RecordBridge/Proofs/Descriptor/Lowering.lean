import Mathlib.Data.List.Forall2
import RecordBridge.Descriptor.Lowering
import RecordBridge.Proofs.Descriptor.Registry
import RecordBridge.Proofs.Schema.Reach

/-!
# Lowering gives an image of what is declared

Messages are entered before their fields are lowered, so a message that is met again while it is
being entered has no fields yet. What makes the result whole all the same is an invariant: every
message that was entered has its fields attached, once, except for those on the stack of messages
that are being entered (`Sound`). The stack is empty between calls.

- `Schema.ImageOf` says what it is to be an image: of every name there is one record, and a record
  that can be reached has a field for each field of its message, with the type that the declaration
  asks for;
- `descend_agree`: each level keeps the invariant, and a level below which no message is left to
  enter does not look at what stands for the deeper ones;
- `mapM_named_image`: after any calls without a failure the schema is an image of the declarations,
  and the bound on the levels was not reached.
-/

namespace RecordBridge

/-! ## Images -/

/-- The field type of a scalar type. -/
def ProtoType.scalar? : ProtoType → Option FieldType
  | .double | .float => some .double
  | .int32 | .sint32 | .sfixed32 => some .int32
  | .int64 | .sint64 | .sfixed64 | .uint32 | .fixed32 | .uint64 | .fixed64 => some .int64
  | .bool => some .bool
  | .string => some .text
  | .bytes => some .binary
  | .enum | .message | .group => none

section Image

variable (files : List FileDescriptor) (IsRecord : String → RecordRef → Prop)

/-- The type of one value of a field: that of its scalar type, or the enumeration or record of the
name that it refers to. -/
inductive ValueImage (field : FieldDescriptor) : FieldType → Prop where
  | scalar {t : FieldType} (h : field.type.scalar? = some t) : ValueImage field t
  | enum {e : RegisteredEnum} (h : field.type = .enum)
    (he : DeclaresEnum files field.typeName e) : ValueImage field (.enum e.goName e.file)
  | record {ref : RecordRef} (h : field.type = .message) (href : IsRecord field.typeName ref) :
    ValueImage field (.record ref)

/-- A field repeats the entries of a map, which a message declares. -/
def RepeatsEntry (field : FieldDescriptor) (entry : MessageDescriptor) : Prop :=
  field.label = .repeated ∧ field.type = .message ∧ entry.isMapEntry = true ∧
    ∃ m, Declares files field.typeName m ∧ m.descriptor = entry

/-- The type of a field: a map from the first to the second field of a map entry, a list of what
else is repeated, or a single value. -/
inductive TypeImage (field : FieldDescriptor) : FieldType → Prop where
  | map {entry : MessageDescriptor} {key value : FieldDescriptor} {keyType valueType : FieldType}
    (hentry : RepeatsEntry files field entry)
    (hkey : entry.fields.find? (·.number == 1) = some key)
    (hvalue : entry.fields.find? (·.number == 2) = some value)
    (hkeyType : ValueImage files IsRecord key keyType)
    (hvalueType : ValueImage files IsRecord value valueType) :
    TypeImage field (.map keyType valueType)
  | list {element : FieldType} (h : field.label = .repeated)
    (hentry : ∀ entry, ¬ RepeatsEntry files field entry)
    (helement : ValueImage files IsRecord field element) : TypeImage field (.list element)
  | single {t : FieldType} (h : field.label ≠ .repeated) (ht : ValueImage files IsRecord field t) :
    TypeImage field t

/-- A field with the name and the type that a declaration asks for. -/
def FieldImage (field : FieldDescriptor) (f : Field) : Prop :=
  f.name = field.name ∧ TypeImage files IsRecord field f.type

/-- A message is declared, and images can be given of its fields with records of the messages that
are known only. -/
def HasImage (known : String → Prop) (name : String) : Prop :=
  ∃ m fields, Declares files name m ∧
    List.Forall₂ (FieldImage files fun n _ => known n) m.descriptor.fields fields

variable {files IsRecord} {IsRecord' : String → RecordRef → Prop} {known : String → Prop}

/-- What is an image stays one if more names have records. -/
theorem ValueImage.mono {field : FieldDescriptor} {t : FieldType}
    (h : ValueImage files IsRecord field t) (hsub : ∀ name ref, IsRecord name ref →
      IsRecord' name ref) : ValueImage files IsRecord' field t := by
  cases h with
  | scalar h => exact .scalar h
  | enum h he => exact .enum h he
  | record h href => exact .record h (hsub _ _ href)

/-- So does that of a field, whatever its label. -/
theorem FieldImage.mono {field : FieldDescriptor} {f : Field}
    (h : FieldImage files IsRecord field f) (hsub : ∀ name ref, IsRecord name ref →
      IsRecord' name ref) : FieldImage files IsRecord' field f := by
  obtain ⟨hname, ht⟩ := h
  refine ⟨hname, ?_⟩
  generalize f.type = t at ht
  cases ht with
  | map hentry hkey hvalue hkeyType hvalueType =>
    exact .map hentry hkey hvalue (hkeyType.mono hsub) (hvalueType.mono hsub)
  | list h hentry helement => exact .list h hentry (helement.mono hsub)
  | single h ht => exact .single h (ht.mono hsub)

/-- The entry of a map field is told by the name of its type. -/
theorem RepeatsEntry.eq (h : Unambiguous files) {field : FieldDescriptor}
    {entry entry' : MessageDescriptor} (hentry : RepeatsEntry files field entry)
    (hentry' : RepeatsEntry files field entry') : entry = entry' := by
  obtain ⟨-, -, -, m, hm, rfl⟩ := hentry
  obtain ⟨-, -, -, m', hm', rfl⟩ := hentry'
  rw [h.messages _ _ _ hm hm']

/-- The type of a field that repeats a map entry is a map. -/
theorem TypeImage.of_repeatsEntry (h : Unambiguous files) {field : FieldDescriptor} {t : FieldType}
    {entry : MessageDescriptor} (ht : TypeImage files IsRecord field t)
    (hentry : RepeatsEntry files field entry) :
    ∃ key value keyType valueType, entry.fields.find? (·.number == 1) = some key ∧
      entry.fields.find? (·.number == 2) = some value ∧
      ValueImage files IsRecord key keyType ∧ ValueImage files IsRecord value valueType := by
  cases ht with
  | map hentry' hkey hvalue hkeyType hvalueType =>
    obtain rfl := hentry'.eq h hentry
    exact ⟨_, _, _, _, hkey, hvalue, hkeyType, hvalueType⟩
  | list _ hnone _ => exact absurd hentry (hnone _)
  | single hlabel _ => exact absurd hentry.1 hlabel

/-- The type of any other field is that of its values, or a list of it. -/
theorem TypeImage.value {field : FieldDescriptor} {t : FieldType}
    (ht : TypeImage files IsRecord field t) (hnone : ∀ entry, ¬ RepeatsEntry files field entry) :
    ∃ t', ValueImage files IsRecord field t' := by
  cases ht with
  | map hentry => exact absurd hentry (hnone _)
  | list _ _ helement => exact ⟨_, helement⟩
  | single _ ht => exact ⟨_, ht⟩

/-- A field with an image that names an enum names a declared one. -/
theorem ValueImage.of_enum {field : FieldDescriptor} {t : FieldType}
    (ht : ValueImage files IsRecord field t) (h : field.type = .enum) :
    ∃ e, DeclaresEnum files field.typeName e := by
  cases ht with
  | scalar h' => simp [h, ProtoType.scalar?] at h'
  | enum _ he => exact ⟨_, he⟩
  | record h' => simp [h] at h'

/-- A field with an image that names a message has a record for it. -/
theorem ValueImage.of_message {field : FieldDescriptor} {t : FieldType}
    (ht : ValueImage files IsRecord field t) (h : field.type = .message) :
    ∃ ref, IsRecord field.typeName ref := by
  cases ht with
  | scalar h' => simp [h, ProtoType.scalar?] at h'
  | enum h' => simp [h] at h'
  | record _ href => exact ⟨_, href⟩

/-- Groups have no image. -/
theorem ValueImage.not_group {field : FieldDescriptor} {t : FieldType}
    (ht : ValueImage files IsRecord field t) : field.type ≠ .group := by
  cases ht with
  | scalar h =>
    intro h'
    simp [h', ProtoType.scalar?] at h
  | enum h => simp [h]
  | record h => simp [h]

/-- Two images of one field name the same record, so what is known of names by the one and by the other
is known together. -/
theorem ValueImage.and_known {field : FieldDescriptor} {t t' : FieldType}
    (ht : ValueImage files IsRecord field t) (ht' : ValueImage files (fun n _ => known n) field t') :
    ValueImage files (fun n ref => IsRecord n ref ∧ known n) field t := by
  cases ht with
  | scalar h => exact .scalar h
  | enum h he => exact .enum h he
  | record h href =>
    obtain ⟨-, hknown⟩ := ht'.of_message h
    exact .record h ⟨href, hknown⟩

/-- An image has records of the messages that any image of the field has. -/
theorem FieldImage.and_known (h : Unambiguous files) {field : FieldDescriptor} {f f' : Field}
    (hf : FieldImage files IsRecord field f) (hf' : FieldImage files (fun n _ => known n) field f') :
    FieldImage files (fun n ref => IsRecord n ref ∧ known n) field f := by
  obtain ⟨hname, ht⟩ := hf
  obtain ⟨-, ht'⟩ := hf'
  refine ⟨hname, ?_⟩
  generalize f.type = t at ht
  -- A map has an entry in both images; for lists and single values it is the same value.
  cases ht with
  | map hentry hkey hvalue hkeyType hvalueType =>
    obtain ⟨key, value, _, _, hkey', hvalue', hkeyType', hvalueType'⟩ := ht'.of_repeatsEntry h hentry
    obtain rfl := Option.some.inj (hkey'.symm.trans hkey)
    obtain rfl := Option.some.inj (hvalue'.symm.trans hvalue)
    exact .map hentry hkey hvalue (hkeyType.and_known hkeyType') (hvalueType.and_known hvalueType')
  | list hlabel hnone helement =>
    obtain ⟨_, ht'⟩ := ht'.value hnone
    exact .list hlabel hnone (helement.and_known ht')
  | single hlabel ht =>
    obtain ⟨_, ht'⟩ := ht'.value fun _ hentry => hlabel hentry.1
    exact .single hlabel (ht.and_known ht')

/-- The only record that a value mentions is that of its message. -/
theorem ValueImage.mentions {field : FieldDescriptor} {t : FieldType}
    (h : ValueImage files IsRecord field t) {ref : RecordRef} (href : ref ∈ t.mentions) :
    ∃ name, IsRecord name ref := by
  cases h with
  | scalar h =>
    cases htype : field.type <;> rw [htype] at h <;> simp only [ProtoType.scalar?] at h <;>
      cases h <;> cases href
  | enum h he => cases href
  | record h hrecord =>
    obtain rfl := List.mem_singleton.mp href
    exact ⟨_, hrecord⟩

/-- Fields that are images mention only records of names. -/
theorem FieldImage.mentions {field : FieldDescriptor} {f : Field}
    (h : FieldImage files IsRecord field f) {ref : RecordRef} (href : ref ∈ f.type.mentions) :
    ∃ name, IsRecord name ref := by
  obtain ⟨-, ht⟩ := h
  generalize f.type = t at ht href
  cases ht with
  | map hentry hkey hvalue hkeyType hvalueType =>
    rcases List.mem_append.mp href with href | href
    · exact hkeyType.mentions href
    · exact hvalueType.mentions href
  | list h hentry helement => exact helement.mentions href
  | single h ht => exact ht.mentions href

end Image

/-- A schema is an image of what files declare, as far as it can be reached from the records of some
names. -/
structure Schema.ImageOf (s : Schema) (files : List FileDescriptor) (ref : String → RecordRef)
    (names : List String) : Prop where
  /-- The names are declared. -/
  called : ∀ name ∈ names, ∃ m, Declares files name m
  /-- A record is declared as its message is. -/
  declared : ∀ name m, Declares files name m →
    (ref name).name = m.goName ∧ (ref name).file = m.file
  /-- One name has one record, and different names have different ones. -/
  same : ∀ name name' m m', Declares files name m → Declares files name' m' →
    ((ref name).id = (ref name').id ↔ name = name')
  /-- What can be reached is the record of a declared message, with a field for each of its fields
  in order. -/
  fields : ∀ name ∈ names, ∀ id, Relation.ReflTransGen s.Mentions (ref name).id id →
    ∃ name' m fields, Declares files name' m ∧ id = (ref name').id ∧
      s.records.lookup id = some fields ∧
      List.Forall₂ (FieldImage files fun n x => x = ref n ∧ ∃ m, Declares files n m)
        m.descriptor.fields fields
  /-- Fields are attached to a record once. -/
  once : (s.records.map (·.1)).Nodup

/-- An error that comes before statements are generated. -/
def PluginError.IsEarly : PluginError → Prop
  | .generation _ => False
  | _ => True

namespace Lowering

/-! ## Levels -/

section Levels

variable (r : Registry)

/-- Enters a message, unless it was entered before. The messages that it refers to are lowered with
`lower`. -/
def step (lower : String → Lowering RecordRef) (name : String) : Lowering RecordRef :=
  match r.message? name with
  | none => throw (.messageNotFound name)
  | some m => do
    let ref := r.ref name m
    if (← get).entered.contains name then return ref
    enter name
    let fields ← fieldsOf r lower name m.proto3 (firstField r ref.id) m.descriptor.fields
    attach ref fields
    return ref

/-- Enters messages within each other up to some levels. What lies deeper is lowered with
`bottom`. -/
def descend (bottom : String → Lowering RecordRef) : Nat → String → Lowering RecordRef
  | 0 => bottom
  | depth + 1 => step r (descend bottom depth)

/-- Lowering a message is a descent of as many levels as its bound says, to where messages are only
named. -/
theorem message_eq_descend (depth : Nat) : message r depth = descend r (message r 0) depth := by
  induction depth with
  | zero => rfl
  | succ depth ih =>
    funext name
    rw [descend, ← ih]
    rfl

end Levels

/-- Lowering goes on after a step that ends, and keeps the state of one that fails. -/
theorem run_bind {α β : Type} (x : Lowering α) (f : α → Lowering β) (l : Lowered) :
    (x >>= f).run l = match x.run l with
      | (.ok a, l') => (f a).run l'
      | (.error e, l') => (.error e, l') := by
  show ExceptT.bindCont f (x.run l).1 (x.run l).2 = _
  rcases x.run l with ⟨_ | a, l'⟩ <;> rfl

/-! ## Two ways of lowering that agree -/

/-- From some state on two ways of lowering do the same, what they return holds, and a failure is one
that comes before statements are generated. -/
structure Agree {α : Type} (x y : Lowering α) (l : Lowered) (Q : α → Lowered → Prop) : Prop where
  same : x.run l = y.run l
  ends : ∀ {a l'}, x.run l = (.ok a, l') → Q a l'
  fails : ∀ {e l'}, x.run l = (.error e, l') → e.IsEarly

namespace Agree

variable {α β : Type} {l : Lowered}

/-- A value is the same at once. -/
theorem pure {a : α} {Q : α → Lowered → Prop} (h : Q a l) :
    Agree (pure a : Lowering α) (pure a) l Q := by
  refine ⟨rfl, fun heq => ?_, fun heq => ?_⟩
  · cases heq
    exact h
  · cases heq

/-- An early error is the same error. -/
theorem throw {e : PluginError} (he : e.IsEarly) {Q : α → Lowered → Prop} :
    Agree (throw e : Lowering α) (throw e) l Q := by
  refine ⟨rfl, fun heq => ?_, fun heq => ?_⟩
  · cases heq
  · cases heq
    exact he

/-- Two lowerings that agree up to some state, and go on alike from there. -/
theorem bind {x y : Lowering α} {f g : α → Lowering β} {Q : α → Lowered → Prop}
    {R : β → Lowered → Prop} (hx : Agree x y l Q)
    (hf : ∀ a l', Q a l' → Agree (f a) (g a) l' R) : Agree (x >>= f) (y >>= g) l R := by
  constructor
  · rw [run_bind, run_bind, ← hx.same]
    rcases hxl : x.run l with ⟨_ | a, l'⟩
    · rfl
    · exact (hf a l' (hx.ends hxl)).same
  · -- What holds at the end holds at the end of the second part.
    intro b l'' heq
    rw [run_bind] at heq
    rcases hxl : x.run l with ⟨_ | a, l'⟩
    · rw [hxl] at heq
      cases heq
    · rw [hxl] at heq
      exact (hf a l' (hx.ends hxl)).ends heq
  · -- A failure is that of the first part, or of the second after the first has ended.
    intro e l'' heq
    rw [run_bind] at heq
    rcases hxl : x.run l with ⟨_ | a, l'⟩
    · rw [hxl] at heq
      cases heq
      exact hx.fails hxl
    · rw [hxl] at heq
      exact (hf a l' (hx.ends hxl)).fails heq

theorem get {f g : Lowered → Lowering β} {Q : β → Lowered → Prop} (h : Agree (f l) (g l) l Q) :
    Agree (MonadState.get >>= f) (MonadState.get >>= g) l Q :=
  ⟨h.same, h.ends, h.fails⟩

/-- Names that are entered are entered on both sides. -/
theorem enter {name : String} {f g : Unit → Lowering β} {Q : β → Lowered → Prop}
    (h : Agree (f ()) (g ()) { l with entered := name :: l.entered } Q) :
    Agree (Lowering.enter name >>= f) (Lowering.enter name >>= g) l Q :=
  ⟨h.same, h.ends, h.fails⟩

/-- So are fields that are attached. -/
theorem attach {ref : RecordRef} {fields : List Field} {f g : Unit → Lowering β}
    {Q : β → Lowered → Prop}
    (h : Agree (f ()) (g ()) { l with schema := ⟨l.schema.records ++ [(ref.id, fields)]⟩ } Q) :
    Agree (Lowering.attach ref fields >>= f) (Lowering.attach ref fields >>= g) l Q :=
  ⟨h.same, h.ends, h.fails⟩

/-- What holds at the end may be weakened. -/
theorem mono {x y : Lowering α} {Q R : α → Lowered → Prop} (h : Agree x y l Q)
    (hsub : ∀ a l', Q a l' → R a l') : Agree x y l R :=
  ⟨h.same, fun heq => hsub _ _ (h.ends heq), h.fails⟩

end Agree

/-! ## The invariant -/

section Invariant

variable (files : List FileDescriptor)

/-- The record of a message that was entered. -/
def IsEntered (l : Lowered) (name : String) (ref : RecordRef) : Prop :=
  name ∈ l.entered ∧ ∃ m, Declares files name m ∧ ref = (Registry.ofFiles files).ref name m

/-- What holds while the messages on a stack are being entered: the other messages entered have
their fields attached, once. -/
structure Sound (stack : List String) (l : Lowered) : Prop where
  declared : ∀ name ∈ l.entered, ∃ m, Declares files name m
  stacked : stack ⊆ l.entered
  attached : ∀ name ∈ l.entered, name ∉ stack → ∃ m fields, Declares files name m ∧
    l.schema.records.lookup ((Registry.ofFiles files).position name) = some fields ∧
    List.Forall₂ (FieldImage files (IsEntered files l)) m.descriptor.fields fields
  keys : ∀ entry ∈ l.schema.records, ∃ name ∈ l.entered, name ∉ stack ∧
    entry.1 = (Registry.ofFiles files).position name
  once : (l.schema.records.map (·.1)).Nodup

/-- How many messages are left to enter. -/
def unentered (l : Lowered) : Nat :=
  ((Registry.ofFiles files).messages.filter fun entry => entry.1 ∉ l.entered).length

/-- The state while the messages on a stack are being entered, with fewer messages left than there
are levels. -/
structure Within (stack : List String) (depth : Nat) (l : Lowered) : Prop where
  sound : Sound files stack l
  unentered : unentered files l < depth

/-- What holds at the end of a step that began in the state `l`. -/
structure After (stack : List String) (l : Lowered) (Q : Lowered → Prop) (l' : Lowered) : Prop where
  sound : Sound files stack l'
  entered : l.entered ⊆ l'.entered
  holds : Q l'

end Invariant

section Agreement

variable {files : List FileDescriptor} {stack : List String} {depth : Nat} {l l' : Lowered}
  {known : String → Prop}

/-- A message that was entered stays entered. -/
theorem IsEntered.mono (h : l.entered ⊆ l'.entered) {name : String} {ref : RecordRef}
    (href : IsEntered files l name ref) : IsEntered files l' name ref :=
  ⟨h href.1, href.2⟩

/-- The more messages were entered, the fewer are left. -/
theorem unentered_mono (h : l.entered ⊆ l'.entered) :
    unentered files l' ≤ unentered files l := by
  refine (List.monotone_filter_right _ fun entry hentry => ?_).length_le
  simp only [decide_eq_true_eq] at hentry ⊢
  exact fun hmem => hentry (h hmem)

/-- A message that is entered is no longer left to enter. -/
theorem unentered_enter {name : String} {m : RegisteredMessage} (hm : Declares files name m)
    (hname : name ∉ l.entered) :
    unentered files { l with entered := name :: l.entered } < unentered files l := by
  have hsub : (fun entry : String × RegisteredMessage => decide (entry.1 ∉ name :: l.entered)) =
      fun entry => decide (entry.1 ≠ name) && decide (entry.1 ∉ l.entered) := by
    funext entry
    simp [List.mem_cons, not_or]
  rw [unentered, hsub, ← List.filter_filter]
  refine List.length_filter_lt_length_iff_exists.mpr ⟨(name, m), ?_, by simp⟩
  exact List.mem_filter.mpr ⟨Registry.mem_messages_ofFiles.mpr hm, by simpa using hname⟩

/-- Steps one after the other. -/
theorem Agree.after {α β : Type} {x y : Lowering α} {f g : α → Lowering β}
    {Q : α → Lowered → Prop} {R : β → Lowered → Prop} (hl : Within files stack depth l)
    (hx : Agree x y l fun a => After files stack l (Q a))
    (hf : ∀ a l', Within files stack depth l' → l.entered ⊆ l'.entered → Q a l' →
      Agree (f a) (g a) l' fun b => After files stack l' (R b)) :
    Agree (x >>= f) (y >>= g) l fun b => After files stack l (R b) := by
  refine hx.bind fun a l' ha => ?_
  have hl' : Within files stack depth l' :=
    ⟨ha.sound, Nat.lt_of_le_of_lt (unentered_mono ha.entered) hl.unentered⟩
  refine (hf a l' hl' ha.entered ha.holds).mono fun b l'' hb => ?_
  exact ⟨hb.sound, fun _ h => hb.entered (ha.entered h), hb.holds⟩

/-- A value ends within the state in which it starts. -/
theorem Agree.done {α : Type} {a : α} {Q : α → Lowered → Prop} (hl : Within files stack depth l)
    (h : Q a l) : Agree (Pure.pure a : Lowering α) (Pure.pure a) l
      fun b => After files stack l (Q b) :=
  .pure ⟨hl.sound, fun _ h => h, h⟩

/-- A field has a map entry for the lowering if it repeats a message that is marked as one. -/
theorem mapEntry?_eq_some (h : Unambiguous files) {field : FieldDescriptor}
    {entry : MessageDescriptor} :
    mapEntry? (.ofFiles files) field = some entry ↔ RepeatsEntry files field entry := by
  have hmessage : (∃ m, Declares files field.typeName m ∧ m.descriptor = entry) ↔
      ∃ m, (Registry.ofFiles files).message? field.typeName = some m ∧ m.descriptor = entry :=
    exists_congr fun m => and_congr_left fun _ => (Registry.message?_ofFiles h).symm
  rw [RepeatsEntry, hmessage, mapEntry?]
  -- Only repeated messages are looked up; those of them that are not marked are no entries.
  by_cases hrepeats : field.label = .repeated ∧ field.type = .message
  · rw [if_pos (by simpa using hrepeats)]
    cases (Registry.ofFiles files).message? field.typeName with
    | none => simp
    | some m =>
      by_cases hm : m.descriptor.isMapEntry = true
      · simp only [hm, if_true, Option.some.injEq, hrepeats, true_and]
        constructor
        · rintro rfl
          exact ⟨hm, m, rfl, rfl⟩
        · rintro ⟨-, m', rfl, rfl⟩
          rfl
      · simp only [hm, Option.some.injEq]
        constructor
        · exact fun heq => absurd heq (by simp)
        · rintro ⟨-, -, hentry, m', rfl, rfl⟩
          exact absurd hentry hm
  · rw [if_neg (by simpa using hrepeats)]
    exact ⟨fun heq => absurd heq (by simp), fun hentry => absurd ⟨hentry.1, hentry.2.1⟩ hrepeats⟩

section Fields

variable {lower lower' : String → Lowering RecordRef} (h : Unambiguous files)
  (hlower : ∀ name l, Within files stack depth l → Agree (lower name) (lower' name) l
    fun ref => After files stack l fun l' => IsEntered files l' name ref)
  (owner : String) (field : FieldDescriptor)

include h hlower

/-- The type of a single value. Only that of a message is lowered by a call, and calls agree. -/
theorem valueType_agree (hl : Within files stack depth l) :
    Agree (valueType (.ofFiles files) lower owner field)
      (valueType (.ofFiles files) lower' owner field) l
      fun t => After files stack l fun l' => ValueImage files (IsEntered files l') field t := by
  unfold valueType
  cases htype : field.type
  case enum =>
    cases he : (Registry.ofFiles files).enum? field.typeName with
    | none => exact .throw (by trivial)
    | some e => exact .done hl (.enum htype ((Registry.enum?_ofFiles h).mp he))
  case message =>
    refine .after hl (hlower field.typeName l hl) fun ref l' hl' _ href => ?_
    exact .done hl' (.record htype href)
  case group => exact .throw (by trivial)
  all_goals exact .done hl (.scalar (by rw [htype]; rfl))

/-- The type of one of the two fields of an entry. -/
theorem entryType_agree (entry : MessageDescriptor) (number : Nat)
    (hl : Within files stack depth l) :
    Agree (entryType (.ofFiles files) lower owner field entry number)
      (entryType (.ofFiles files) lower' owner field entry number) l
      fun t => After files stack l fun l' =>
        ∃ inner, entry.fields.find? (·.number == Int.ofNat number) = some inner ∧
          ValueImage files (IsEntered files l') inner t := by
  unfold entryType
  cases hfind : entry.fields.find? fun inner => inner.number == Int.ofNat number with
  | none => exact .throw (by trivial)
  | some inner =>
    refine (valueType_agree h hlower owner inner hl).mono fun t l' ht => ?_
    exact ⟨ht.sound, ht.entered, inner, rfl, ht.holds⟩

/-- The type of a field: a map if it repeats an entry, and otherwise a list or a single value. -/
theorem typeOf_agree (hl : Within files stack depth l) :
    Agree (typeOf (.ofFiles files) lower owner field) (typeOf (.ofFiles files) lower' owner field) l
      fun t => After files stack l fun l' => TypeImage files (IsEntered files l') field t := by
  unfold typeOf
  cases hentry : mapEntry? (.ofFiles files) field with
  | some entry =>
    refine .after hl (entryType_agree h hlower owner field entry 1 hl) fun key l₁ hl₁ _ hkey => ?_
    refine .after hl₁ (entryType_agree h hlower owner field entry 2 hl₁)
      fun value l₂ hl₂ hgrow hvalue => ?_
    -- The keys were lowered before the values, so their records are still there after both.
    obtain ⟨keyField, hkeyField, hkeyType⟩ := hkey
    obtain ⟨valueField, hvalueField, hvalueType⟩ := hvalue
    exact .done hl₂ (.map ((mapEntry?_eq_some h).mp hentry) hkeyField hvalueField
      (hkeyType.mono fun _ _ => .mono hgrow) hvalueType)
  | none =>
    have hnone : ∀ entry, ¬ RepeatsEntry files field entry := by
      intro entry hrepeats
      rw [(mapEntry?_eq_some h).mpr hrepeats] at hentry
      cases hentry
    refine .after hl (valueType_agree h hlower owner field hl) fun t l' hl' _ ht => ?_
    refine .done hl' ?_
    by_cases hlabel : field.label = .repeated
    · rw [if_pos hlabel]
      exact .list hlabel hnone ht
    · rw [if_neg hlabel]
      exact .single hlabel ht

/-- The fields of a message, in order. -/
theorem fieldsOf_agree (proto3 : Bool) (first : Nat) (fields : List FieldDescriptor)
    (hl : Within files stack depth l) :
    Agree (fieldsOf (.ofFiles files) lower owner proto3 first fields)
      (fieldsOf (.ofFiles files) lower' owner proto3 first fields) l
      fun fs => After files stack l fun l' =>
        List.Forall₂ (FieldImage files (IsEntered files l')) fields fs := by
  induction fields generalizing first l with
  | nil => exact .done hl .nil
  | cons field rest ih =>
    refine .after hl (typeOf_agree h hlower owner field hl) fun t l₁ hl₁ _ ht => ?_
    refine .after hl₁ (ih (first + 1) hl₁) fun fs l₂ hl₂ hgrow hfs => ?_
    refine .done hl₂ (.cons ?_ hfs)
    exact FieldImage.mono ⟨rfl, ht⟩ fun _ _ => .mono hgrow

end Fields

/-! ## Messages -/

/-- The state after a message was put on the stack. -/
theorem Within.enter (hl : Within files stack (depth + 1) l) {name : String} {m : RegisteredMessage}
    (hm : Declares files name m) (hname : name ∉ l.entered) :
    Within files (name :: stack) depth { l with entered := name :: l.entered } := by
  obtain ⟨hsound, hlt⟩ := hl
  refine ⟨⟨?_, ?_, ?_, ?_, hsound.once⟩, ?_⟩
  · intro n hn
    rcases List.mem_cons.mp hn with rfl | hn
    · exact ⟨m, hm⟩
    · exact hsound.declared n hn
  · exact List.cons_subset_cons _ hsound.stacked
  · intro n hn hstack
    rw [List.mem_cons, not_or] at hstack
    have hn : n ∈ l.entered := (List.mem_cons.mp hn).resolve_left hstack.1
    obtain ⟨m, fields, hm, hlookup, hfields⟩ := hsound.attached n hn hstack.2
    refine ⟨m, fields, hm, hlookup, hfields.imp fun _ _ hf => hf.mono fun _ _ => ?_⟩
    exact .mono (List.subset_cons_self _ _)
  · intro entry hentry
    -- Fields are attached to messages that are not on the stack, and the new one has none yet.
    obtain ⟨n, hn, hstack, hkey⟩ := hsound.keys entry hentry
    refine ⟨n, List.mem_cons_of_mem _ hn, ?_, hkey⟩
    rw [List.mem_cons, not_or]
    exact ⟨fun heq => hname (heq ▸ hn), hstack⟩
  · have := unentered_enter hm hname
    omega

/-- No fields are attached to a message on the stack. -/
theorem Sound.unattached (hl : Sound files stack l) (h : Unambiguous files) {name : String}
    (hname : name ∈ stack) :
    l.schema.records.lookup ((Registry.ofFiles files).position name) = none := by
  obtain ⟨m, hm⟩ := hl.declared name (hl.stacked hname)
  refine List.lookup_eq_none_iff.mpr fun entry hentry => ?_
  obtain ⟨n, hn, hstack, hkey⟩ := hl.keys entry hentry
  obtain ⟨m', hm'⟩ := hl.declared n hn
  rw [bne_iff_ne, hkey]
  intro heq
  have hsame : name = n := Registry.position_inj ((Registry.message?_ofFiles h).mpr hm)
    ((Registry.message?_ofFiles h).mpr hm') heq
  exact hstack (hsame ▸ hname)

/-- The state after a message was taken off the stack and its fields were attached. -/
theorem Sound.attach (h : Unambiguous files) {name : String}
    (hl : Sound files (name :: stack) l) (hname : name ∉ stack) {m : RegisteredMessage}
    (hm : Declares files name m) {fields : List Field}
    (hfields : List.Forall₂ (FieldImage files (IsEntered files l)) m.descriptor.fields fields) :
    Sound files stack { l with schema :=
      ⟨l.schema.records ++ [((Registry.ofFiles files).position name, fields)]⟩ } := by
  -- The lookup finds the fields attached now, since there were none before.
  have hlookup := hl.unattached h List.mem_cons_self
  refine ⟨hl.declared, fun _ hn => hl.stacked (List.mem_cons_of_mem _ hn), ?_, ?_, ?_⟩
  · intro n hn hstack
    by_cases heq : n = name
    · subst heq
      refine ⟨m, fields, hm, ?_, hfields⟩
      rw [List.lookup_append, hlookup]
      simp
    · obtain ⟨m', fields', hm', hlookup', hfields'⟩ :=
        hl.attached n hn (by simp [heq, hstack])
      refine ⟨m', fields', hm', ?_, hfields'⟩
      rw [List.lookup_append, hlookup']
      rfl
  · intro entry hentry
    rcases List.mem_append.mp hentry with hentry | hentry
    · obtain ⟨n, hn, hstack, hkey⟩ := hl.keys entry hentry
      exact ⟨n, hn, fun hmem => hstack (List.mem_cons_of_mem _ hmem), hkey⟩
    · rw [List.mem_singleton.mp hentry]
      exact ⟨name, hl.stacked List.mem_cons_self, hname, rfl⟩
  · rw [List.map_append, List.nodup_append]
    refine ⟨hl.once, List.nodup_singleton _, ?_⟩
    intro key hkey key' hkey' heq
    obtain ⟨entry, hentry, rfl⟩ := List.mem_map.mp hkey
    have hne := List.lookup_eq_none_iff.mp hlookup entry hentry
    simp [heq.trans (List.mem_singleton.mp hkey')] at hne

/-- A message that is entered, or was before, is entered afterwards, and the stack is as it was. -/
theorem step_agree (h : Unambiguous files) {lower lower' : String → Lowering RecordRef}
    {name : String} (hl : Within files stack (depth + 1) l)
    (hlower : ∀ n l, Within files (name :: stack) depth l → Agree (lower n) (lower' n) l
      fun ref => After files (name :: stack) l fun l' => IsEntered files l' n ref) :
    Agree (step (.ofFiles files) lower name) (step (.ofFiles files) lower' name) l
      fun ref => After files stack l fun l' => IsEntered files l' name ref := by
  unfold step
  cases hfound : (Registry.ofFiles files).message? name with
  | none => exact .throw (by trivial)
  | some m =>
    have hm := (Registry.message?_ofFiles h).mp hfound
    refine .get ?_
    by_cases hname : name ∈ l.entered
    · have hseen := List.contains_iff_mem.mpr hname
      rw [if_pos hseen, if_pos hseen]
      exact .done hl ⟨hname, m, hm, rfl⟩
    · have hseen := mt List.contains_iff_mem.mp hname
      rw [if_neg hseen, if_neg hseen]
      -- The message is on the stack while its fields are lowered, and off it once they are attached.
      refine .enter ((fieldsOf_agree h hlower name m.proto3 _ m.descriptor.fields
        (hl.enter hm hname)).bind fun fields l' hfields => .attach (.pure ?_))
      have hfresh : name ∉ stack := fun hstack => hname (hl.sound.stacked hstack)
      exact ⟨hfields.sound.attach h hfresh hm hfields.holds,
        fun _ hn => hfields.entered (List.mem_cons_of_mem _ hn),
        hfields.entered List.mem_cons_self, m, hm, rfl⟩

/-- With at least as many levels as messages are left to enter, neither the number of levels nor what
lies deeper makes a difference. -/
theorem descend_agree (h : Unambiguous files) (bottom bottom' : String → Lowering RecordRef)
    {levels levels' : Nat} {name : String} (hl : Within files stack depth l)
    (hlevels : depth ≤ levels) (hlevels' : depth ≤ levels') :
    Agree (descend (.ofFiles files) bottom levels name)
      (descend (.ofFiles files) bottom' levels' name) l
      fun ref => After files stack l fun l' => IsEntered files l' name ref := by
  -- On the number of messages left to enter: with none left there is no state to start from.
  induction depth generalizing levels levels' stack name l with
  | zero => exact absurd hl.unentered (Nat.not_lt_zero _)
  | succ depth ih =>
    obtain ⟨levels, rfl⟩ := Nat.exists_eq_add_of_le' hlevels
    obtain ⟨levels', rfl⟩ := Nat.exists_eq_add_of_le' hlevels'
    exact step_agree h hl fun n l hl => ih hl (Nat.le_add_left _ _) (Nat.le_add_left _ _)

/-! ## Calls -/

/-- The state between calls. -/
def Between (files : List FileDescriptor) (l : Lowered) : Prop :=
  Within files [] ((Registry.ofFiles files).messages.length + 1) l

/-- No more messages are left to enter than there are. -/
theorem Sound.within (hl : Sound files stack l) :
    Within files stack ((Registry.ofFiles files).messages.length + 1) l :=
  ⟨hl, Nat.lt_succ_of_le (List.length_filter_le _ _)⟩

/-- Before the first call there is nothing. -/
theorem between_nil : Between files {} :=
  Sound.within
    { declared := fun _ h => absurd h List.not_mem_nil
      stacked := List.Subset.refl _
      attached := fun _ h => absurd h List.not_mem_nil
      keys := fun _ h => absurd h List.not_mem_nil
      once := List.nodup_nil }

/-- Calls one after the other, with any number of levels that is large enough. -/
theorem mapM_agree (h : Unambiguous files) (bottom : String → Lowering RecordRef) {levels : Nat}
    (hlevels : (Registry.ofFiles files).messages.length < levels) (names : List String)
    (hl : Between files l) :
    Agree (names.mapM (named (.ofFiles files)))
      (names.mapM fun name => descend (.ofFiles files) bottom levels (fullName name)) l
      fun refs => After files [] l fun l' =>
        List.Forall₂ (fun name ref => IsEntered files l' (fullName name) ref) names refs := by
  induction names generalizing l with
  | nil => exact .done hl .nil
  | cons name rest ih =>
    have hfirst : Agree (named (.ofFiles files) name)
        (descend (.ofFiles files) bottom levels (fullName name)) l
        fun ref => After files [] l fun l' => IsEntered files l' (fullName name) ref := by
      rw [named, message_eq_descend]
      exact descend_agree h _ _ hl (Nat.le_refl _) hlevels
    rw [List.mapM_cons, List.mapM_cons]
    refine .after hl hfirst fun ref l₁ hl₁ _ href => ?_
    refine .after hl₁ (ih hl₁) fun refs l₂ hl₂ hgrow hrefs => ?_
    exact .done hl₂ (.cons (href.mono hgrow) hrefs)

/-- Each member of the second of two lists that are related is related to one of the first. -/
theorem exists_of_forall₂ {α β : Type} {R : α → β → Prop} {as : List α} {bs : List β}
    (h : List.Forall₂ R as bs) {b : β} (hb : b ∈ bs) : ∃ a ∈ as, R a b := by
  induction h with
  | nil => exact absurd hb List.not_mem_nil
  | @cons a b' as bs hab _ ih =>
    rcases List.mem_cons.mp hb with rfl | hb
    · exact ⟨a, List.mem_cons_self, hab⟩
    · obtain ⟨a', ha', hab'⟩ := ih hb
      exact ⟨a', List.mem_cons_of_mem _ ha', hab'⟩

/-- What can be reached from messages that were entered are messages that were entered, and known
ones from those that are known. -/
theorem Sound.reaches (h : Unambiguous files) (hl : Sound files stack l)
    (hknown : ∀ n, known n → n ∉ stack ∧ HasImage files known n) {name : String} {ref : RecordRef}
    (href : IsEntered files l name ref) (hname : known name) {id : Nat}
    (hreach : Relation.ReflTransGen l.schema.Mentions ref.id id) :
    ∃ name' ref', known name' ∧ IsEntered files l name' ref' ∧ id = ref'.id := by
  induction hreach with
  | refl => exact ⟨name, ref, hname, href, rfl⟩
  | tail _ hmentions ih =>
    obtain ⟨name', -, hname', ⟨hentered, m, hm, rfl⟩, rfl⟩ := ih
    obtain ⟨hstack, m', known', hm', himages⟩ := hknown name' hname'
    obtain ⟨m'', fields, hm'', hlookup, hfields⟩ := hl.attached name' hentered hstack
    obtain rfl := h.messages _ _ _ hm'' hm'
    rw [Schema.Mentions, Schema.successors, Registry.ref, hlookup] at hmentions
    obtain ⟨target, htarget, rfl⟩ := List.mem_map.mp hmentions
    obtain ⟨f, hf, hmem⟩ := List.mem_flatMap.mp htarget
    obtain ⟨field, hfield, himage⟩ := exists_of_forall₂ hfields hf
    obtain ⟨f', -, himage'⟩ := exists_of_forall₂ himages.flip hfield
    obtain ⟨name'', htarget, hname''⟩ := (himage.and_known h himage').mentions hmem
    exact ⟨name'', target, hname'', htarget, rfl⟩

/-- The record of a full name, whichever it is of a name that is not declared. -/
def recordOf (files : List FileDescriptor) (name : String) : RecordRef :=
  match (Registry.ofFiles files).message? name with
  | some m => (Registry.ofFiles files).ref name m
  | none => default

/-- The record of a declared message is the one under which it is registered. -/
theorem recordOf_eq (h : Unambiguous files) {name : String} {m : RegisteredMessage}
    (hm : Declares files name m) : recordOf files name = (Registry.ofFiles files).ref name m := by
  rw [recordOf, (Registry.message?_ofFiles h).mpr hm]

/-- What is entered for a name is its record. -/
theorem IsEntered.eq_recordOf (h : Unambiguous files) {name : String} {ref : RecordRef}
    (href : IsEntered files l name ref) :
    ref = recordOf files name ∧ ∃ m, Declares files name m := by
  obtain ⟨-, m, hm, rfl⟩ := href
  exact ⟨(recordOf_eq h hm).symm, m, hm⟩

/-- The messages that were entered and are not on the stack have images. -/
theorem Sound.hasImage (hl : Sound files stack l) {name : String} (hname : name ∈ l.entered)
    (hstack : name ∉ stack) : HasImage files (· ∈ l.entered) name := by
  obtain ⟨m, fields, hm, -, hfields⟩ := hl.attached name hname hstack
  exact ⟨m, fields, hm, hfields.imp fun _ _ hf => hf.mono fun _ _ hn => hn.1⟩

/-- A sound state is an image of the messages that were called, if all that is known has one and none of
it waits on the stack. -/
theorem Sound.imageOf (h : Unambiguous files) (hl : Sound files stack l)
    (hknown : ∀ n, known n → n ∉ stack ∧ HasImage files known n) {names : List String}
    (hnames : ∀ name ∈ names, known name ∧ name ∈ l.entered) :
    l.schema.ImageOf files (recordOf files) names where
  called name hname := hl.declared name (hnames name hname).2
  declared name m hm := by
    rw [recordOf_eq h hm]
    exact ⟨rfl, rfl⟩
  same name name' m m' hm hm' := by
    rw [recordOf_eq h hm, recordOf_eq h hm']
    refine ⟨fun heq => ?_, fun heq => by rw [heq]; rfl⟩
    exact Registry.position_inj ((Registry.message?_ofFiles h).mpr hm)
      ((Registry.message?_ofFiles h).mpr hm') heq
  fields name hname id hreach := by
    obtain ⟨hknown', hentered⟩ := hnames name hname
    obtain ⟨m, hm⟩ := hl.declared name hentered
    rw [recordOf_eq h hm] at hreach
    -- All that is reached from a called message is known, so its fields were attached.
    obtain ⟨name', ref', hname', href', rfl⟩ :=
      hl.reaches h hknown ⟨hentered, m, hm, rfl⟩ hknown' hreach
    obtain ⟨m, fields, hm, hlookup, hfields⟩ :=
      hl.attached name' href'.1 (hknown name' hname').1
    refine ⟨name', m, fields, hm, by rw [(href'.eq_recordOf h).1], ?_, ?_⟩
    · rw [(href'.eq_recordOf h).1, recordOf_eq h hm]
      exact hlookup
    · exact hfields.imp fun _ _ hf => hf.mono fun _ _ hn => hn.eq_recordOf h
  once := hl.once

/-- Lowering gives an image of what files declare. Calls of which none fails return the records of
the names called, and what can be reached from these has the fields of the messages declared. With
more levels than there are messages, and anything in the place of what lies deeper, the calls do
just the same: messages are entered within each other no deeper than that. -/
theorem mapM_named_image (h : Unambiguous files) {names : List String} {refs : List RecordRef}
    (hrun : (names.mapM (named (.ofFiles files))).run {} = (.ok refs, l)) :
    (∃ ref, refs = names.map (fun name => ref (fullName name)) ∧
      l.schema.ImageOf files ref (names.map fullName)) ∧
    ∀ (bottom : String → Lowering RecordRef) (levels : Nat),
      (Registry.ofFiles files).messages.length < levels →
      (names.mapM fun name => descend (.ofFiles files) bottom levels (fullName name)).run {} =
        (.ok refs, l) := by
  constructor
  · -- The calls leave a sound state with an empty stack, so all that was entered has an image.
    have hafter := (mapM_agree h (message (.ofFiles files) 0) (Nat.lt_succ_self _) names
      between_nil).ends hrun
    have hknown : ∀ n ∈ l.entered, n ∉ [] ∧ HasImage files (· ∈ l.entered) n := fun n hn =>
      ⟨List.not_mem_nil, hafter.sound.hasImage hn List.not_mem_nil⟩
    refine ⟨recordOf files, ?_, hafter.sound.imageOf h hknown ?_⟩
    · have hrefs : List.Forall₂ (fun name ref => recordOf files (fullName name) = ref) names refs :=
        hafter.holds.imp fun _ _ href => (href.eq_recordOf h).1.symm
      rw [← List.forall₂_map_left_iff, List.forall₂_eq_eq_eq] at hrefs
      exact hrefs.symm
    · intro full hfull
      obtain ⟨name, hname, rfl⟩ := List.mem_map.mp hfull
      obtain ⟨ref, -, href⟩ := exists_of_forall₂ hafter.holds.flip hname
      exact ⟨href.1, href.1⟩
  · -- More levels than there are messages make no difference.
    intro bottom levels hlevels
    rw [← (mapM_agree h bottom hlevels names between_nil).same]
    exact hrun

/-- A tree that refers to itself, with a map of leaves, which are declared in a file of their own and
refer to their tree. -/
def forest : List FileDescriptor :=
  [{ name := "tree.proto", package := "wood", syntaxName := "proto3", goPackage := "", enums := []
     messages := [.mk "Tree"
      [⟨"left", 1, .optional, .message, ".wood.Tree", false, false⟩,
        ⟨"children", 2, .repeated, .message, ".wood.Tree", false, false⟩,
        ⟨"leaves", 3, .repeated, .message, ".wood.Tree.LeavesEntry", false, false⟩,
        ⟨"kind", 4, .optional, .enum, ".wood.Tree.Kind", false, false⟩]
      [.mk "LeavesEntry" [⟨"key", 1, .optional, .string, "", false, false⟩,
        ⟨"value", 2, .optional, .message, ".leaf.Leaf", false, false⟩] [] [] true]
      ["Kind"] false] },
   { name := "leaf.proto", package := "leaf", syntaxName := "proto3", goPackage := "", enums := []
     messages :=
      [.mk "Leaf" [⟨"tree", 1, .optional, .message, ".wood.Tree", false, false⟩] [] [] false] }]

/-- The tree, called with and without its leading dot. -/
def forestCalls : List String :=
  ["wood.Tree", ".leaf.Leaf", ".wood.Tree"]

/-- Three calls for two messages, of which one holds itself: two records, the first of them given
twice. -/
theorem forestCalls_image : ∃ refs l,
    (forestCalls.mapM (named (.ofFiles forest))).run {} = (.ok refs, l) ∧
    ∃ ref, refs = [ref ".wood.Tree", ref ".leaf.Leaf", ref ".wood.Tree"] ∧
      l.schema.ImageOf forest ref [".wood.Tree", ".leaf.Leaf", ".wood.Tree"] := by
  have hforest : Unambiguous forest :=
    Registry.unambiguous_of_nodup (by decide +kernel) (by decide +kernel)
  have hok : ((forestCalls.mapM (named (.ofFiles forest))).run {}).1.isOk = true := by
    decide +kernel
  have hfull : forestCalls.map fullName = [".wood.Tree", ".leaf.Leaf", ".wood.Tree"] := by
    decide +kernel
  rcases hrun : (forestCalls.mapM (named (.ofFiles forest))).run {} with ⟨_ | refs, l⟩
  · rw [hrun] at hok
    cases hok
  · obtain ⟨⟨ref, hrefs, himage⟩, -⟩ := mapM_named_image hforest hrun
    rw [hfull] at himage
    refine ⟨refs, l, rfl, ref, ?_, himage⟩
    rw [hrefs, ← Function.comp_def, ← List.map_map, hfull]
    rfl

end Agreement

end Lowering

end RecordBridge
