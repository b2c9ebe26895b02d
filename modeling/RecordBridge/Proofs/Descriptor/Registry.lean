import Mathlib.Data.List.Nodup
import RecordBridge.Descriptor.Registry

/-!
# What files declare

Which messages and enumerations files declare under which full names, said by rules, and that the
registry of the files finds exactly these where no full name is declared in two ways
(`message?_ofFiles`, `enum?_ofFiles`). Messages are told apart by their positions in the registry
(`position_inj`), and the file of each declaration has a Go package (`package_of_declares`,
`package_of_declaresEnum`).
-/

namespace RecordBridge

namespace MessageDescriptor

/-- The messages declared within a message. -/
def nested : MessageDescriptor → List MessageDescriptor
  | .mk _ _ nested _ _ => nested

/-- The enumerations declared within a message. -/
def enums : MessageDescriptor → List String
  | .mk _ _ _ enums _ => enums

end MessageDescriptor

/-! ## Declarations -/

/-- A message is declared in a scope, by itself or within another message, under a full name and a
name in Go. -/
inductive DeclaredIn : (scope goScope : String) → List MessageDescriptor →
    (name goName : String) → MessageDescriptor → Prop where
  | here {scope goScope : String} {messages : List MessageDescriptor} {m : MessageDescriptor}
    (h : m ∈ messages) :
    DeclaredIn scope goScope messages (scope ++ "." ++ m.name) (goScope ++ m.name) m
  | within {scope goScope name goName : String} {messages : List MessageDescriptor}
    {m inner : MessageDescriptor} (h : m ∈ messages)
    (hinner : DeclaredIn (scope ++ "." ++ m.name) (goScope ++ m.name ++ "_") m.nested name goName
      inner) :
    DeclaredIn scope goScope messages name goName inner

/-- What some messages declare is declared also where there are more of them. -/
theorem DeclaredIn.mono {scope goScope name goName : String}
    {messages others : List MessageDescriptor} {d : MessageDescriptor}
    (h : DeclaredIn scope goScope messages name goName d) (hsub : messages ⊆ others) :
    DeclaredIn scope goScope others name goName d := by
  cases h with
  | here h => exact .here (hsub h)
  | within h hinner => exact .within (hsub h) hinner

/-- Files declare a message under a full name. -/
def Declares (files : List FileDescriptor) (name : String) (m : RegisteredMessage) : Prop :=
  ∃ f ∈ files, ∃ goName d, DeclaredIn f.scope "" f.messages name goName d ∧
    m = ⟨d, f.name, goName, f.isProto3⟩

/-- Files declare an enumeration under a full name: by itself, or within a message. -/
def DeclaresEnum (files : List FileDescriptor) (name : String) (e : RegisteredEnum) : Prop :=
  ∃ f ∈ files,
    (∃ n ∈ f.enums, name = f.scope ++ "." ++ n ∧ e = ⟨f.name, "" ++ n⟩) ∨
    ∃ full goName d, DeclaredIn f.scope "" f.messages full goName d ∧
      ∃ n ∈ d.enums, name = full ++ "." ++ n ∧ e = ⟨f.name, goName ++ "_" ++ n⟩

/-- No full name is declared in two ways. -/
structure Unambiguous (files : List FileDescriptor) : Prop where
  messages : ∀ name m m', Declares files name m → Declares files name m' → m = m'
  enums : ∀ name e e', DeclaresEnum files name e → DeclaresEnum files name e' → e = e'

/-! ## What is registered -/

namespace Registry

section Listings

variable {file scope goScope name : String} {proto3 : Bool} {messages : List MessageDescriptor}

/-- The messages of a scope are those of its members. -/
theorem messagesIn_eq_flatMap : messagesIn file proto3 scope goScope messages =
    messages.flatMap (messagesOf file proto3 scope goScope) := by
  induction messages with
  | nil => rfl
  | cons m rest ih => rw [messagesIn, ih, List.flatMap_cons]

/-- So are the enums within messages. -/
theorem enumsWithin_eq_flatMap : enumsWithin file scope goScope messages =
    messages.flatMap (enumsOf file scope goScope) := by
  induction messages with
  | nil => rfl
  | cons m rest ih => rw [enumsWithin, ih, List.flatMap_cons]

/-- A message comes after those that are nested in it. -/
theorem messagesOf_eq (m : MessageDescriptor) : messagesOf file proto3 scope goScope m =
    messagesIn file proto3 (scope ++ "." ++ m.name) (goScope ++ m.name ++ "_") m.nested ++
      [(scope ++ "." ++ m.name, ⟨m, file, goScope ++ m.name, proto3⟩)] := by
  cases m
  rfl

theorem enumsOf_eq (m : MessageDescriptor) : enumsOf file scope goScope m =
    enumsIn file (scope ++ "." ++ m.name) (goScope ++ m.name ++ "_") m.enums ++
      enumsWithin file (scope ++ "." ++ m.name) (goScope ++ m.name ++ "_") m.nested := by
  cases m
  rfl

/-- What is declared is registered, by induction on the declaration. -/
theorem mem_messagesIn_of_declaredIn {goName : String} {d : MessageDescriptor}
    (h : DeclaredIn scope goScope messages name goName d) :
    (name, ⟨d, file, goName, proto3⟩) ∈ messagesIn file proto3 scope goScope messages := by
  induction h with
  | @here _ _ _ m h =>
    rw [messagesIn_eq_flatMap]
    refine List.mem_flatMap.mpr ⟨m, h, ?_⟩
    rw [messagesOf_eq]
    exact List.mem_append_right _ (List.mem_singleton_self _)
  | @within _ _ _ _ _ m _ h _ ih =>
    rw [messagesIn_eq_flatMap]
    refine List.mem_flatMap.mpr ⟨m, h, ?_⟩
    rw [messagesOf_eq]
    exact List.mem_append_left _ ih

/-- So are the enums of what is declared. -/
theorem mem_enumsWithin_of_declaredIn {goName n : String} {d : MessageDescriptor}
    (h : DeclaredIn scope goScope messages name goName d) (hn : n ∈ d.enums) :
    (name ++ "." ++ n, ⟨file, goName ++ "_" ++ n⟩) ∈ enumsWithin file scope goScope messages := by
  induction h with
  | @here _ _ _ m h =>
    rw [enumsWithin_eq_flatMap]
    refine List.mem_flatMap.mpr ⟨m, h, ?_⟩
    rw [enumsOf_eq]
    exact List.mem_append_left _ (List.mem_map.mpr ⟨n, hn, rfl⟩)
  | @within _ _ _ _ _ m _ h _ ih =>
    rw [enumsWithin_eq_flatMap]
    refine List.mem_flatMap.mpr ⟨m, h, ?_⟩
    rw [enumsOf_eq]
    exact List.mem_append_right _ (ih hn)

mutual

/-- What is registered for a message is declared in it, by recursion on the nesting. -/
theorem declaredIn_of_mem_messagesOf {m : RegisteredMessage} :
    ∀ (d : MessageDescriptor) (scope goScope : String),
      (name, m) ∈ messagesOf file proto3 scope goScope d →
        ∃ goName inner, DeclaredIn scope goScope [d] name goName inner ∧
          m = ⟨inner, file, goName, proto3⟩
  | .mk own fields nested enums isMapEntry, scope, goScope, h => by
    rcases List.mem_append.mp h with h | h
    · obtain ⟨goName, inner, hinner, rfl⟩ := declaredIn_of_mem_messagesIn nested _ _ h
      exact ⟨goName, inner, .within (List.mem_singleton_self _) hinner, rfl⟩
    · obtain ⟨rfl, rfl⟩ := Prod.mk.inj (List.mem_singleton.mp h)
      exact ⟨_, _, .here (List.mem_singleton_self _), rfl⟩

theorem declaredIn_of_mem_messagesIn {m : RegisteredMessage} :
    ∀ (messages : List MessageDescriptor) (scope goScope : String),
      (name, m) ∈ messagesIn file proto3 scope goScope messages →
        ∃ goName inner, DeclaredIn scope goScope messages name goName inner ∧
          m = ⟨inner, file, goName, proto3⟩
  | [], _, _, h => absurd h List.not_mem_nil
  | d :: rest, scope, goScope, h => by
    rcases List.mem_append.mp h with h | h
    · obtain ⟨goName, inner, hinner, rfl⟩ := declaredIn_of_mem_messagesOf d scope goScope h
      exact ⟨goName, inner, hinner.mono (by simp), rfl⟩
    · obtain ⟨goName, inner, hinner, rfl⟩ := declaredIn_of_mem_messagesIn rest scope goScope h
      exact ⟨goName, inner, hinner.mono (List.subset_cons_self _ _), rfl⟩

end

mutual

theorem declaredIn_of_mem_enumsOf {e : RegisteredEnum} :
    ∀ (d : MessageDescriptor) (scope goScope : String),
      (name, e) ∈ enumsOf file scope goScope d →
        ∃ full goName inner, DeclaredIn scope goScope [d] full goName inner ∧
          ∃ n ∈ inner.enums, name = full ++ "." ++ n ∧ e = ⟨file, goName ++ "_" ++ n⟩
  | .mk own fields nested enums isMapEntry, scope, goScope, h => by
    rcases List.mem_append.mp h with h | h
    · obtain ⟨n, hn, heq⟩ := List.mem_map.mp h
      obtain ⟨rfl, rfl⟩ := Prod.mk.inj heq
      exact ⟨_, _, _, .here (List.mem_singleton_self _), n, hn, rfl, rfl⟩
    · obtain ⟨full, goName, inner, hinner, hn⟩ := declaredIn_of_mem_enumsWithin nested _ _ h
      exact ⟨full, goName, inner, .within (List.mem_singleton_self _) hinner, hn⟩

theorem declaredIn_of_mem_enumsWithin {e : RegisteredEnum} :
    ∀ (messages : List MessageDescriptor) (scope goScope : String),
      (name, e) ∈ enumsWithin file scope goScope messages →
        ∃ full goName inner, DeclaredIn scope goScope messages full goName inner ∧
          ∃ n ∈ inner.enums, name = full ++ "." ++ n ∧ e = ⟨file, goName ++ "_" ++ n⟩
  | [], _, _, h => absurd h List.not_mem_nil
  | d :: rest, scope, goScope, h => by
    rcases List.mem_append.mp h with h | h
    · obtain ⟨full, goName, inner, hinner, hn⟩ := declaredIn_of_mem_enumsOf d scope goScope h
      exact ⟨full, goName, inner, hinner.mono (by simp), hn⟩
    · obtain ⟨full, goName, inner, hinner, hn⟩ := declaredIn_of_mem_enumsWithin rest scope goScope h
      exact ⟨full, goName, inner, hinner.mono (List.subset_cons_self _ _), hn⟩

end

end Listings

section Files

variable {files : List FileDescriptor} {name : String}

/-- What is registered for some files is what they declare. -/
theorem mem_messages_ofFiles {m : RegisteredMessage} :
    (name, m) ∈ (ofFiles files).messages ↔ Declares files name m := by
  rw [ofFiles, List.mem_reverse, List.mem_flatMap]
  constructor
  · rintro ⟨f, hf, h⟩
    obtain ⟨goName, d, hd, rfl⟩ := declaredIn_of_mem_messagesIn _ _ _ h
    exact ⟨f, hf, goName, d, hd, rfl⟩
  · rintro ⟨f, hf, goName, d, hd, rfl⟩
    exact ⟨f, hf, mem_messagesIn_of_declaredIn hd⟩

/-- Enums are declared in a file, or within one of its messages. -/
theorem mem_enums_ofFiles {e : RegisteredEnum} :
    (name, e) ∈ (ofFiles files).enums ↔ DeclaresEnum files name e := by
  rw [ofFiles, List.mem_reverse, List.mem_flatMap]
  constructor
  · rintro ⟨f, hf, h⟩
    refine ⟨f, hf, ?_⟩
    rcases List.mem_append.mp h with h | h
    · obtain ⟨n, hn, heq⟩ := List.mem_map.mp h
      obtain ⟨rfl, rfl⟩ := Prod.mk.inj heq
      exact .inl ⟨n, hn, rfl, rfl⟩
    · exact .inr (declaredIn_of_mem_enumsWithin _ _ _ h)
  · rintro ⟨f, hf, ⟨n, hn, rfl, rfl⟩ | ⟨full, goName, d, hd, n, hn, rfl, rfl⟩⟩
    · exact ⟨f, hf, List.mem_append_left _ (List.mem_map.mpr ⟨n, hn, rfl⟩)⟩
    · exact ⟨f, hf, List.mem_append_right _ (mem_enumsWithin_of_declaredIn hd hn)⟩

/-- A key of one value only is looked up to this value. -/
theorem lookup_eq_some_of_mem {α : Type} {l : List (String × α)} {a : α} (h : (name, a) ∈ l)
    (hunique : ∀ b, (name, b) ∈ l → b = a) : l.lookup name = some a := by
  cases hlookup : l.lookup name with
  | none => simpa using List.lookup_eq_none_iff.mp hlookup _ h
  | some b =>
    obtain ⟨l₁, l₂, rfl, -⟩ := List.lookup_eq_some_iff.mp hlookup
    rw [hunique b (by simp)]

/-- What is found under a name is a member of the list. -/
theorem mem_of_lookup {α : Type} {l : List (String × α)} {a : α} (h : l.lookup name = some a) :
    (name, a) ∈ l := by
  obtain ⟨l₁, l₂, rfl, -⟩ := List.lookup_eq_some_iff.mp h
  simp

/-- The registry finds the messages that the files declare. -/
theorem message?_ofFiles (h : Unambiguous files) {m : RegisteredMessage} :
    (ofFiles files).message? name = some m ↔ Declares files name m := by
  rw [message?]
  constructor
  · exact fun hlookup => mem_messages_ofFiles.mp (mem_of_lookup hlookup)
  · intro hm
    refine lookup_eq_some_of_mem (mem_messages_ofFiles.mpr hm) fun m' hm' => ?_
    exact h.messages name m' m (mem_messages_ofFiles.mp hm') hm

/-- The registry finds the enumerations that the files declare. -/
theorem enum?_ofFiles (h : Unambiguous files) {e : RegisteredEnum} :
    (ofFiles files).enum? name = some e ↔ DeclaresEnum files name e := by
  rw [enum?]
  constructor
  · exact fun hlookup => mem_enums_ofFiles.mp (mem_of_lookup hlookup)
  · intro he
    refine lookup_eq_some_of_mem (mem_enums_ofFiles.mpr he) fun e' he' => ?_
    exact h.enums name e' e (mem_enums_ofFiles.mp he') he

/-- Files whose declarations have different full names are unambiguous. -/
theorem unambiguous_of_nodup (hmessages : ((ofFiles files).messages.map (·.1)).Nodup)
    (henums : ((ofFiles files).enums.map (·.1)).Nodup) : Unambiguous files := by
  have hunique : ∀ {α : Type} {l : List (String × α)} {name a b}, (l.map (·.1)).Nodup →
      (name, a) ∈ l → (name, b) ∈ l → a = b := by
    intro α l name a b hl ha hb
    exact (Prod.mk.inj (List.inj_on_of_nodup_map hl ha hb rfl)).2
  constructor
  · intro name m m' hm hm'
    exact hunique hmessages (mem_messages_ofFiles.mpr hm) (mem_messages_ofFiles.mpr hm')
  · intro name e e' he he'
    exact hunique henums (mem_enums_ofFiles.mpr he) (mem_enums_ofFiles.mpr he')

/-- Every file has a Go package, that of the last file of its name. -/
theorem package_of_mem {f : FileDescriptor} (hf : f ∈ files) :
    ∃ g ∈ files, (ofFiles files).package f.name = .ok g.goPackageName := by
  cases hlookup : (ofFiles files).packages.lookup f.name with
  | none =>
    have hmem : (f.name, f.goPackageName) ∈ (ofFiles files).packages :=
      List.mem_reverse.mpr (List.mem_map.mpr ⟨f, hf, rfl⟩)
    simpa using List.lookup_eq_none_iff.mp hlookup _ hmem
  | some package =>
    obtain ⟨g, hg, heq⟩ := List.mem_map.mp (List.mem_reverse.mp (mem_of_lookup hlookup))
    refine ⟨g, hg, ?_⟩
    rw [Registry.package, hlookup, ← (Prod.mk.inj heq).2]

/-- The file of a declared message has a package. -/
theorem package_of_declares {m : RegisteredMessage} (h : Declares files name m) :
    ∃ g ∈ files, (ofFiles files).package m.file = .ok g.goPackageName := by
  obtain ⟨f, hf, goName, d, -, rfl⟩ := h
  exact package_of_mem hf

/-- And so has that of a declared enum. -/
theorem package_of_declaresEnum {e : RegisteredEnum} (h : DeclaresEnum files name e) :
    ∃ g ∈ files, (ofFiles files).package e.file = .ok g.goPackageName := by
  obtain ⟨f, hf, ⟨n, -, -, rfl⟩ | ⟨full, goName, d, -, n, -, -, rfl⟩⟩ := h
  · exact package_of_mem hf
  · exact package_of_mem hf

end Files

/-- Registered messages of one position have one name. -/
theorem position_inj {r : Registry} {name name' : String} {m m' : RegisteredMessage}
    (h : r.message? name = some m) (h' : r.message? name' = some m')
    (heq : r.position name = r.position name') : name = name' := by
  have hname : ∀ {name m}, r.message? name = some m → ∃ hlt : r.position name < r.messages.length,
      (r.messages[r.position name]).1 = name := by
    intro name m h
    have hlt : r.position name < r.messages.length :=
      List.findIdx_lt_length_of_exists ⟨_, mem_of_lookup h, beq_self_eq_true name⟩
    have hfound : (r.messages[r.position name].1 == name) = true :=
      List.findIdx_getElem (p := fun e : String × RegisteredMessage => e.1 == name)
    exact ⟨hlt, eq_of_beq hfound⟩
  obtain ⟨hlt, hfound⟩ := hname h
  obtain ⟨hlt', hfound'⟩ := hname h'
  rw [← hfound, ← hfound']
  congr 2

end Registry

end RecordBridge
