import RecordBridge.Descriptor.Lowering
import RecordBridge.GoType
import RecordBridge.Proofs.Descriptor.Registry
import RecordBridge.Proofs.Naming

/-!
# Go names of declarations

The Go name of a declaration is made in two steps. First the names of the messages around it and its own
are joined with underscores; then all of it is put in Pascal case, which drops underscores again. So what
the first step tells apart may be the same after the second one: a message within another one and a
message next to it get one Go type (`userStatuses_sameGoType`).

The Go types of two declarations of a file are the same exactly if the names are in Pascal case, and then
the names differ in nothing but underscores and the case of letters (`goType_eq_iff`).
-/

namespace RecordBridge

/-- Files declare a message or an enumeration under a full name, in a file of theirs and with a name in
Go. -/
inductive DeclaresType (files : List FileDescriptor) : (file name goName : String) → Prop where
  | message {name : String} {m : RegisteredMessage} (h : Declares files name m) :
    DeclaresType files m.file name m.goName
  | enum {name : String} {e : RegisteredEnum} (h : DeclaresEnum files name e) :
    DeclaresType files e.file name e.goName

/-- The names of all messages and enumerations, each within its scope, are identifiers. -/
def IdentifierNames (files : List FileDescriptor) : Prop :=
  (∀ e ∈ (Registry.ofFiles files).messages,
      IsIdentifier e.2.descriptor.name ∧ ∀ n ∈ e.2.descriptor.enums, IsIdentifier n) ∧
    ∀ f ∈ files, ∀ n ∈ f.enums, IsIdentifier n

instance (files : List FileDescriptor) : Decidable (IdentifierNames files) :=
  inferInstanceAs (Decidable (_ ∧ _))

theorem isIdentifier_append {a b : String} :
    IsIdentifier (a ++ b) ↔ IsIdentifier a ∧ IsIdentifier b := by
  rw [IsIdentifier, String.toList_append, List.forall_mem_append]
  rfl

/-- A name in Go is made of the names of messages, with underscores after those around. -/
theorem DeclaredIn.isIdentifier {scope goScope name goName : String}
    {messages : List MessageDescriptor} {d : MessageDescriptor}
    (h : DeclaredIn scope goScope messages name goName d) (hscope : IsIdentifier goScope)
    (hnames : ∀ name goName d, DeclaredIn scope goScope messages name goName d →
      IsIdentifier d.name) : IsIdentifier goName := by
  induction h with
  | here h => exact isIdentifier_append.mpr ⟨hscope, hnames _ _ _ (.here h)⟩
  | within h _ ih =>
    have houter := isIdentifier_append.mpr ⟨hscope, hnames _ _ _ (.here h)⟩
    refine ih (isIdentifier_append.mpr ⟨houter, by decide⟩) fun name goName d hd => ?_
    exact hnames _ _ _ (.within h hd)

variable {files : List FileDescriptor} {file name name' goName goName' : String}

theorem IdentifierNames.isIdentifier (h : IdentifierNames files)
    (hd : DeclaresType files file name goName) : IsIdentifier goName := by
  have hempty : IsIdentifier "" := by decide
  have hnames : ∀ f ∈ files, ∀ name goName d, DeclaredIn f.scope "" f.messages name goName d →
      IsIdentifier d.name ∧ ∀ n ∈ d.enums, IsIdentifier n := by
    intro f hf name goName d hd
    exact h.1 _ (Registry.mem_messages_ofFiles.mpr ⟨f, hf, goName, d, hd, rfl⟩)
  cases hd with
  | message hm =>
    obtain ⟨f, hf, goName, d, hd, rfl⟩ := hm
    exact hd.isIdentifier hempty fun name goName d hd => (hnames f hf name goName d hd).1
  | enum he =>
    obtain ⟨f, hf, ⟨n, hn, -, rfl⟩ | ⟨full, goName, d, hd, n, hn, -, rfl⟩⟩ := he
    · exact isIdentifier_append.mpr ⟨hempty, h.2 f hf n hn⟩
    · have houter := hd.isIdentifier hempty fun name goName d hd => (hnames f hf name goName d hd).1
      have hmark := isIdentifier_append.mpr ⟨houter, (by decide : IsIdentifier "_")⟩
      exact isIdentifier_append.mpr ⟨hmark, (hnames f hf _ _ d hd).2 n hn⟩

/-- A declaration has a Go type, which is told by the package of its file and its name in Go. -/
theorem DeclaresType.namedType (h : DeclaresType files file name goName) :
    ∃ package, (Registry.ofFiles files).package file = .ok package ∧
      namedType (Registry.ofFiles files).package goName file = .ok (.named package (pascal goName)) := by
  have hpackage : ∃ package, (Registry.ofFiles files).package file = .ok package := by
    cases h with
    | message hm =>
      obtain ⟨g, -, hg⟩ := Registry.package_of_declares hm
      exact ⟨_, hg⟩
    | enum he =>
      obtain ⟨g, -, hg⟩ := Registry.package_of_declaresEnum he
      exact ⟨_, hg⟩
  obtain ⟨package, hpackage⟩ := hpackage
  exact ⟨package, hpackage, by rw [RecordBridge.namedType, hpackage]⟩

/-- Two declarations of a file have one Go type exactly if their names are the same in Pascal case. They
differ then in underscores and in the case of letters only. -/
theorem goType_eq_iff (hfiles : IdentifierNames files) (h : DeclaresType files file name goName)
    (h' : DeclaresType files file name' goName') :
    (namedType (Registry.ofFiles files).package goName file =
        namedType (Registry.ofFiles files).package goName' file ↔ pascal goName = pascal goName') ∧
      (pascal goName = pascal goName' →
        Text.sameIgnoringCase (squeezed goName) (squeezed goName') = true) := by
  constructor
  · obtain ⟨package, hpackage, hgo⟩ := h.namedType
    obtain ⟨package', hpackage', hgo'⟩ := h'.namedType
    obtain rfl := Except.ok.inj (hpackage.symm.trans hpackage')
    rw [hgo, hgo', Except.ok.injEq, GoType.named.injEq]
    exact and_iff_right rfl
  · intro heq
    have hsame := (hfiles.isIdentifier h).sameIgnoringCase_squeezed
    have hsame' := (hfiles.isIdentifier h').sameIgnoringCase_squeezed
    rw [← heq, sameIgnoringCase_comm] at hsame'
    exact sameIgnoringCase_trans hsame hsame'

/-- A status within the user, another one next to it, and a profile with both. -/
def userStatuses : List FileDescriptor :=
  [{ name := "api.proto", package := "api", syntaxName := "proto3", goPackage := "", enums := []
     messages :=
      [.mk "User" []
          [.mk "Status" [⟨"code", 1, .optional, .int32, "", false, false⟩] [] [] false] [] false,
        .mk "UserStatus" [⟨"code", 1, .optional, .int32, "", false, false⟩] [] [] false,
        .mk "Profile" [⟨"first", 1, .optional, .message, ".api.User.Status", false, false⟩,
          ⟨"second", 2, .optional, .message, ".api.UserStatus", false, false⟩] [] [] false] }]

/-- The two messages of a status are different records of one file, and have one Go type. -/
theorem userStatuses_sameGoType :
    ((Registry.ofFiles userStatuses).messages.map (·.1) ++
      (Registry.ofFiles userStatuses).enums.map (·.1)).Nodup ∧
    IdentifierNames userStatuses ∧
    ∃ ref ref' : RecordRef,
      ((Registry.ofFiles userStatuses).lower "api.User.Status" {}).1 = .ok ref ∧
      ((Registry.ofFiles userStatuses).lower "api.UserStatus" {}).1 = .ok ref' ∧
      ref ≠ ref' ∧ ref.file = ref'.file ∧
      (FieldType.record ref).goType (Registry.ofFiles userStatuses).package =
        .ok (.named "api" "UserStatus") ∧
      (FieldType.record ref').goType (Registry.ofFiles userStatuses).package =
        .ok (.named "api" "UserStatus") := by
  refine ⟨by decide +kernel, by decide +kernel, ⟨3, "User_Status", "api.proto"⟩,
    ⟨1, "UserStatus", "api.proto"⟩, ?_⟩
  decide +kernel

end RecordBridge
