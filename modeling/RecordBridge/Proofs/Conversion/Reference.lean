import RecordBridge.Proofs.Conversion.Derivation
import RecordBridge.Proofs.Conversion.Sources
import RecordBridge.Proofs.Execution.Run
import RecordBridge.Proofs.Naming

/-!
# The reference conversion

What a conversion without mappings should leave in the target, said by rules over the values alone:
which values a source can hold by its schema (`Fits`), and what becomes of them (`Converted`). Each
target field takes its value from the source field of the same name, if there is one.
-/

namespace RecordBridge

/-! ## Values of a schema -/

/-- Types of leaves that cannot be nil: all but bytes. -/
def FieldType.isPlain : FieldType → Bool
  | .alias _ _ _ | .record _ | .list _ | .set _ _ | .map _ _ | .binary => false
  | _ => true

/-- The values of a type, held as they are or, if they are optional, by pointer where they could not
be nil. A map whose keys cannot be keys in Go has no values here but nil and the empty map. -/
inductive Fits (s : Schema) : (optional : Bool) → FieldType → GoValue → Prop where
  | nothing {optional : Bool} {t : FieldType} (h : optional = true ∨ t.root.isPlain = false) :
    Fits s optional t .absent
  | plain {t : FieldType} {spelling : String} (hplain : t.root.isPlain = true) :
    Fits s false t (.plain (.leaf t.root spelling))
  | pointer {t : FieldType} {spelling : String} (hplain : t.root.isPlain = true) :
    Fits s true t (.pointer (.leaf t.root spelling))
  | bytes {optional : Bool} {t : FieldType} {spelling : String} (hroot : t.root = .binary) :
    Fits s optional t (.plain (.leaf .binary spelling))
  | record {optional : Bool} {t : FieldType} {ref : RecordRef} {fields : String → GoValue}
    (hroot : t.root = .record ref)
    (hfields : ∀ f ∈ s.fields ref, Fits s (!f.required) f.type (fields (pascal f.name))) :
    Fits s optional t (.record fields)
  | list {optional : Bool} {t element : FieldType} {length : Nat} {item : Nat → GoValue}
    (hroot : t.root = .list element) (hitems : ∀ i < length, Fits s false element (item i)) :
    Fits s optional t (.list length item)
  | slice {optional : Bool} {t element : FieldType} {form : SetForm} {length : Nat}
    {item : Nat → GoValue} (hroot : t.root = .set element form)
    (hkeyed : isKeyed element form = false) (hitems : ∀ i < length, Fits s false element (item i)) :
    Fits s optional t (.list length item)
  | keys {optional : Bool} {t element : FieldType} {form : SetForm} {keys : List Datum}
    {entry : Datum → GoValue} (hroot : t.root = .set element form)
    (hkeyed : isKeyed element form = true) (hnodup : keys.Nodup)
    (hkeys : ∀ k ∈ keys, Fits s false element (.plain k)) :
    Fits s optional t (.table keys entry)
  | map {optional : Bool} {t key value : FieldType} {keys : List Datum} {entry : Datum → GoValue}
    (hroot : t.root = .map key value) (hnodup : keys.Nodup)
    (hkeys : ∀ k ∈ keys, Fits s false key (.plain k))
    (hentries : ∀ k ∈ keys, Fits s false value (entry k)) :
    Fits s optional t (.table keys entry)

/-- The values of a record with some fields. -/
def FieldsFit (s : Schema) (fields : List Field) (values : String → GoValue) : Prop :=
  ∀ f ∈ fields, Fits s (!f.required) f.type (values (pascal f.name))

/-- A record value that is set has values for its fields. -/
theorem Fits.exists_record {s : Schema} {optional : Bool} {t : FieldType} {ref : RecordRef}
    {u : GoValue} (h : Fits s optional t u) (hroot : t.root = .record ref) (hset : u.isSet = true) :
    ∃ vs, u = .record vs ∧ FieldsFit s (s.fields ref) vs := by
  cases h with
  | nothing => cases hset
  | plain hplain | pointer hplain => rw [hroot] at hplain; cases hplain
  | record hroot' hfields =>
    rw [hroot] at hroot'
    cases hroot'
    exact ⟨_, rfl, hfields⟩
  | bytes hroot' | list hroot' | slice hroot' | keys hroot' | map hroot' =>
    rw [hroot] at hroot'
    cases hroot'

/-! ## The conversion -/

/-- A list value, or nil for an empty one. -/
def GoValue.AsList (v : GoValue) (length : Nat) (item : Nat → GoValue) : Prop :=
  v = .absent ∧ length = 0 ∨ v = .list length item

/-- A table value, or nil for an empty one. -/
def GoValue.AsTable (v : GoValue) (keys : List Datum) (entry : Datum → GoValue) : Prop :=
  v = .absent ∧ keys = [] ∨ v = .table keys entry

/-- A value of a leaf from a source that is required or not, for a target that is required or not.
Only an optional target holds a pointer; without a source a required one is left untouched. -/
def heldLeaf : (sourceRequired targetRequired : Bool) → GoValue → GoValue
  | true, false, v => .pointer v.datum
  | false, true, .pointer d => .plain d
  | false, true, _ => .absent
  | _, _, v => v

/-- The value of a leaf in a target field. Bytes are held in the same way on both sides. -/
def convertedLeaf (target source : Field) (v : GoValue) : GoValue :=
  if target.type.root = .binary then v else heldLeaf source.required target.required v

mutual

/-- A value `w` of a target type is what a value `v` of a source type is converted to. A nil record
becomes nil, and a nil container an empty one. -/
inductive Converted (s : Schema) : (target source : FieldType) → (v w : GoValue) → Prop where
  | leaf {t u : FieldType} {v : GoValue} (hleaf : t.root.isLeaf = true) : Converted s t u v v
  | noRecord {t u : FieldType} {target : RecordRef} (hroot : t.root = .record target) :
    Converted s t u .absent .absent
  | record {t u : FieldType} {target source : RecordRef} {v w : String → GoValue}
    (hroot : t.root = .record target) (hsource : u.root = .record source)
    (hfields : ∀ f ∈ s.fields target,
      FieldConverted s (s.fields source) v f (w (pascal f.name)))
    (hothers : ∀ name, (∀ f ∈ s.fields target, pascal f.name ≠ name) → w name = .absent) :
    Converted s t u (.record v) (.record w)
  | list {t u element source : FieldType} {v : GoValue} {length : Nat} {item item' : Nat → GoValue}
    (hroot : t.root = .list element) (hsource : u.root = .list source)
    (hv : v.AsList length item)
    (hitems : ∀ i < length, Converted s element source (item i) (item' i)) :
    Converted s t u v (.list length item')
  /-- A set held as a slice on both sides: element by element. -/
  | slice {t u element source : FieldType} {form form' : SetForm} {v : GoValue} {length : Nat}
    {item item' : Nat → GoValue} (hroot : t.root = .set element form)
    (hkeyed : isKeyed element form = false) (hsource : u.root = .set source form')
    (hkeyed' : isKeyed source form' = false) (hv : v.AsList length item)
    (hitems : ∀ i < length, Converted s element source (item i) (item' i)) :
    Converted s t u v (.list length item')
  /-- A set that becomes the keys of a map: the same elements. -/
  | keysOfSlice {t u element source : FieldType} {form form' : SetForm} {v : GoValue}
    {length : Nat} {item : Nat → GoValue} {keys : List Datum} {entry : Datum → GoValue}
    (hroot : t.root = .set element form) (hkeyed : isKeyed element form = true)
    (hsource : u.root = .set source form') (hkeyed' : isKeyed source form' = false)
    (hv : v.AsList length item) (hnodup : keys.Nodup)
    (hkeys : ∀ k, k ∈ keys ↔ ∃ i < length, item i = .plain k) :
    Converted s t u v (.table keys entry)
  | keysOfKeys {t u element source : FieldType} {form form' : SetForm} {v : GoValue}
    {keys keys' : List Datum} {entry entry' : Datum → GoValue}
    (hroot : t.root = .set element form) (hkeyed : isKeyed element form = true)
    (hsource : u.root = .set source form') (hkeyed' : isKeyed source form' = true)
    (hv : v.AsTable keys entry) (hkeys : keys'.Perm keys) :
    Converted s t u v (.table keys' entry')
  /-- A slice made from the keys of a map holds them in any order. -/
  | sliceOfKeys {t u element source : FieldType} {form form' : SetForm} {v : GoValue}
    {keys keys' : List Datum} {entry : Datum → GoValue} {item : Nat → GoValue}
    (hroot : t.root = .set element form) (hkeyed : isKeyed element form = false)
    (hsource : u.root = .set source form') (hkeyed' : isKeyed source form' = true)
    (hv : v.AsTable keys entry) (hkeys : keys'.Perm keys)
    (hitems : ∀ i k, keys'[i]? = some k → item i = .plain k) :
    Converted s t u v (.list keys'.length item)
  | map {t u key value key' value' : FieldType} {v : GoValue} {keys keys' : List Datum}
    {entry entry' : Datum → GoValue} (hroot : t.root = .map key value)
    (hsource : u.root = .map key' value') (hv : v.AsTable keys entry) (hkeys : keys'.Perm keys)
    (hentries : ∀ k ∈ keys, Converted s value value' (entry k) (entry' k)) :
    Converted s t u v (.table keys' entry')

/-- A value is what a target field is filled with from the values of some source fields. -/
inductive FieldConverted (s : Schema) :
    (sources : List Field) → (v : String → GoValue) → Field → GoValue → Prop where
  | unmatched {sources : List Field} {v : String → GoValue} {f : Field}
    (h : ∀ g ∈ sources, ¬f.MatchedBy g) : FieldConverted s sources v f .absent
  | leaf {sources : List Field} {v : String → GoValue} {f g : Field} (hg : g ∈ sources)
    (hname : f.MatchedBy g) (hleaf : f.type.root.isLeaf = true) :
    FieldConverted s sources v f (convertedLeaf f g (v (pascal g.name)))
  | other {sources : List Field} {v : String → GoValue} {f g : Field} {w : GoValue}
    (hg : g ∈ sources) (hname : f.MatchedBy g) (hleaf : f.type.root.isLeaf = false)
    (h : Converted s f.type g.type (v (pascal g.name)) w) : FieldConverted s sources v f w

end

/-! ## Regular schemas -/

namespace ConversionRequest

/-- A group of fields: those at the top of either side, and those of a record. -/
inductive Group (r : ConversionRequest) : List Field → Prop where
  | source : Group r r.source
  | target : Group r r.target
  | record (ref : RecordRef) : Group r (r.schema.fields ref)

/-- A target type meets the source type that it is converted from, by the names of the fields. -/
inductive Meets (r : ConversionRequest) : (target source : FieldType) → Prop where
  | top {f g : Field} (hf : f ∈ r.target) (hg : g ∈ r.source) (hname : f.MatchedBy g) :
    Meets r f.type g.type
  | field {t u : FieldType} {target source : RecordRef} {f g : Field} (h : Meets r t u)
    (ht : t.root = .record target) (hu : u.root = .record source)
    (hf : f ∈ r.schema.fields target) (hg : g ∈ r.schema.fields source)
    (hname : f.MatchedBy g) : Meets r f.type g.type
  | list {t u element source : FieldType} (h : Meets r t u) (ht : t.root = .list element)
    (hu : u.root = .list source) : Meets r element source
  | set {t u element source : FieldType} {form form' : SetForm} (h : Meets r t u)
    (ht : t.root = .set element form) (hu : u.root = .set source form') : Meets r element source
  | map {t u key value key' value' : FieldType} (h : Meets r t u) (ht : t.root = .map key value)
    (hu : u.root = .map key' value') : Meets r value value'

/-- Names are identifiers, the Go names of the fields of a group differ even if the case of letters
does not count, and leaves that meet have the same type behind aliases. -/
structure Regular (r : ConversionRequest) : Prop where
  names : ∀ fields, r.Group fields → ∀ f ∈ fields, IsIdentifier f.name
  distinct : ∀ fields, r.Group fields → fields.Pairwise fun f g =>
    Text.sameIgnoringCase (pascal f.name) (pascal g.name) = false
  leaves : ∀ t u, r.Meets t u → t.root.isLeaf = true → u.root = t.root

end ConversionRequest

end RecordBridge
