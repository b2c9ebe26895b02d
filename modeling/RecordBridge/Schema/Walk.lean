import RecordBridge.Naming.Identifier
import RecordBridge.Schema.Basic

/-!
# Walking nested fields

The visits of a walk through a group of fields and the records behind them, in preorder. A field is
passed over while it is on the current path, so walks through recursive records end.

There can be many more visits than fields. `visits` lists them all; `forVisits` and `walk` look for
a visit only when it is due, and agree with the list (`forVisits_eq_forM`, `walk_eq_tour`).
-/

namespace RecordBridge

/-- A field met on a walk, with the fields that were entered to reach it, outermost first. -/
structure Visit where
  path : List Field
  field : Field
  deriving DecidableEq, Repr

namespace Visit

/-- The path in Go names, with a dot before each. -/
def goPath (v : Visit) : String :=
  String.join (v.path.map fun f => "." ++ pascal f.name)

/-- The path in schema names, with a dot before each. -/
def schemaPath (v : Visit) : String :=
  String.join (v.path.map fun f => "." ++ f.name)

/-- The Go names on the path and of the field itself. -/
def goNames (v : Visit) : List String :=
  (v.path ++ [v.field]).map fun f => pascal f.name

end Visit

namespace Schema

/-- The visits below a path. At most `depth` more fields are put on the path. -/
def visitsBelow (s : Schema) : (depth : Nat) → (path : List Field) → List Field → List Visit
  | 0, _, _ => []
  | depth + 1, path, fields =>
    fields.flatMap fun field =>
      if path.any (·.id == field.id) then []
      else ⟨path, field⟩ ::
        match field.type.record? with
        | some ref => s.visitsBelow depth (path ++ [field]) (s.fields ref)
        | none => []

/-- The number of fields that a schema tells. -/
def fieldCount (s : Schema) : Nat :=
  (s.records.flatMap (·.2)).length

/-- All visits of the walk through a group of fields. No field is twice on a path, so a path is no
longer than there are fields. -/
def visits (s : Schema) (fields : List Field) : List Visit :=
  s.visitsBelow (fields.length + s.fieldCount + 1) [] fields

/-- Acts on the visits below a path, one by one, without listing them first: an action that stops
cuts the walk short. At most `depth` more fields are put on the path. -/
def forVisitsBelow {m : Type → Type} [Monad m] (s : Schema) (act : Visit → m Unit) :
    (depth : Nat) → (path : List Field) → List Field → m Unit
  | 0, _, _ => pure ()
  | depth + 1, path, fields =>
    fields.forM fun field =>
      if path.any (·.id == field.id) then pure ()
      else do
        act ⟨path, field⟩
        match field.type.record? with
        | some ref => s.forVisitsBelow act depth (path ++ [field]) (s.fields ref)
        | none => pure ()

/-- Acts on all visits of the walk through a group of fields, one by one. -/
def forVisits {m : Type → Type} [Monad m] (s : Schema) (act : Visit → m Unit)
    (fields : List Field) : m Unit :=
  s.forVisitsBelow act (fields.length + s.fieldCount + 1) [] fields

/-- The visits below a path that are acted on are those listed. -/
theorem forVisitsBelow_eq_forM {m : Type → Type} [Monad m] [LawfulMonad m] (s : Schema)
    (act : Visit → m Unit) (depth : Nat) (path fields : List Field) :
    s.forVisitsBelow act depth path fields = (s.visitsBelow depth path fields).forM act := by
  induction depth generalizing path fields with
  | zero => simp [forVisitsBelow, visitsBelow]
  | succ depth ih =>
    simp only [forVisitsBelow, visitsBelow]
    induction fields with
    | nil => simp
    | cons field rest ihRest =>
      simp only [List.forM_eq_forM] at ihRest ih ⊢
      rw [List.flatMap_cons, List.forM_append, List.forM_cons, ihRest]
      congr 1
      split
      · rfl
      · rw [List.forM_cons]
        cases field.type.record? with
        | none => rfl
        | some ref => simp only [ih]

/-- The visits that are acted on are those listed. -/
theorem forVisits_eq_forM {m : Type → Type} [Monad m] [LawfulMonad m] (s : Schema)
    (act : Visit → m Unit) (fields : List Field) :
    s.forVisits act fields = (s.visits fields).forM act :=
  s.forVisitsBelow_eq_forM act _ [] fields

/-- Shows visits to a visitor, one by one, until it asks to stop. Tells its last state and whether
it did ask. -/
def tour {σ : Type} (visitor : σ → Visit → σ × Bool) (state : σ) : List Visit → σ × Bool
  | [] => (state, false)
  | v :: rest =>
    match visitor state v with
    | (state, true) => (state, true)
    | (state, false) => tour visitor state rest

/-- Shows one visit to a visitor; asking to stop is the exception. -/
def showVisit {σ : Type} (visitor : σ → Visit → σ × Bool) (v : Visit) :
    StateT σ (Except σ) Unit :=
  fun state => match visitor state v with
    | (state, true) => .error state
    | (state, false) => .ok ((), state)

/-- How a walk ended: the last state of the visitor, and whether it asked to stop. -/
def tourEnd {σ : Type} : Except σ (Unit × σ) → σ × Bool
  | .ok (_, state) => (state, false)
  | .error state => (state, true)

/-- Visits shown one by one end as the tour does. -/
theorem tourEnd_forM {σ : Type} (visitor : σ → Visit → σ × Bool) (state : σ)
    (visits : List Visit) :
    tourEnd (visits.forM (showVisit visitor) state) = tour visitor state visits := by
  induction visits generalizing state with
  | nil => rfl
  | cons v rest ih =>
    have hcons : (v :: rest).forM (showVisit visitor) state =
        (showVisit visitor v state >>= fun r => rest.forM (showVisit visitor) r.2) := rfl
    rw [hcons]
    rcases h : visitor state v with ⟨next, _ | _⟩
    · simpa [showVisit, tour, h, bind, Except.bind] using ih next
    · simp [showVisit, tour, tourEnd, h, bind, Except.bind]

/-- Walks through a group of fields with a visitor, until it asks to stop. Visits after that are not
looked for. -/
def walk {σ : Type} (s : Schema) (visitor : σ → Visit → σ × Bool) (state : σ)
    (fields : List Field) : σ × Bool :=
  tourEnd (s.forVisits (showVisit visitor) fields state)

/-- A walk is a tour of the visits listed. -/
theorem walk_eq_tour {σ : Type} (s : Schema) (visitor : σ → Visit → σ × Bool) (state : σ)
    (fields : List Field) : s.walk visitor state fields = tour visitor state (s.visits fields) := by
  rw [walk, forVisits_eq_forM, tourEnd_forM]

end Schema

end RecordBridge
