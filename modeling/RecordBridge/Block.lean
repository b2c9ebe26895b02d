/-!
# Blocks of statements

Generated code is a tree: simple statements, and headed statements with a block of their own. A
`Block` is such a tree over any kind of simple statement and of head; its lines follow from the
spelling of these.
-/

namespace RecordBridge

/-- Things that are spelled in one line of code. -/
class Spelled (α : Type) where
  text : α → String

/-- A line of code under a number of enclosing blocks. -/
structure Line where
  depth : Nat
  text : String
  deriving DecidableEq, Repr

namespace Line

/-- The line one block deeper. -/
def deeper (l : Line) : Line :=
  { l with depth := l.depth + 1 }

/-- The line with one tab for each enclosing block. -/
def indented (l : Line) : String :=
  String.ofList (List.replicate l.depth '\t') ++ l.text

/-- Whether a line is a single one: it holds no line feed. -/
def isSingle (l : Line) : Bool :=
  !l.text.toList.contains '\n'

end Line

/-- Statements in order, over simple statements `S` and heads `H`. -/
inductive Block (S H : Type) where
  | done
  /-- A simple statement. -/
  | step (s : S) (rest : Block S H)
  /-- A headed statement with one block. -/
  | nest (head : H) (body rest : Block S H)
  /-- A headed statement with a second block after `else`. -/
  | fork (head : H) (yes no rest : Block S H)
  deriving Repr

namespace Block

variable {S H : Type}

/-- One block after the other. -/
def append : Block S H → Block S H → Block S H
  | .done, b => b
  | .step s rest, b => .step s (rest.append b)
  | .nest head body rest, b => .nest head body (rest.append b)
  | .fork head yes no rest, b => .fork head yes no (rest.append b)

instance : Append (Block S H) :=
  ⟨append⟩

/-- Blocks in sequence can be bracketed in any way. -/
theorem append_assoc (a b c : Block S H) : a ++ b ++ c = a ++ (b ++ c) := by
  show (a.append b).append c = a.append (b.append c)
  induction a with
  | done => rfl
  | step s rest ih => simp [append, ih]
  | nest head body rest _ ih => simp [append, ih]
  | fork head yes no rest _ _ ih => simp [append, ih]

/-- Nothing after a block leaves it as it is. -/
@[simp] theorem append_done (a : Block S H) : a ++ .done = a := by
  show a.append .done = a
  induction a with
  | done => rfl
  | step s rest ih => simp [append, ih]
  | nest head body rest _ ih => simp [append, ih]
  | fork head yes no rest _ _ ih => simp [append, ih]

@[simp] theorem done_append (a : Block S H) : .done ++ a = a :=
  rfl

@[simp] theorem step_append (s : S) (rest a : Block S H) :
    .step s rest ++ a = .step s (rest ++ a) :=
  rfl

@[simp] theorem nest_append (head : H) (body rest a : Block S H) :
    .nest head body rest ++ a = .nest head body (rest ++ a) :=
  rfl

@[simp] theorem fork_append (head : H) (yes no rest a : Block S H) :
    .fork head yes no rest ++ a = .fork head yes no (rest ++ a) :=
  rfl

/-- A block of simple statements. -/
def ofList : List S → Block S H
  | [] => .done
  | s :: rest => .step s (ofList rest)

/-- Whether a block has no statement. -/
def isEmpty : Block S H → Bool
  | .done => true
  | _ => false

/-- What the simple statements and the heads of a block hold, in order. -/
def gather {α : Type} (ofStep : S → List α) (ofHead : H → List α) : Block S H → List α
  | .done => []
  | .step s rest => ofStep s ++ rest.gather ofStep ofHead
  | .nest head body rest =>
    ofHead head ++ (body.gather ofStep ofHead ++ rest.gather ofStep ofHead)
  | .fork head yes no rest =>
    ofHead head ++ (yes.gather ofStep ofHead ++ (no.gather ofStep ofHead ++
      rest.gather ofStep ofHead))

/-- What is gathered from one block after the other comes in their order. -/
@[simp] theorem gather_append {α : Type} (ofStep : S → List α) (ofHead : H → List α)
    (a b : Block S H) :
    (a ++ b).gather ofStep ofHead = a.gather ofStep ofHead ++ b.gather ofStep ofHead := by
  show (a.append b).gather ofStep ofHead = _
  induction a with
  | done => rfl
  | step s rest ih => simp [append, gather, ih]
  | nest head body rest _ ih => simp [append, gather, ih]
  | fork head yes no rest _ _ ih => simp [append, gather, ih]

/-- The simple statements of a block, in order. -/
def steps (b : Block S H) : List S :=
  b.gather (fun s => [s]) fun _ => []

@[simp] theorem steps_step (s : S) (rest : Block S H) : (step s rest).steps = s :: rest.steps :=
  rfl

@[simp] theorem steps_nest (head : H) (body rest : Block S H) :
    (nest head body rest).steps = body.steps ++ rest.steps :=
  rfl

@[simp] theorem steps_fork (head : H) (yes no rest : Block S H) :
    (fork head yes no rest).steps = yes.steps ++ (no.steps ++ rest.steps) :=
  rfl

/-- The simple statements of a row are the row. -/
@[simp] theorem steps_ofList (l : List S) : (ofList l : Block S H).steps = l := by
  induction l with
  | nil => rfl
  | cons s rest ih => rw [ofList, steps_step, ih]

/-- The simple statements of one block after the other. -/
@[simp] theorem steps_append (a b : Block S H) : (a ++ b).steps = a.steps ++ b.steps :=
  gather_append _ _ a b

variable [Spelled S] [Spelled H]

/-- The line that opens the block of a head. -/
def opening (head : H) : Line :=
  ⟨0, Spelled.text head ++ " \x7b"⟩

/-- The line between the two blocks of a head. -/
def otherwise : Line :=
  ⟨0, "\x7d else \x7b"⟩

/-- The line that closes a block. -/
def closing : Line :=
  ⟨0, "\x7d"⟩

/-- The lines of a block, in order. -/
def lines : Block S H → List Line
  | .done => []
  | .step s rest => ⟨0, Spelled.text s⟩ :: rest.lines
  | .nest head body rest =>
    opening head :: body.lines.map Line.deeper ++ closing :: rest.lines
  | .fork head yes no rest =>
    opening head :: yes.lines.map Line.deeper ++
      otherwise :: no.lines.map Line.deeper ++ closing :: rest.lines

@[simp] theorem lines_done : (done : Block S H).lines = [] :=
  rfl

/-- The lines of two blocks are those of the one after those of the other. -/
@[simp] theorem lines_append (a b : Block S H) : (a ++ b).lines = a.lines ++ b.lines := by
  show (a.append b).lines = _
  induction a with
  | done => rfl
  | step s rest ih => simp [append, lines, ih]
  | nest head body rest _ ih => simp [append, lines, ih]
  | fork head yes no rest _ _ ih => simp [append, lines, ih]

end Block

end RecordBridge
