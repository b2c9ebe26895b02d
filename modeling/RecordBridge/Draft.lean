import RecordBridge.Block
import RecordBridge.Error

/-!
# Drafts

A `Draft` writes a block of statements, with a state and with the chance to stop. It stops at a line
that holds a line feed, before anything that follows it, and keeps the lines that it has written up
to there. `Draft.outcome` is what a finished or stopped draft comes to.

Drafts are a lawful monad: what is written does not depend on how a sequence of drafts is bracketed.
-/

namespace RecordBridge

/-- A stopped draft with a state in `σ`: the lines written before, why it stopped, and the state that
it has left. -/
structure Halt (σ : Type) where
  written : List Line
  stop : Stop
  state : σ

namespace Halt

variable {σ : Type}

/-- A stopped draft after some lines. -/
def after (lines : List Line) (h : Halt σ) : Halt σ :=
  { h with written := lines ++ h.written }

/-- A stopped draft as the body of a block. -/
def deeper (h : Halt σ) : Halt σ :=
  ⟨h.written.map Line.deeper, h.stop.deeper, h.state⟩

@[simp] theorem after_nil (h : Halt σ) : h.after [] = h :=
  rfl

@[simp] theorem after_after (a b : List Line) (h : Halt σ) :
    (h.after b).after a = h.after (a ++ b) := by
  simp [after]

end Halt

/-- Stops at the first line that holds a line feed, and leaves a state as it is. -/
def checkLines {σ : Type} (state : σ) : List Line → Except (Halt σ) Unit
  | [] => .ok ()
  | line :: rest =>
    if line.isSingle then
      match checkLines state rest with
      | .ok () => .ok ()
      | .error halt => .error (halt.after [line])
    else .error ⟨[], .broke (.brokenLine line), state⟩

/-- Writes a block over `S` and `H` with a state in `σ`, and yields a value, or stops. -/
def Draft (S H σ α : Type) : Type :=
  σ → Except (Halt σ) (α × Block S H × σ)

namespace Draft

variable {S H σ α β : Type}

/-- Writes nothing. -/
def value (a : α) : Draft S H σ α :=
  fun state => .ok (a, .done, state)

/-- Stops. -/
def stop (why : Stop) : Draft S H σ α :=
  fun state => .error ⟨[], why, state⟩

/-- Stops for a fault of the inputs. -/
def fail (cause : GenerationError) : Draft S H σ α :=
  stop (.failed cause)

/-- The value of a computation that may fail, which writes nothing. -/
def ofExcept : Except GenerationError α → Draft S H σ α
  | .ok a => value a
  | .error cause => fail cause

/-- The current state. -/
def state : Draft S H σ σ :=
  fun state => .ok (state, .done, state)

/-- Changes the state. -/
def update (f : σ → σ) : Draft S H σ Unit :=
  fun state => .ok ((), .done, f state)

variable [Spelled S] [Spelled H]

/-- Writes a block. -/
def write (b : Block S H) : Draft S H σ Unit :=
  fun state => match checkLines state b.lines with
    | .ok () => .ok ((), b, state)
    | .error halt => .error halt

/-- What follows a block: the block stands before its statements, and before its lines if it
stops. -/
def after (b : Block S H) :
    Except (Halt σ) (α × Block S H × σ) → Except (Halt σ) (α × Block S H × σ)
  | .ok (a, rest, state) => .ok (a, b ++ rest, state)
  | .error halt => .error (halt.after b.lines)

/-- One draft after the other. -/
def andThen (d : Draft S H σ α) (f : α → Draft S H σ β) : Draft S H σ β :=
  fun state => match d state with
    | .ok (a, b, state) => after b (f a state)
    | .error halt => .error halt

instance : Monad (Draft S H σ) where
  pure := value
  bind := andThen

/-- Nothing before a draft leaves it as it is. -/
theorem after_done (r : Except (Halt σ) (α × Block S H × σ)) : after .done r = r := by
  rcases r with halt | ⟨a, b, state⟩ <;> rfl

/-- Two blocks before a draft are one block before it. -/
theorem after_after (b c : Block S H) (r : Except (Halt σ) (α × Block S H × σ)) :
    after b (after c r) = after (b ++ c) r := by
  rcases r with halt | ⟨a, rest, state⟩
  · simp [after]
  · simp [after, Block.append_assoc]

instance : LawfulMonad (Draft S H σ) :=
  LawfulMonad.mk' _
    (fun d => by
      funext state
      show andThen d (fun a => value a) state = d state
      rcases h : d state with halt | ⟨a, b, next⟩ <;> simp [andThen, value, after, h])
    (fun a f => by
      funext state
      exact after_done (f a state))
    (fun d f g => by
      funext state
      show andThen (andThen d f) g state = andThen d (fun a => andThen (f a) g) state
      rcases h : d state with halt | ⟨a, b, next⟩
      · simp [andThen, h]
      · rcases h' : f a next with halt | ⟨a', c, last⟩
        · simp [andThen, h, h', after]
        · simp only [andThen, h, h', after]
          exact (after_after b c (g a' last)).symm)

/-- Writes the statements of a draft as the block of a head. -/
def nest (head : H) (body : Draft S H σ α) : Draft S H σ α :=
  fun state => match checkLines state [Block.opening head] with
    | .error halt => .error halt
    | .ok () => match body state with
      | .ok (a, b, state) => .ok (a, .nest head b .done, state)
      | .error halt => .error (halt.deeper.after [Block.opening head])

/-- Writes the statements of two drafts as the two blocks of a head. -/
def fork (head : H) (yes : Draft S H σ Unit) (no : Draft S H σ Unit) : Draft S H σ Unit :=
  fun state => match checkLines state [Block.opening head] with
    | .error halt => .error halt
    | .ok () => match yes state with
      | .error halt => .error (halt.deeper.after [Block.opening head])
      | .ok (_, b, state) => match no state with
        | .ok (_, c, state) => .ok ((), .fork head b c .done, state)
        | .error halt =>
          .error (halt.deeper.after
            (Block.opening head :: b.lines.map Line.deeper ++ [Block.otherwise]))

end Draft

/-- What a run of a generator comes to. -/
inductive Outcome where
  | lines (text : List String)
  | failed (cause : GenerationError)
  /-- The run was cut short after it had written some lines. -/
  | broke (fault : Breakdown) (written : List String)
  | unfinished
  deriving DecidableEq, Repr

/-- What a stopped draft comes to. -/
def Halt.outcome {σ : Type} (h : Halt σ) : Outcome :=
  match h.stop with
  | .failed cause => .failed cause
  | .broke fault => .broke fault (h.written.map Line.indented)
  | .unfinished => .unfinished

/-- What a draft comes to, run from a state. -/
def Draft.outcome {S H σ α : Type} [Spelled S] [Spelled H] (d : Draft S H σ α) (state : σ) :
    Outcome :=
  match d state with
  | .ok (_, b, _) => .lines (b.lines.map Line.indented)
  | .error halt => halt.outcome

end RecordBridge
