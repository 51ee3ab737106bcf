import ParserAlgebra.Text.Bytes

/-!
# Cursors

A cursor stands at a place of one input and keeps a stack of checkpoints, places to return to. Each
move past a symbol updates the row, the column and the start of the line along with the byte offset,
so a place carries what a diagnostic has to say about it. Closing a checkpoint that is not there,
or asking for text at an offset that falls between the bytes of a symbol, is a `Fault`.
-/

namespace ParserAlgebra

/-- A cursor operation used where it has no meaning. -/
inductive Fault where
  | backtrackWithoutCheckpoint
  | commitWithoutCheckpoint
  | offsetOffBoundary
  | columnBeforeFirst
  deriving DecidableEq

def Fault.message : Fault → String
  | .backtrackWithoutCheckpoint => "backtrack without a pending checkpoint"
  | .commitWithoutCheckpoint => "commit without a pending checkpoint"
  | .offsetOffBoundary => "byte offset is not a symbol boundary of the input"
  | .columnBeforeFirst => "column before the first column of a line"

/-- The bytes from `start` up to, but not including, `stop`. -/
structure Span where
  start : Nat
  stop : Nat
  deriving DecidableEq

/-- A location in an input. Rows and columns count from one, columns count symbols, and `lineStart`
is the byte offset at which the row begins. -/
structure Position where
  offset : Nat
  row : Nat
  column : Nat
  lineStart : Nat
  deriving DecidableEq

namespace Position

def start : Position :=
  ⟨0, 1, 1, 0⟩

/-- The location behind a symbol. A line feed ends its row. -/
def past (c : Char) (p : Position) : Position :=
  if c = '\n' then ⟨p.offset + c.utf8Size, p.row + 1, 1, p.offset + c.utf8Size⟩
  else ⟨p.offset + c.utf8Size, p.row, p.column + 1, p.lineStart⟩

@[simp] theorem offset_past (c : Char) (p : Position) :
    (p.past c).offset = p.offset + c.utf8Size := by
  unfold past; split <;> rfl

/-- Locations are ordered by offset first, then by row, column and line start. -/
def compare (p q : Position) : Ordering :=
  (Ord.compare p.offset q.offset).then <|
    (Ord.compare p.row q.row).then <|
      (Ord.compare p.column q.column).then (Ord.compare p.lineStart q.lineStart)

end Position

/-- A location together with the part of the input that lies ahead of it. -/
structure Place where
  position : Position
  ahead : List Char
  deriving DecidableEq

namespace Place

/-- The place behind the next symbol; at the end of the input, the same place. -/
def next (p : Place) : Place :=
  match p.ahead with
  | [] => p
  | c :: cs => ⟨p.position.past c, cs⟩

/-- Moves symbol by symbol until the offset is at least `target` or nothing lies ahead. -/
def reach (target : Nat) (position : Position) : List Char → Place
  | [] => ⟨position, []⟩
  | c :: cs =>
    if position.offset < target then reach target (position.past c) cs else ⟨position, c :: cs⟩

@[simp] theorem reach_nil (target : Nat) (position : Position) :
    reach target position [] = ⟨position, []⟩ := rfl

theorem reach_cons (target : Nat) (position : Position) (c : Char) (cs : List Char) :
    reach target position (c :: cs) =
      if position.offset < target then reach target (position.past c) cs
      else ⟨position, c :: cs⟩ := rfl

/-- Moves past as many symbols as satisfy a test. -/
def skipWhile (test : Char → Bool) (position : Position) : List Char → Place
  | [] => ⟨position, []⟩
  | c :: cs => if test c then skipWhile test (position.past c) cs else ⟨position, c :: cs⟩

@[simp] theorem skipWhile_nil (test : Char → Bool) (position : Position) :
    skipWhile test position [] = ⟨position, []⟩ := rfl

theorem skipWhile_cons (test : Char → Bool) (position : Position) (c : Char) (cs : List Char) :
    skipWhile test position (c :: cs) =
      if test c then skipWhile test (position.past c) cs else ⟨position, c :: cs⟩ := rfl

end Place

/-- A place in an input, with the checkpoints that are still open, the latest first. -/
structure Cursor where
  input : List Char
  place : Place
  checkpoints : List Place
  deriving DecidableEq

namespace Cursor

def ofInput (input : List Char) : Cursor :=
  ⟨input, ⟨.start, input⟩, []⟩

def position (c : Cursor) : Position :=
  c.place.position

def offset (c : Cursor) : Nat :=
  c.position.offset

/-- The input from the current symbol on. -/
def ahead (c : Cursor) : List Char :=
  c.place.ahead

/-- The current symbol; `none` at the end of the input. -/
def symbol? (c : Cursor) : Option Char :=
  c.ahead.head?

/-- The symbol before the current one; `none` at the beginning of the input. -/
def before? (c : Cursor) : Option Char :=
  (c.input.take (c.input.length - c.ahead.length)).getLast?

def advance (c : Cursor) : Cursor :=
  { c with place := c.place.next }

/-- Moves symbol by symbol until the byte offset `target` is reached or passed. -/
def advanceTo (target : Nat) (c : Cursor) : Cursor :=
  { c with place := .reach target c.position c.ahead }

/-- Moves past every symbol ahead that satisfies a test, up to the first that does not. -/
def skipWhile (test : Char → Bool) (c : Cursor) : Cursor :=
  { c with place := .skipWhile test c.position c.ahead }

def checkpoint (c : Cursor) : Cursor :=
  { c with checkpoints := c.place :: c.checkpoints }

/-- Closes the latest checkpoint and returns to it. -/
def backtrack (c : Cursor) : Except Fault Cursor :=
  match c.checkpoints with
  | [] => .error .backtrackWithoutCheckpoint
  | place :: checkpoints => .ok { c with place, checkpoints }

/-- Closes the latest checkpoint and stays. -/
def commit (c : Cursor) : Except Fault Cursor :=
  match c.checkpoints with
  | [] => .error .commitWithoutCheckpoint
  | _ :: checkpoints => .ok { c with checkpoints }

def depth (c : Cursor) : Nat :=
  c.checkpoints.length

def isAtEnd (c : Cursor) : Bool :=
  Text.byteLength c.input ≤ c.offset

/-- The bytes between an earlier location and the current one. -/
def spanFrom (start : Position) (c : Cursor) : Span :=
  ⟨start.offset, c.offset⟩

/-- The location at which advancing from the beginning of the input to an offset arrives. -/
def positionAt (offset : Nat) (c : Cursor) : Position :=
  ((ofInput c.input).advanceTo offset).position

/-- The symbol at a byte offset; `none` at the end of the input. -/
def symbolAt (offset : Nat) (c : Cursor) : Except Fault (Option Char) :=
  match Text.dropBytes? offset c.input with
  | some cs => .ok cs.head?
  | none => .error .offsetOffBoundary

def slice (span : Span) (c : Cursor) : Except Fault (List Char) :=
  match Text.slice? span.start span.stop c.input with
  | some cs => .ok cs
  | none => .error .offsetOffBoundary

/-- The line of the input that begins where the row of a location begins, without its line feed. -/
def line (p : Position) (c : Cursor) : Except Fault (List Char) :=
  match Text.dropBytes? p.lineStart c.input with
  | some cs => .ok (cs.takeWhile (· ≠ '\n'))
  | none => .error .offsetOffBoundary

@[simp] theorem position_checkpoint (c : Cursor) : c.checkpoint.position = c.position := rfl

@[simp] theorem ahead_checkpoint (c : Cursor) : c.checkpoint.ahead = c.ahead := rfl

@[simp] theorem backtrack_checkpoint (c : Cursor) : c.checkpoint.backtrack = .ok c := rfl

@[simp] theorem commit_checkpoint (c : Cursor) : c.checkpoint.commit = .ok c := rfl

theorem backtrack_eq_error_iff {c : Cursor} {f : Fault} :
    c.backtrack = .error f ↔ c.checkpoints = [] ∧ f = .backtrackWithoutCheckpoint := by
  unfold backtrack; split <;> simp_all [eq_comm]

theorem commit_eq_error_iff {c : Cursor} {f : Fault} :
    c.commit = .error f ↔ c.checkpoints = [] ∧ f = .commitWithoutCheckpoint := by
  unfold commit; split <;> simp_all [eq_comm]

end Cursor

end ParserAlgebra
