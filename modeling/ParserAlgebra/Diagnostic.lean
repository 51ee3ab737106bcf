import ParserAlgebra.Cursor
import ParserAlgebra.Definitions
import ParserAlgebra.Unicode.Blank
import ParserAlgebra.Unicode.Control

/-!
# Diagnostics

A parse error says what went wrong, where, and what was expected. Its excerpt shows the line it is
about with carets under it. The location is where the cursor stopped, except for errors of actions,
which are located where the failing rule began.
-/

namespace ParserAlgebra

inductive ErrorKind where
  /-- A branch did not match although it had taken input. -/
  | consumed
  /-- A required symbol or rule did not match. -/
  | expected
  /-- A strict rule did not match. -/
  | strict
  /-- A semantic action failed. -/
  | action
  /-- A rule was used that is not defined. -/
  | undefined
  /-- The rule matched but input was left. -/
  | trailing
  deriving DecidableEq

/-- A symbol as a diagnostic names it: controls by their code in two hexadecimal digits. -/
def showSymbol : Option Char → String
  | none => "end of input"
  | some c =>
    if Unicode.isControl c then
      let digits := Nat.toDigits 16 c.toNat
      "0x" ++ String.ofList (List.replicate (2 - digits.length) '0' ++ digits)
    else
      "'" ++ c.toString ++ "'"

/-- The carets under a line: one below `anchor` and, if `stop` is further right on the same row,
dashes that lead to a second one below `stop`. -/
def marker (anchor stop : Position) : List Char :=
  List.replicate (anchor.column - 1) ' ' ++ '^' ::
    if stop.row = anchor.row ∧ anchor.column < stop.column then
      List.replicate (stop.column - anchor.column - 1) '-' ++ ['^']
    else
      []

/-- A line as it is shown, with every whitespace symbol as one plain space. -/
def shownLine (line : List Char) : List Char :=
  line.map fun c => if Unicode.isBlank c then ' ' else c

namespace Cursor

/-- The line that an error is about, with carets below it. It is the line on which the rule began,
unless the error is reported on another one. -/
def excerpt (c : Cursor) (start reported : Position) : Except Fault String := do
  let anchor := if reported.row = start.row then start else reported
  let line ← c.line anchor
  if anchor.column = 0 then
    throw .columnBeforeFirst
  else
    pure (String.ofList (shownLine line ++ '\n' :: marker anchor c.position))

end Cursor

/-- What can be said of a rule that did not match: its written form and the definitions of the names
in it. -/
structure Expectation where
  text : String
  definitions : Definitions
  deriving DecidableEq

/-- What is expected where a rule is not defined. -/
def Expectation.unknown : Expectation :=
  ⟨"?", .empty⟩

structure ParseError where
  kind : ErrorKind
  message : String
  found : Option Char
  row : Nat
  column : Nat
  span : Span
  expectation : Expectation
  excerpt : String
  deriving DecidableEq

namespace ParseError

/-- The error of a rule that began at `start`, ended where the cursor is, and is reported at
`reported`. -/
def locate (kind : ErrorKind) (message : String) (expectation : Expectation)
    (start reported : Position) (c : Cursor) : Except Fault ParseError := do
  let found ← c.symbolAt reported.offset
  let excerpt ← c.excerpt start reported
  pure
    { kind, message, found, expectation, excerpt
      row := reported.row
      column := reported.column
      span := c.spanFrom start }

def headline (e : ParseError) : String :=
  e.message ++ " at line " ++ toString e.row ++ ", column " ++ toString e.column ++ ": found " ++
    showSymbol e.found ++ ", expecting " ++ e.expectation.text

def summary (e : ParseError) : String :=
  e.message ++ " at " ++ toString e.row ++ ":" ++ toString e.column ++ " (expecting " ++
    e.expectation.text ++ ")"

/-- The listing of the definitions; nothing if there are none. -/
def listing (d : Definitions) : String :=
  if d.entries.isEmpty then ""
  else
    "where:\n" ++
      String.join (d.entries.map fun entry => "\t" ++ entry.1 ++ " = " ++ entry.2 ++ ";\n")

/-- The full diagnostic: the headline, the excerpt, what was expected and the rules it refers to. -/
def report (e : ParseError) : String :=
  e.message ++ " at line: " ++ toString e.row ++ " column: " ++ toString e.column ++ "\n" ++
    e.excerpt ++ "\nexpecting: " ++ e.expectation.text ++ "\n" ++ listing e.expectation.definitions

end ParseError

end ParserAlgebra
