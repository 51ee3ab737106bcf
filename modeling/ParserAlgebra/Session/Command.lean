import ParserAlgebra.Parse
import ParserAlgebra.Session.Blueprint

/-!
# Commands and answers

What a session can be asked, and what it answers.
-/

namespace ParserAlgebra

/-- A location, given by an offset into an input, in full, or by the name it was saved under. -/
inductive PositionRef where
  | atOffset (offset : Nat)
  | given (p : Position)
  | saved (name : String)

inductive SlotChoice where
  | fresh
  | absent
  | holding (v : Value)

inductive Command where
  | classify (p : Predicate) (symbols : List (Option Char))
  /-- Asks how diagnostics name symbols. -/
  | nameSymbols (symbols : List (Option Char))
  | comparePositions (p q : Position)
  /-- Asks how a grammar is written, beginning with the given definitions. -/
  | write (kind : Kind) (g : Blueprint) (definitions : Definitions) (context : Option Rank)
  /-- Asks for the error of a grammar on an input of its own, at the location `reported` or else
  where the cursor is. -/
  | locate (kind : Kind) (g : Blueprint) (error : ErrorKind) (message input : String)
      (start : PositionRef) (cursor : Nat) (reported : Option PositionRef)
  | parse (kind : Kind) (g : Blueprint) (input : String) (journal : Option Journal)
  | parseComplete (kind : Kind) (g : Blueprint) (input : String) (journal : Option Journal)
  /-- Runs a grammar on the cursor of the session, after it has been set to a new input and advanced
  to an offset if those are given. -/
  | run (kind : Kind) (g : Blueprint) (input : Option String) (journal : Option Journal)
      (offset : Option Nat) (slot : SlotChoice)
  | load (input : String)
  | peek
  | advance
  | advanceTo (offset : Nat)
  | checkpoint
  | backtrack
  | commit
  | rest
  | savePosition (name : String)
  | line (p : PositionRef)
  | spanFrom (p : PositionRef)
  | createArena (name : String)
  | dropArena (name : String)
  | declareHandle (name : String) (kind : Kind) (arena : String)
  | defineHandle (name : String) (kind : Kind) (g : Blueprint)
  | declareText (name arena : String)
  | storeText (name text : String)
  | readText (name : String)
  | bind (name : String) (kind : Kind) (g : Blueprint)
  /-- Binds a fixed point to its name. The recursive occurrence can be tried on an input before the
  rule is there. -/
  | fix (name : String) (kind : Kind) (g : Blueprint) (probe : Option String)
  | unbind (name : String) (kind : Kind)

structure Writing where
  collecting : String
  definitions : Definitions
  alone : String
  rank : Rank
  mayAct : Bool
  enclosed : Option String

/-- What a run left behind. -/
structure RunReport where
  verdict : Verdict
  slot : Option Value
  cursor : Cursor
  journal : Journal

/-- What the recursive occurrence of a fixed point did before its rule was there. -/
structure ProbeReport where
  run : RunReport
  text : String
  definitions : Definitions

inductive Refusal where
  | build (error : BuildError)
  | slot (error : SlotError)
  | stop (stop : Stop)
  | unknownName (name : String)
  | conversion (error : ConversionError)

inductive Answer where
  | classified (name : String) (rank : Rank) (accepted : List Bool)
  | symbolNames (names : List String)
  | order (o : Ordering)
  | writing (w : Writing)
  | located (e : ParseError)
  /-- The verdict of parsing an input, with the value if it matched. -/
  | parsed (verdict : Verdict) (value : Option Value) (journal : Journal)
  | ran (report : RunReport)
  | place (c : Cursor)
  | symbol (s : Option Char) (c : Cursor)
  | rest (c : Cursor)
  | position (p : Position)
  | line (text : String)
  | span (s : Span)
  /-- The command was carried out; `found` is false if there was nothing to carry it out on. -/
  | done (found : Bool)
  | text (s : Option String)
  | fixed (probe : Option ProbeReport)
  | refused (r : Refusal)

end ParserAlgebra
