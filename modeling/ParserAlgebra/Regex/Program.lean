import ParserAlgebra.Regex.Basic

/-!
# Programs of regular expressions

An expression is carried out as a program: instructions that name the ones to go on with. Where
there is a choice, the preferred way is named first. A program is written from its end to its
beginning, so that what comes after an instruction is known when it is written; only a loop is
closed afterwards.
-/

namespace ParserAlgebra.Regex

inductive Instruction where
  /-- Takes one symbol of a set. -/
  | take (set : SymbolSet) (next : Nat)
  /-- Goes on where an assertion holds. -/
  | check (condition : Assertion) (next : Nat)
  /-- Goes on in several ways, the first preferred. -/
  | fork (ways : List Nat)
  | accept

structure Program where
  instructions : Array Instruction
  start : Nat

/-- A step of writing a program; it answers with the number of an instruction. -/
abbrev Writing :=
  StateM (Array Instruction)

def write (i : Instruction) : Writing Nat :=
  modifyGet fun program => (program.size, program.push i)

/-- A choice between going on with a repetition and leaving it. -/
def forkTo (greedy : Bool) (again onward : Nat) : Instruction :=
  .fork (if greedy then [again, onward] else [onward, again])

/-- Adds a choice, and what follows it when the repetition goes on, which ends at the choice.
Answers with the numbers of the choice and of what goes on. -/
def writeLoop (greedy : Bool) (item : Nat → Writing Nat) (next : Nat) : Writing (Nat × Nat) := do
  let choice ← write (.fork [])
  let again ← item choice
  modify (·.set! choice (forkTo greedy again next))
  pure (choice, again)

/-- Adds something as often as told. -/
def writeTimes (item : Nat → Writing Nat) : Nat → Nat → Writing Nat
  | 0, next => pure next
  | n + 1, next => do writeTimes item n (← item next)

/-- Adds something that may be left out, and after which it may be added again, as often as told. -/
def writeOptional (greedy : Bool) (item : Nat → Writing Nat) (exit : Nat) :
    Nat → Nat → Writing Nat
  | 0, next => pure next
  | n + 1, next => do
    let again ← item next
    writeOptional greedy item exit n (← write (forkTo greedy again exit))

/-- Adds a repetition. A loop whose item may take no symbol is entered by a choice of its own, so
that leaving it before and after an iteration are told apart. -/
def writeRepetition (greedy : Bool) (least : Nat) (most : Option Nat) (takesSymbol : Bool)
    (item : Nat → Writing Nat) (next : Nat) : Writing Nat :=
  match least, most with
  | least, some most => do
    writeTimes item least (← writeOptional greedy item next (most - least) next)
  | 0, none => do
    let (choice, again) ← writeLoop greedy item next
    if takesSymbol then pure choice else write (forkTo greedy again next)
  | least + 1, none => do
    let (_, again) ← writeLoop greedy item next
    writeTimes item least again

/-- Adds an expression in front of an instruction. -/
def writeBefore : Regex → Nat → Writing Nat
  | .empty, next => pure next
  | .literal text, next => text.foldrM (fun c next => write (.take (.singleton c) next)) next
  | .symbols set, next => write (.take set next)
  | .assertion a, next => write (.check a next)
  | .repetition greedy least most r, next =>
    writeRepetition greedy least most (r.leastLength.any (0 < ·)) r.writeBefore next
  | .group _ r, next => r.writeBefore next
  | .concat rs, next => chain rs next
  | .alternation rs, next => do write (.fork (← branches rs next))
where
  chain : List Regex → Nat → Writing Nat
    | [], next => pure next
    | r :: rs, next => do r.writeBefore (← chain rs next)
  /-- Adds things that go on with the same instruction. -/
  branches : List Regex → Nat → Writing (List Nat)
    | [], _ => pure []
    | r :: rs, next => return (← r.writeBefore next) :: (← branches rs next)

/-- The program of an expression. -/
def program (r : Regex) : Program :=
  let (start, instructions) := (do r.writeBefore (← write .accept) : Writing Nat).run #[]
  ⟨instructions, start⟩

end ParserAlgebra.Regex
