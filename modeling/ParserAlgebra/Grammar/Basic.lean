import ParserAlgebra.Action
import ParserAlgebra.Arena
import ParserAlgebra.Predicate
import ParserAlgebra.Regex.Matcher

/-!
# Grammars

A grammar is a finite tree of combinators over an external state `σ`. Recursion goes through names
for rules that are kept elsewhere: a handle names a slot of an arena, a fixed point names an entry
in a table of rules. Neither holds the rule itself, so a grammar may refer to rules that are not
defined yet, not any more, or in terms of each other.
-/

namespace ParserAlgebra

/-- A rule built as a fixed point, by its number among all such rules. -/
abbrev RuleId :=
  Nat

/-- How an occurrence of a fixed point refers to its rule. The rule lives as long as it can be
reached through owners; a borrower, such as the rule's own recursive occurrence, does not keep
it. -/
inductive Hold where
  | owner
  | borrower
  deriving DecidableEq

inductive Grammar (σ : Type) where
  /-- Takes a symbol that a predicate accepts; the end of the input can be accepted as well. -/
  | accept (p : Predicate)
  /-- Takes a symbol as `accept` does; anything else is an error. -/
  | expect (p : Predicate)
  | literal (text : String)
  /-- Takes the preferred match of a regular expression, known by its source. -/
  | pattern (source : String) (matcher : Regex.Matcher)
  /-- Matches without taking anything. -/
  | succeed
  | fail
  | sequence (first second : Grammar σ)
  /-- The second rule where the first does not match. -/
  | choice (first second : Grammar σ)
  /-- As many items as there are, but at least so many. -/
  | repetition (atLeast : Nat) (item : Grammar σ)
  | option (item : Grammar σ)
  /-- One or more items with separators between them. -/
  | sepBy (item separator : Grammar σ)
  | discard (item : Grammar σ)
  /-- A rule that may not produce a certain value; `kind` is the kind of the values it produces. -/
  | except (kind : Kind) (item : Grammar σ) (forbidden : Value)
  /-- A rule that leaves no trace unless it matches. -/
  | attempt (item : Grammar σ)
  /-- A rule that leaves no trace, but for the external state, unless it matches. -/
  | attemptPure (item : Grammar σ)
  /-- A rule that has to match. -/
  | strict (message : String) (item : Grammar σ)
  /-- A rule whose runs are logged. -/
  | trace (label : String) (item : Grammar σ)
  /-- A rule and the whitespace behind it. -/
  | token (item : Grammar σ)
  /-- A rule that other grammars may share. -/
  | shared (item : Grammar σ)
  /-- A rule written as its name, which is entered among the definitions before its body. -/
  | reference (name : String) (body : Grammar σ)
  /-- A rule written as its name, which is entered among the definitions behind its body. -/
  | define (name : String) (body : Grammar σ)
  /-- A rule written as a given text of a given rank. -/
  | rename (name : String) (rank : Rank) (body : Grammar σ)
  /-- All of some parts in order; an action combines their values into one of kind `kind`. -/
  | all (kind : Kind) (action : Action σ) (parts : List (Kind × Grammar σ))
  /-- The first of some parts that matches; an action is given its value and its place. -/
  | any (kind : Kind) (action : Action σ) (parts : List (Kind × Grammar σ))
  | handle (slot : Slot)
  /-- A fixed point, written as its name. -/
  | fixed (hold : Hold) (name : String) (rule : RuleId)

namespace Grammar

variable {σ : Type}

/-- Zero or more items. -/
abbrev many (item : Grammar σ) : Grammar σ :=
  .repetition 0 item

/-- One or more items. -/
abbrev manyOne (item : Grammar σ) : Grammar σ :=
  .repetition 1 item

/-- The whitespace before the first token. -/
abbrev firstToken : Grammar σ :=
  .discard (.many (.accept (.ofClass .space)))

/-- Whether a run may call an action, as far as the tree shows. What a handle or a fixed point
stands for is not known here, so it may. -/
def mayAct : Grammar σ → Bool
  | .accept _ | .expect _ | .literal _ | .pattern _ _ | .succeed | .fail => false
  | .all _ _ _ | .any _ _ _ | .handle _ | .fixed _ _ _ => true
  | .sequence a b | .choice a b | .sepBy a b => a.mayAct || b.mayAct
  | .repetition _ g | .option g | .discard g | .except _ g _ | .attempt g | .attemptPure g
  | .strict _ g | .trace _ g | .token g | .shared g | .reference _ g | .define _ g
  | .rename _ _ g => g.mayAct

def size : Grammar σ → Nat
  | .accept _ | .expect _ | .literal _ | .pattern _ _ | .succeed | .fail | .handle _
  | .fixed _ _ _ => 1
  | .sequence a b | .choice a b | .sepBy a b => a.size + b.size + 1
  | .repetition _ g | .option g | .discard g | .except _ g _ | .attempt g | .attemptPure g
  | .strict _ g | .trace _ g | .token g | .shared g | .reference _ g | .define _ g
  | .rename _ _ g => g.size + 1
  | .all _ _ parts | .any _ _ parts => sizes parts + 1
where
  sizes : List (Kind × Grammar σ) → Nat
    | [] => 0
    | (_, g) :: parts => g.size + sizes parts

/-- The fixed points that a grammar owns. -/
def owned : Grammar σ → List RuleId
  | .accept _ | .expect _ | .literal _ | .pattern _ _ | .succeed | .fail | .handle _ => []
  | .fixed .owner _ rule => [rule]
  | .fixed .borrower _ _ => []
  | .sequence a b | .choice a b | .sepBy a b => a.owned ++ b.owned
  | .repetition _ g | .option g | .discard g | .except _ g _ | .attempt g | .attemptPure g
  | .strict _ g | .trace _ g | .token g | .shared g | .reference _ g | .define _ g
  | .rename _ _ g => g.owned
  | .all _ _ parts | .any _ _ parts => ownedBy parts
where
  ownedBy : List (Kind × Grammar σ) → List RuleId
    | [] => []
    | (_, g) :: parts => g.owned ++ ownedBy parts

end Grammar

end ParserAlgebra
