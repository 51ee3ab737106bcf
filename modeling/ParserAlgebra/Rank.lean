/-!
# Ranks of written rules

How loosely the outermost operator of a written rule binds. A rule is put in parentheses exactly
where it stands under an operator that binds tighter than its own.
-/

namespace ParserAlgebra

/-- From the tightest to the loosest: names and bracketed forms, `a - b`, `a, b` and `a | b`. -/
inductive Rank where
  | atom
  | except
  | sequence
  | choice
  deriving DecidableEq

namespace Rank

/-- The number of kinds of rules that bind tighter. -/
def looseness : Rank → Nat
  | .atom => 0
  | .except => 1
  | .sequence => 2
  | .choice => 3

/-- A text of rank `own` as it stands where `context` is the loosest rank allowed. -/
def enclose (context own : Rank) (text : String) : String :=
  if context.looseness < own.looseness then "(" ++ text ++ ")" else text

theorem enclose_of_le {context own : Rank} (h : own.looseness ≤ context.looseness)
    (text : String) : context.enclose own text = text := by
  simp [enclose, Nat.not_lt.2 h]

@[simp] theorem enclose_atom_own (context : Rank) (text : String) :
    context.enclose .atom text = text :=
  enclose_of_le (Nat.zero_le _) text

end Rank

end ParserAlgebra
