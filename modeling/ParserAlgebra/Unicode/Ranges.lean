/-!
# Sets of symbols as ranges of code points

A property of symbols is given by the ranges of code points that have it, both ends included.
-/

namespace ParserAlgebra.Unicode

/-- A set of code points as a list of inclusive ranges. -/
abbrev Ranges :=
  List (Nat × Nat)

/-- Whether the code point of a symbol lies in one of the ranges. -/
def Ranges.covers (ranges : Ranges) (c : Char) : Bool :=
  ranges.any fun range => range.1 ≤ c.toNat && c.toNat ≤ range.2

@[simp] theorem Ranges.covers_nil (c : Char) : Ranges.covers [] c = false := rfl

theorem Ranges.covers_iff {ranges : Ranges} {c : Char} :
    ranges.covers c = true ↔ ∃ range ∈ ranges, range.1 ≤ c.toNat ∧ c.toNat ≤ range.2 := by
  simp [Ranges.covers]

end ParserAlgebra.Unicode
