import ParserAlgebra.Regex.Program

/-!
# Matchers

A text can be taken by a program if there is a path through its instructions from the start to an
acceptance along which the text is taken. A matcher prefers one of the texts that can be taken; how
it searches for it is its own affair.
-/

namespace ParserAlgebra.Regex

/-- There is a path from an instruction to an acceptance that takes a text, where `before` is in
front of the text and `after` is behind it. -/
inductive Program.Takes (p : Program) : Option Char → Nat → List Char → List Char → Prop
  | accept {before : Option Char} {i : Nat} {after : List Char}
      (hi : p.instructions[i]? = some .accept) : p.Takes before i [] after
  | fork {before : Option Char} {i j : Nat} {ways : List Nat} {text after : List Char}
      (hi : p.instructions[i]? = some (.fork ways)) (hj : j ∈ ways)
      (hrest : p.Takes before j text after) : p.Takes before i text after
  | check {before : Option Char} {i j : Nat} {a : Assertion} {text after : List Char}
      (hi : p.instructions[i]? = some (.check a j))
      (ha : a.holds before (text ++ after).head? = true)
      (hrest : p.Takes before j text after) : p.Takes before i text after
  | take {before : Option Char} {i j : Nat} {set : SymbolSet} {s : Char} {text after : List Char}
      (hi : p.instructions[i]? = some (.take set j)) (hs : set.contains s = true)
      (hrest : p.Takes (some s) j text after) : p.Takes before i (s :: text) after

/-- A program with a way of finding the preferred match. Runs of grammars know of the search only
that the program takes what it finds. -/
structure Matcher where
  program : Program
  /-- The text of the preferred match at the beginning of `ahead`, where `before` is the symbol that
  precedes it. -/
  matchAhead? (before : Option Char) (ahead : List Char) : Option (List Char)
  takes_of_matchAhead? {before : Option Char} {ahead text : List Char}
    (h : matchAhead? before ahead = some text) :
    ∃ after, ahead = text ++ after ∧ program.Takes before program.start text after

/-- A match is a beginning of what lies ahead. -/
theorem Matcher.isPrefix_of_matchAhead? (m : Matcher) {before : Option Char}
    {ahead text : List Char} (h : m.matchAhead? before ahead = some text) : text <+: ahead := by
  obtain ⟨after, hahead, -⟩ := m.takes_of_matchAhead? h
  exact ⟨after, hahead.symm⟩

end ParserAlgebra.Regex
