import ParserAlgebra.Regex.SymbolSet
import ParserAlgebra.Unicode.Word

/-!
# Regular expressions

A regular expression describes texts that may stand at a spot of an input. Which of several matches
counts is decided by preference, not by length: an alternation prefers its earlier branches, a
greedy repetition prefers to go on, a reluctant one to stop. Assertions look at the symbols on both
sides of the spot.
-/

namespace ParserAlgebra

/-- The symbols that are parts of words. -/
def SymbolSet.word : SymbolSet :=
  ofRanges Unicode.wordRanges

/-- A condition on a spot that takes no symbol. -/
inductive Assertion where
  | textStart
  | textEnd
  | lineStart
  | lineEnd
  | wordBoundary
  | noWordBoundary
  deriving DecidableEq

namespace Assertion

/-- Whether an assertion holds between two symbols; `none` stands for an end of the text. -/
def holds (before next : Option Char) : Assertion → Bool
  | textStart => before.isNone
  | textEnd => next.isNone
  | lineStart => before.all (· == '\n')
  | lineEnd => next.all (· == '\n')
  | wordBoundary => before.any SymbolSet.word.contains != next.any SymbolSet.word.contains
  | noWordBoundary => before.any SymbolSet.word.contains == next.any SymbolSet.word.contains

def isAboutWords : Assertion → Bool
  | wordBoundary | noWordBoundary => true
  | _ => false

/-- Whether the symbol before a spot is enough to decide an assertion. -/
def looksBack : Assertion → Bool
  | textStart | lineStart => true
  | _ => false

end Assertion

inductive Regex where
  | empty
  | literal (text : List Char)
  | symbols (set : SymbolSet)
  | assertion (condition : Assertion)
  | repetition (greedy : Bool) (least : Nat) (most : Option Nat) (item : Regex)
  /-- A group; its mark tells it apart from all other groups. -/
  | group (mark : Nat) (item : Regex)
  | concat (items : List Regex)
  | alternation (branches : List Regex)

namespace Regex

mutual

/-- Whether two expressions are written the same way, marks of groups included. -/
def same : Regex → Regex → Bool
  | .empty, .empty => true
  | .literal s, .literal t => s == t
  | .symbols s, .symbols t => s == t
  | .assertion a, .assertion b => a == b
  | .repetition g least most r, .repetition g' least' most' r' =>
    g == g' && least == least' && most == most' && same r r'
  | .group m r, .group m' r' => m == m' && same r r'
  | .concat rs, .concat rs' => sameList rs rs'
  | .alternation rs, .alternation rs' => sameList rs rs'
  | _, _ => false

def sameList : List Regex → List Regex → Bool
  | [], [] => true
  | r :: rs, r' :: rs' => same r r' && sameList rs rs'
  | _, _ => false

end

/-- The number of symbols that every match takes at least; `none` where a branch has no match. -/
def leastLength : Regex → Option Nat
  | .empty | .assertion _ => some 0
  | .literal text => some text.length
  | .symbols set => if set = ∅ then none else some 1
  | .repetition _ least _ r => r.leastLength.map (· * least)
  | .group _ r => r.leastLength
  | .concat rs => sumLeast rs
  | .alternation rs => minLeast rs
where
  sumLeast : List Regex → Option Nat
    | [] => some 0
    | r :: rs => do return (← r.leastLength) + (← sumLeast rs)
  minLeast : List Regex → Option Nat
    | [] => none
    | [r] => r.leastLength
    | r :: rs => do return min (← r.leastLength) (← minLeast rs)

/-- The number of symbols that a match takes at most; `none` if there is no bound, or where a branch
has no match. -/
def mostLength : Regex → Option Nat
  | .empty | .assertion _ => some 0
  | .literal text => some text.length
  | .symbols set => if set = ∅ then none else some 1
  | .repetition _ _ most r => do return (← most) * (← r.mostLength)
  | .group _ r => r.mostLength
  | .concat rs => sumMost rs
  | .alternation rs => maxMost rs
where
  sumMost : List Regex → Option Nat
    | [] => some 0
    | r :: rs => do return (← r.mostLength) + (← sumMost rs)
  maxMost : List Regex → Option Nat
    | [] => none
    | [r] => r.mostLength
    | r :: rs => do return max (← r.mostLength) (← maxMost rs)

end Regex

end ParserAlgebra
