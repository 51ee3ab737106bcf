import ParserAlgebra.Regex.Program

/-!
# Matches

A program is carried out for all ways at once: at each spot of the text there is a list of the
instructions that have been reached, in order of preference and each one once. A way that has been
reached before is not followed again, since whatever it leads to is preferred already.

An assertion about what lies ahead can be settled at two times: at once, or only when the symbol
ahead is about to be taken. The lists are the same but for their order, and with it the preferred
match may differ. Late settlement is the rule. Where a program asks about words, it has to settle at
once instead as soon as a symbol outside ASCII is involved.
-/

namespace ParserAlgebra.Regex

/-- When assertions about what lies ahead are settled. -/
inductive Settlement where
  | atOnce
  | late
  deriving DecidableEq

namespace Program

theorem count_set_lt {seen : Array Bool} {i : Nat} (h : i < seen.size) (hi : seen[i] = false) :
    (seen.set i true).count false < seen.count false := by
  have hpos : 0 < seen.count false := Array.count_pos_iff.2 (hi ▸ Array.getElem_mem h)
  rw [Array.count_set, hi, if_pos (by decide), if_neg (by decide)]
  omega

/-- Adds to the instructions found, of which the last is in front, those that can be reached from
some instructions without taking a symbol. What has been seen is not followed again. -/
def explore (p : Program) (holds : Assertion → Bool) (seen : Array Bool) (found : List Nat) :
    List Nat → List Nat
  | [] => found
  | i :: ways =>
    if h : i < seen.size then
      if hseen : seen[i] = true then p.explore holds seen found ways
      else
        match p.instructions[i]? with
        | some (.fork more) => p.explore holds (seen.set i true) found (more ++ ways)
        | some (.check a next) =>
          p.explore holds (seen.set i true) (i :: found) (if holds a then next :: ways else ways)
        | _ => p.explore holds (seen.set i true) (i :: found) ways
    else p.explore holds seen found ways
termination_by ways => (seen.count false, ways.length)
decreasing_by
  · exact Prod.Lex.right _ (by simp)
  · exact Prod.Lex.left _ _ (count_set_lt h (by simpa using hseen))
  · exact Prod.Lex.left _ _ (count_set_lt h (by simpa using hseen))
  · exact Prod.Lex.left _ _ (count_set_lt h (by simpa using hseen))
  · exact Prod.Lex.right _ (by simp)

/-- The instructions that take a symbol, check an assertion or accept and that can be reached from
some instructions without taking a symbol, in order of preference. -/
def reach (p : Program) (holds : Assertion → Bool) (starts : List Nat) : List Nat :=
  (p.explore holds (.replicate p.instructions.size false) [] starts).reverse

/-- What is reached at a spot while assertions about what lies ahead are not settled. -/
def arrive (p : Program) (settlement : Settlement) (before next : Option Char)
    (starts : List Nat) : List Nat :=
  match settlement with
  | .atOnce => p.reach (·.holds before next) starts
  | .late => p.reach (fun a => a.looksBack && a.holds before next) starts

/-- Whether an instruction checks an assertion about what lies ahead that holds. -/
def isSettled (p : Program) (before next : Option Char) (i : Nat) : Bool :=
  match p.instructions[i]? with
  | some (.check a _) => !a.looksBack && a.holds before next
  | _ => false

/-- What is reached once assertions about what lies ahead are settled: if one of them holds, all
ways are followed once more from what was reached so far. -/
def settle (p : Program) (settlement : Settlement) (before next : Option Char)
    (reached : List Nat) : List Nat :=
  if settlement = .late && reached.any (p.isSettled before next) then
    p.reach (·.holds before next) reached
  else
    reached

def accepts (p : Program) (i : Nat) : Bool :=
  match p.instructions[i]? with
  | some .accept => true
  | _ => false

/-- Where an instruction goes on that takes a symbol. -/
def onward? (p : Program) (c : Char) (i : Nat) : Option Nat :=
  match p.instructions[i]? with
  | some (.take set next) => if set.contains c then some next else none
  | _ => none

/-- The number of symbols ahead that the preferred match takes, where the ways have come to `starts`
after `passed` symbols and `best` is the length of the match that was found last. The run is over
when there is no way left and no match ended one symbol ago. It is given up, and has no answer, in
front of a symbol that `isForeign`. -/
def lengthAhead (p : Program) (settlement : Settlement) (isForeign : Char → Bool) :
    (starts : List Nat) → (before : Option Char) → (passed : Nat) → (best : Option Nat) →
    List Char → Option (Option Nat)
  | starts, before, passed, best, ahead =>
    let reached := p.arrive settlement before ahead.head? starts
    if reached.isEmpty && !best.any (· + 1 = passed) then some best
    else if ahead.head?.any isForeign then none
    else
      let reached := p.settle settlement before ahead.head? reached
      let best := if reached.any p.accepts then some passed else best
      match ahead with
      | [] => some best
      | c :: cs =>
        let live := reached.takeWhile (!p.accepts ·)
        p.lengthAhead settlement isForeign (live.filterMap (p.onward? c)) (some c) (passed + 1) best
          cs

/-- Whether a program asks about words. -/
def asksAboutWords (p : Program) : Bool :=
  p.instructions.any fun
    | .check a _ => a.isAboutWords
    | _ => false

/-- The length of the preferred match ahead of a spot. -/
def matchLength? (p : Program) (before : Option Char) (ahead : List Char) : Option Nat :=
  let words := p.asksAboutWords
  let isForeign (c : Char) : Bool := words && 0x80 ≤ c.toNat
  let late? :=
    if before.any isForeign then none
    else p.lengthAhead .late isForeign [p.start] before 0 none ahead
  match late? with
  | some length => length
  | none => (p.lengthAhead .atOnce (fun _ => false) [p.start] before 0 none ahead).join

/-- The text of the preferred match at the beginning of `ahead`, where `before` is the symbol that
precedes it. -/
def matchAhead? (p : Program) (before : Option Char) (ahead : List Char) : Option (List Char) :=
  (p.matchLength? before ahead).map ahead.take

end Program

end ParserAlgebra.Regex
