import ParserAlgebra.Rank
import ParserAlgebra.Text.Quoted
import ParserAlgebra.Unicode.Blank
import ParserAlgebra.Unicode.Control
import ParserAlgebra.Unicode.Letter
import ParserAlgebra.Unicode.LetterCase
import ParserAlgebra.Unicode.Number

/-!
# Predicates on symbols

A predicate says of the current symbol, or of the end of the input, whether it is acceptable, and it
has a written form. Predicates are combined as sets are; the end of the input is in no class and in
no complement, only in `endOfInput` and what is built from it by union and difference.
-/

namespace ParserAlgebra

inductive SymbolClass where
  | anything
  | space
  | blank
  | digit
  | hexDigit
  | alphabetic
  | alphanumeric
  | uppercase
  | lowercase
  | printable
  | graphic
  | punctuation
  | control
  | endOfLine
  deriving DecidableEq

namespace SymbolClass

def name : SymbolClass → String
  | .anything => "anything"
  | .space => "space"
  | .blank => "blank"
  | .digit => "digit"
  | .hexDigit => "hexdigit"
  | .alphabetic => "alphabetic"
  | .alphanumeric => "alphanumeric"
  | .uppercase => "uppercase"
  | .lowercase => "lowercase"
  | .printable => "printable"
  | .graphic => "graphic"
  | .punctuation => "punctuation"
  | .control => "control"
  | .endOfLine => "EOL"

/-- Whether a symbol is a visible ASCII symbol other than a letter or a digit. -/
def isPunctuation (c : Char) : Bool :=
  0x21 ≤ c.toNat && c.toNat ≤ 0x7E && !c.isAlphanum

/-- Whether a symbol is a digit of base sixteen, in either case. -/
def isHexDigit (c : Char) : Bool :=
  c.isDigit || ('a' ≤ c && c ≤ 'f') || ('A' ≤ c && c ≤ 'F')

/-- Digits and punctuation are those of ASCII; the other classes reach over all scripts. -/
def contains : SymbolClass → Char → Bool
  | .anything, _ => true
  | .space, c => Unicode.isBlank c
  | .blank, c => c == ' ' || c == '\t'
  | .digit, c => c.isDigit
  | .hexDigit, c => isHexDigit c
  | .alphabetic, c => Unicode.isLetter c
  | .alphanumeric, c => Unicode.isLetter c || Unicode.isNumeric c
  | .uppercase, c => Unicode.isUpper c
  | .lowercase, c => Unicode.isLower c
  | .printable, c => !Unicode.isControl c
  | .graphic, c => !Unicode.isControl c && !Unicode.isBlank c
  | .punctuation, c => isPunctuation c
  | .control, c => Unicode.isControl c
  | .endOfLine, c => c == '\n'

end SymbolClass

/-- A set of symbols, and perhaps the end of the input, with a written form. -/
inductive Predicate where
  | ofClass (cls : SymbolClass)
  | symbol (c : Char)
  | endOfInput
  | satisfy (name : String) (test : Char → Bool)
  | either (left right : Predicate)
  | complement (inner : Predicate)
  | difference (base excluded : Predicate)

namespace Predicate

/-- Whether a predicate accepts a symbol, or with `none` the end of the input. -/
def accepts : Predicate → Option Char → Bool
  | .ofClass cls, s => s.any cls.contains
  | .symbol c, s => s == some c
  | .endOfInput, s => s.isNone
  | .satisfy _ test, s => s.any test
  | .either p q, s => p.accepts s || q.accepts s
  | .complement p, s => s.isSome && !p.accepts s
  | .difference p q, s => p.accepts s && !q.accepts s

def rank : Predicate → Rank
  | .either _ _ => .choice
  | .difference _ _ => .except
  | _ => .atom

/-- The written form: unions as `a | b`, complements as `~a` and differences as `a - b`. -/
def name : Predicate → String
  | .ofClass cls => cls.name
  | .symbol c => Text.quoteSymbol c
  | .endOfInput => "end of input"
  | .satisfy name _ => name
  | .either p q =>
    Rank.choice.enclose p.rank p.name ++ " | " ++ Rank.choice.enclose q.rank q.name
  | .complement p => "~" ++ Rank.atom.enclose p.rank p.name
  | .difference p q =>
    Rank.except.enclose p.rank p.name ++ " - " ++ Rank.atom.enclose q.rank q.name

@[simp] theorem accepts_ofClass_none (cls : SymbolClass) :
    (ofClass cls).accepts none = false := rfl

@[simp] theorem accepts_complement_none (p : Predicate) :
    (complement p).accepts none = false := rfl

@[simp] theorem accepts_endOfInput_some (c : Char) :
    endOfInput.accepts (some c) = false := rfl

end Predicate

end ParserAlgebra
