import ParserAlgebra.Regex.Basic
import ParserAlgebra.Unicode.Blank
import ParserAlgebra.Unicode.Decimal

/-!
# Escapes in the written form of regular expressions

What a backslash and the symbols behind it stand for: one symbol, a set of symbols or an assertion.
-/

namespace ParserAlgebra

/-- The decimal digits of all scripts. -/
def SymbolSet.decimal : SymbolSet :=
  ofRanges Unicode.decimalRanges

/-- The symbols that are whitespace. -/
def SymbolSet.blank : SymbolSet :=
  ofRanges Unicode.blankRanges

namespace Regex

/-- The value of a digit, decimal or hexadecimal. -/
def digitValue? (base : Nat) (c : Char) : Option Nat :=
  let value? :=
    if c.isDigit then some (c.toNat - '0'.toNat)
    else if 'a' ≤ c ∧ c ≤ 'f' then some (c.toNat - 'a'.toNat + 10)
    else if 'A' ≤ c ∧ c ≤ 'F' then some (c.toNat - 'A'.toNat + 10)
    else none
  value?.filter (· < base)

/-- The number that digits write; it has to fit in thirty-two bits. -/
def numberOf? (base : Nat) (digits : List Char) : Option Nat :=
  if digits.isEmpty then none
  else
    (digits.foldlM (fun n c => (digitValue? base c).map (n * base + ·)) 0).filter (· < 0x100000000)

/-- The symbol with a code point, if that code point is one of a symbol. -/
def symbolOf? (n : Nat) : Option Char :=
  if n.isValidChar then some (Char.ofNat n) else none

/-- Reads the code point of an escape: hexadecimal digits in braces, or exactly `width` of them. -/
def readCodePoint (width : Nat) : List Char → Option (Char × List Char)
  | '\x7b' :: cs => do
    let (digits, rest) := cs.span (· ≠ '\x7d')
    let c ← symbolOf? (← numberOf? 16 digits)
    match rest with
    | _ :: rest => pure (c, rest)
    | [] => none
  | cs => do
    if cs.length < width then none
    let c ← symbolOf? (← numberOf? 16 (cs.take width))
    pure (c, cs.drop width)

inductive Escape where
  | symbol (c : Char)
  | symbols (set : SymbolSet)
  | condition (a : Assertion)

/-- Reads what follows a backslash. Only symbols of ASCII that are neither letters nor digits, nor
angle brackets, may be escaped to stand for themselves. -/
def readEscape : List Char → Option (Escape × List Char)
  | [] => none
  | c :: cs =>
    match c with
    | 'a' => some (.symbol '\x07', cs)
    | 'f' => some (.symbol '\x0c', cs)
    | 't' => some (.symbol '\t', cs)
    | 'n' => some (.symbol '\n', cs)
    | 'r' => some (.symbol '\r', cs)
    | 'v' => some (.symbol '\x0b', cs)
    | 'x' => (readCodePoint 2 cs).map fun (c, rest) => (.symbol c, rest)
    | 'u' => (readCodePoint 4 cs).map fun (c, rest) => (.symbol c, rest)
    | 'U' => (readCodePoint 8 cs).map fun (c, rest) => (.symbol c, rest)
    | 'd' => some (.symbols .decimal, cs)
    | 'D' => some (.symbols SymbolSet.decimal.complement, cs)
    | 's' => some (.symbols .blank, cs)
    | 'S' => some (.symbols SymbolSet.blank.complement, cs)
    | 'w' => some (.symbols .word, cs)
    | 'W' => some (.symbols SymbolSet.word.complement, cs)
    | 'b' => some (.condition .wordBoundary, cs)
    | 'B' => some (.condition .noWordBoundary, cs)
    | 'A' => some (.condition .textStart, cs)
    | 'z' => some (.condition .textEnd, cs)
    | c =>
      if c.toNat < 0x80 && !c.isAlphanum && c ≠ '<' && c ≠ '>' then some (.symbol c, cs) else none

end Regex

end ParserAlgebra
