/-!
# Integers of sixty-four bits and their numerals

A numeral is an optional sign and decimal digits. It is read from the left, so of two defects the
first one met decides: a digit too many is met before a letter that follows it.
-/

namespace ParserAlgebra.Text

/-- The integers that fit in sixty-four bits with a sign. -/
def fitsWord (n : Int) : Bool :=
  -0x8000000000000000 ≤ n && n < 0x8000000000000000

inductive NumeralError where
  | empty
  | invalidDigit
  | tooLarge
  | tooSmall
  deriving DecidableEq

def NumeralError.message : NumeralError → String
  | .empty => "cannot parse integer from empty string"
  | .invalidDigit => "invalid digit found in string"
  | .tooLarge => "number too large to fit in target type"
  | .tooSmall => "number too small to fit in target type"

/-- Reads digits onto a magnitude that may not pass `bound`; passing it is the error `excess`. -/
def readMagnitude (bound : Nat) (excess : NumeralError) :
    Nat → List Char → Except NumeralError Nat
  | magnitude, [] => .ok magnitude
  | magnitude, c :: cs =>
    if !c.isDigit then
      .error .invalidDigit
    else
      let next := magnitude * 10 + (c.toNat - '0'.toNat)
      if bound < next then .error excess else readMagnitude bound excess next cs

def readInteger (text : String) : Except NumeralError Int :=
  match text.toList with
  | [] => .error .empty
  | ['+'] | ['-'] => .error .invalidDigit
  | '-' :: digits => (readMagnitude 0x8000000000000000 .tooSmall 0 digits).map fun n => -(n : Int)
  | '+' :: digits => (readMagnitude 0x7FFFFFFFFFFFFFFF .tooLarge 0 digits).map fun n => (n : Int)
  | digits => (readMagnitude 0x7FFFFFFFFFFFFFFF .tooLarge 0 digits).map fun n => (n : Int)

end ParserAlgebra.Text
