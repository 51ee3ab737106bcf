import ParserAlgebra.Text.Numeral
import ParserAlgebra.Text.Quoted

/-!
# Values

What parsers produce: texts, integers of sixty-four bits and lists of values. An output slot has a
kind, which fixes its initial value and how a value of another kind is turned into one that fits.
-/

namespace ParserAlgebra

inductive Value where
  | text (s : String)
  | integer (n : Int)
  | list (items : List Value)

namespace Value

mutual

/-- Equality of values is decided part by part. -/
def decEq : (v w : Value) → Decidable (v = w)
  | .text s, .text t => decidable_of_iff (s = t) (by simp)
  | .integer m, .integer n => decidable_of_iff (m = n) (by simp)
  | .list vs, .list ws =>
    match decEqList vs ws with
    | isTrue h => isTrue (congrArg Value.list h)
    | isFalse h => isFalse fun heq => h (Value.list.inj heq)
  | .text _, .integer _ => isFalse (by simp)
  | .text _, .list _ => isFalse (by simp)
  | .integer _, .text _ => isFalse (by simp)
  | .integer _, .list _ => isFalse (by simp)
  | .list _, .text _ => isFalse (by simp)
  | .list _, .integer _ => isFalse (by simp)

/-- Equality of lists of values, decided along with that of values. -/
def decEqList : (vs ws : List Value) → Decidable (vs = ws)
  | [], [] => isTrue rfl
  | [], _ :: _ => isFalse (by simp)
  | _ :: _, [] => isFalse (by simp)
  | v :: vs, w :: ws =>
    match decEq v w, decEqList vs ws with
    | isTrue h, isTrue hs => isTrue (by rw [h, hs])
    | isFalse h, _ => isFalse fun heq => h (List.cons.inj heq).1
    | _, isFalse hs => isFalse fun heq => hs (List.cons.inj heq).2

end

instance : DecidableEq Value := decEq

end Value

inductive Kind where
  | text
  | integer
  | list
  deriving DecidableEq

/-- What a fresh slot of a kind holds. -/
def Kind.default : Kind → Value
  | .text => .text ""
  | .integer => .integer 0
  | .list => .list []

inductive ConversionError where
  | numeral (error : Text.NumeralError)
  | notAnInteger
  deriving DecidableEq

def ConversionError.message : ConversionError → String
  | .numeral error => error.message
  | .notAnInteger => "not an integer"

namespace Value

def kind : Value → Kind
  | .text _ => .text
  | .integer _ => .integer
  | .list _ => .list

@[simp] theorem kind_default (k : Kind) : k.default.kind = k := by
  cases k <;> rfl

/-- The text of a value: of a list, the texts of its items one after the other. -/
def toText : Value → String
  | .text s => s
  | .integer n => toString n
  | .list items => toTexts items
where
  toTexts : List Value → String
    | [] => ""
    | v :: vs => v.toText ++ toTexts vs

/-- The integer a value is or writes. -/
def toInteger : Value → Except ConversionError Int
  | .integer n => .ok n
  | .text s => (Text.readInteger s).mapError .numeral
  | .list _ => .error .notAnInteger

/-- The items of a list; another value is the only item. -/
def toList : Value → List Value
  | .list items => items
  | v => [v]

/-- A value as one of a given kind. -/
def convert (k : Kind) (v : Value) : Except ConversionError Value :=
  match k with
  | .text => .ok (.text v.toText)
  | .integer => v.toInteger.map .integer
  | .list => .ok (.list v.toList)

/-- The written form: texts in double quotes, lists in brackets. -/
def written : Value → String
  | .text s => Text.quote s
  | .integer n => toString n
  | .list items => "[" ++ writtenItems items ++ "]"
where
  writtenItems : List Value → String
    | [] => ""
    | [v] => v.written
    | v :: vs => v.written ++ ", " ++ writtenItems vs

end Value

end ParserAlgebra
