import ParserAlgebra.Action
import ParserAlgebra.Action.Journal

/-!
# Scripts

A script is an action written as statements, run in order on an output slot and, if the script may
use it, a journal. The first statement that fails ends the script.
-/

namespace ParserAlgebra

inductive Operator where
  | plus
  | minus
  | times
  | over
  deriving DecidableEq

inductive Mishap where
  | conversion (error : ConversionError)
  | noArgument (i : Nat)
  | noIndex
  | noState
  | overflow
  | divisionByZero
  | unknownOperator (sign : String)
  | duplicate (entry : String)
  | stated (failure : Failure)
  deriving DecidableEq

def Mishap.failure : Mishap → Failure
  | .conversion error => { cause := error.message }
  | .noArgument i => { cause := "no argument " ++ toString i }
  | .noIndex => { cause := "no index" }
  | .noState => { cause := "no state" }
  | .overflow => { cause := "overflow" }
  | .divisionByZero => { cause := "division by zero" }
  | .unknownOperator sign => { cause := "unknown operator " ++ sign }
  | .duplicate entry => { cause := "duplicate " ++ entry }
  | .stated failure => failure

namespace Operator

def ofSign? : String → Option Operator
  | "+" => some .plus
  | "-" => some .minus
  | "*" => some .times
  | "/" => some .over
  | _ => none

/-- Arithmetic on integers of sixty-four bits; division drops the fraction. The quotient that is out
of range counts as a division by zero. -/
def apply (m n : Int) : Operator → Except Mishap Int
  | .plus => inRange (m + n) .overflow
  | .minus => inRange (m - n) .overflow
  | .times => inRange (m * n) .overflow
  | .over => if n = 0 then .error .divisionByZero else inRange (m.tdiv n) .divisionByZero
where
  /-- A result, if it fits. -/
  inRange (result : Int) (excess : Mishap) : Except Mishap Int :=
    if Text.fitsWord result then .ok result else .error excess

end Operator

/-- The statements. Numbers name arguments; where a list of them is empty it stands for all. -/
inductive Statement where
  | append (args : List Nat)
  | extend (args : List Nat)
  | assign (arg : Nat)
  | tuple (args : List Nat)
  | literal (value : Value)
  | parse (arg : Nat)
  | compute (left operator right : Nat)
  | fold (first rest : Nat)
  | index
  | fail (failure : Failure)
  | failIf (arg : Nat) (text : String) (failure : Failure)
  | log (args : List Nat)
  | logSlot
  | count (k : Int)
  | emit
  | unique (arg : Nat)
  | drain
  deriving DecidableEq

namespace Value

/-- Puts a value behind what a slot holds: texts grow by its text, integers by its integer and lists
by the value itself. -/
def appendTo (v slot : Value) : Except Mishap Value :=
  match slot with
  | .text s => .ok (.text (s ++ v.toText))
  | .integer m => do
    let n ← v.toInteger.mapError .conversion
    return .integer (← Operator.apply m n .plus)
  | .list items => .ok (.list (items ++ [v]))

/-- A value as one of the kind that a slot holds. -/
def assignTo (v slot : Value) : Except Mishap Value :=
  (v.convert slot.kind).mapError .conversion

end Value

structure Desk where
  slot : Value
  journal : Journal

namespace Desk

/-- Puts values behind what the slot holds, one by one, up to the first that does not fit. -/
def appendAll : Desk → List Value → Desk × Option Mishap
  | d, [] => (d, none)
  | d, v :: vs =>
    match v.appendTo d.slot with
    | .ok slot => appendAll { d with slot } vs
    | .error e => (d, some e)

/-- Puts the values that a computation finds behind what the slot holds. -/
def appendFound (d : Desk) : Except Mishap (List Value) → Desk × Option Mishap
  | .ok vs => d.appendAll vs
  | .error e => (d, some e)

/-- Puts the result of a computation into the slot. -/
def settle (d : Desk) : Except Mishap Value → Desk × Option Mishap
  | .ok slot => ({ d with slot }, none)
  | .error e => (d, some e)

end Desk

namespace Arguments

def get (args : Arguments) (i : Nat) : Except Mishap Value :=
  match args.values[i]? with
  | some v => .ok v
  | none => .error (.noArgument i)

/-- The listed arguments, or all of them if none is listed. -/
def select (args : Arguments) (is : List Nat) : Except Mishap (List Value) :=
  if is.isEmpty then .ok args.values else is.mapM args.get

/-- The integer that an argument is or writes. -/
def getInteger (args : Arguments) (i : Nat) : Except Mishap Int := do
  (← args.get i).toInteger.mapError .conversion

end Arguments

/-- Applies the operator that a text names. -/
def compute (m : Int) (sign : String) (n : Int) : Except Mishap Int :=
  match Operator.ofSign? sign with
  | some op => op.apply m n
  | none => .error (.unknownOperator sign)

/-- Folds arithmetic over pairs of an operator and an operand, from the left. -/
def computeAll (m : Int) : List Value → Except Mishap Int
  | [] => .ok m
  | v :: vs => do
    let pair : Arguments := ⟨v.toList, none⟩
    let n ← pair.getInteger 1
    computeAll (← compute m (← pair.get 0).toText n) vs

namespace Statement

def usesJournal : Statement → Bool
  | .log _ | .logSlot | .count _ | .emit | .unique _ | .drain => true
  | _ => false

def run (args : Arguments) (d : Desk) : Statement → Desk × Option Mishap
  | .append is => d.appendFound (args.select is)
  | .extend is =>
    match d.slot with
    | .list _ => d.appendFound ((args.select is).map (·.flatMap Value.toList))
    | _ => d.appendFound (args.select is)
  | .assign i => d.settle ((args.get i).bind (·.assignTo d.slot))
  | .tuple is => d.settle ((args.select is).bind fun vs => (Value.list vs).appendTo d.slot)
  | .literal v => d.settle (v.appendTo d.slot)
  | .parse i => d.settle do
    let n ← (Text.readInteger (← args.get i).toText).mapError (.conversion ∘ .numeral)
    Value.assignTo (.integer n) d.slot
  | .compute l op r => d.settle do
    let m ← args.getInteger l
    let n ← args.getInteger r
    Value.assignTo (.integer (← ParserAlgebra.compute m (← args.get op).toText n)) d.slot
  | .fold first rest => d.settle do
    let m ← args.getInteger first
    Value.assignTo (.integer (← computeAll m (← args.get rest).toList)) d.slot
  | .index =>
    match args.alternative with
    | some i => d.settle ((Value.integer i).appendTo d.slot)
    | none => (d, some .noIndex)
  | .fail f => (d, some (.stated f))
  | .failIf i text f =>
    match args.get i with
    | .ok v => (d, if v.toText = text then some (.stated f) else none)
    | .error e => (d, some e)
  | .log is =>
    match args.select is with
    | .ok vs => ({ d with journal := d.journal.push (Value.list vs).toText }, none)
    | .error e => (d, some e)
  | .logSlot => ({ d with journal := d.journal.push d.slot.toText }, none)
  | .count k => ({ d with journal := d.journal.add k }, none)
  | .emit => d.settle ((Value.integer d.journal.count).appendTo d.slot)
  | .unique i =>
    match args.get i with
    | .ok v =>
      if v.toText ∈ d.journal.entries then (d, some (.duplicate v.toText))
      else ({ d with journal := d.journal.push v.toText }, none)
    | .error e => (d, some e)
  | .drain =>
    Desk.appendAll { d with journal := { d.journal with entries := [] } }
      (d.journal.entries.map .text)

end Statement

abbrev Script :=
  List Statement

namespace Script

/-- Carries out the statements of a script up to the first that fails. -/
def run (mayUseJournal : Bool) (args : Arguments) : Desk → Script → Desk × Option Mishap
  | d, [] => (d, none)
  | d, s :: ss =>
    if s.usesJournal && !mayUseJournal then
      (d, some .noState)
    else
      match s.run args d with
      | (d, none) => run mayUseJournal args d ss
      | (d, some e) => (d, some e)

/-- The action that a script describes. Without leave to use the journal, a statement that needs it
fails. -/
def toAction (mayUseJournal : Bool) (script : Script) : Action Journal :=
  fun args slot journal =>
    let (d, e) := script.run mayUseJournal args ⟨slot, journal⟩
    ⟨d.slot, d.journal, e.map Mishap.failure⟩

end Script

end ParserAlgebra
