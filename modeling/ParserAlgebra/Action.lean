import ParserAlgebra.Value

/-!
# Semantic actions

An action combines the values of the parts of a rule into an output slot and may read and change the
external state. It can fail; a failure is a cause wrapped in contexts, and what the action did to
the slot and to the state before it failed stays done.
-/

namespace ParserAlgebra

/-- Why an action failed. The innermost context comes first. -/
structure Failure where
  cause : String
  contexts : List String := []
  deriving DecidableEq

/-- The contexts from the outermost inwards and then the cause, with colons between them. -/
def Failure.message (f : Failure) : String :=
  ": ".intercalate (f.contexts.reverse ++ [f.cause])

/-- What an action is given: the values of the parts, or the value of the alternative that matched
together with its place among the alternatives. -/
structure Arguments where
  values : List Value
  alternative : Option Nat := none
  deriving DecidableEq

structure Effect (σ : Type) where
  slot : Value
  state : σ
  failure : Option Failure := none

abbrev Action (σ : Type) :=
  Arguments → Value → σ → Effect σ

/-- The action that fills the slot by a function and leaves the state alone. -/
def Action.ofPure {σ : Type} (f : Arguments → Value → Value × Option Failure) : Action σ :=
  fun args slot state =>
    let (slot, failure) := f args slot
    ⟨slot, state, failure⟩

@[simp] theorem Action.state_ofPure {σ : Type} (f : Arguments → Value → Value × Option Failure)
    (args : Arguments) (slot : Value) (state : σ) :
    (Action.ofPure f args slot state).state = state := rfl

end ParserAlgebra
