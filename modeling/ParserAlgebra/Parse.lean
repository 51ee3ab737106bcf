import ParserAlgebra.Run

/-!
# Parsing a whole input

The two ways to put a grammar to use: `parse` runs it from the beginning of an input and accepts
whatever it takes, `parseComplete` asks it to take everything and makes an error of both a mismatch
and of input that is left.
-/

namespace ParserAlgebra.Environment

variable {σ : Type}

/-- The configuration at the beginning of an input, with a fresh slot of a kind. -/
def startOf (kind : Kind) (input : List Char) (state : σ) : Config σ :=
  ⟨.ofInput input, some kind.default, state⟩

def parse (env : Environment σ) (limit : Nat) (kind : Kind) (g : Grammar σ) (input : List Char)
    (state : σ) : Except Stop (Outcome σ) :=
  env.run limit g (startOf kind input state)

/-- Runs a grammar from the beginning of an input that it has to take as a whole. -/
def parseComplete (env : Environment σ) (limit : Nat) (kind : Kind) (g : Grammar σ)
    (input : List Char) (state : σ) : Except Stop (Outcome σ) := do
  let o ← env.parse limit kind g input state
  match o.verdict with
  | .failed _ => pure o
  | .mismatched =>
    (env.raiseFor .expected "syntax error" g .start o.config).map (·.after o.records)
  | .matched =>
    if o.config.cursor.isAtEnd then pure o
    else
      (env.raiseFor .trailing "unexpected trailing input" g .start o.config).map
        (·.after o.records)

end ParserAlgebra.Environment
