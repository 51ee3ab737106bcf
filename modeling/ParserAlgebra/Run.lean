import ParserAlgebra.Diagnostic
import ParserAlgebra.Grammar.Ebnf
import ParserAlgebra.Log

/-!
# Runs

A run takes a grammar from a configuration (a cursor, perhaps an output slot, and the external
state) to a verdict and another configuration. A mismatch is not an error; it becomes one where a
rule that other rules were to take the place of did not match although it had moved the cursor.

`runLevel` says what each combinator does, given the runs of its parts. `run` ties the knot. It
follows the rules of a store, which may refer to each other without end, so it takes a bound on how
deep rules and iterations may nest; going beyond it is a `Stop`, as is a fault of the cursor.
-/

namespace ParserAlgebra

/-- What a grammar said of the input. -/
inductive Verdict where
  | matched
  | mismatched
  | failed (error : ParseError)
  deriving DecidableEq

/-- What a run reads and changes. A run without a slot drops the value. -/
structure Config (σ : Type) where
  cursor : Cursor
  slot : Option Value
  state : σ

/-- The end of a run, with the records made on the way. -/
structure Outcome (σ : Type) where
  verdict : Verdict
  config : Config σ
  records : List LogRecord := []

/-- Why a run did not come to an end. -/
inductive Stop where
  | nestingLimit
  | fault (f : Fault)
  deriving DecidableEq

/-- What runs consult and do not change. -/
structure Environment (σ : Type) where
  store : Store σ
  verbosity : Verbosity

/-- A step that may not come to an end. -/
abbrev Step (σ : Type) :=
  Config σ → Except Stop (Outcome σ)

variable {σ : Type}

/-- Puts a text behind the text in a slot. Slots of other kinds take no text. -/
def Value.pushText (text : String) : Value → Value
  | .text s => .text (s ++ text)
  | v => v

namespace Config

def matched (c : Config σ) : Outcome σ :=
  { verdict := .matched, config := c }

def mismatched (c : Config σ) : Outcome σ :=
  { verdict := .mismatched, config := c }

/-- Moves to a byte offset and puts the text passed into the slot. -/
def take (text : List Char) (c : Config σ) : Config σ :=
  { c with
    cursor := c.cursor.advanceTo (c.cursor.offset + Text.byteLength text)
    slot := c.slot.map (·.pushText (String.ofList text)) }

/-- Moves past the current symbol, if there is one, and puts it into the slot. -/
def takeSymbol (c : Config σ) : Config σ :=
  match c.cursor.symbol? with
  | none => c
  | some s =>
    { c with
      cursor := c.cursor.advance
      slot := c.slot.map (·.pushText s.toString) }

end Config

namespace Outcome

/-- Puts earlier records before those of an outcome. -/
def after (earlier : List LogRecord) (o : Outcome σ) : Outcome σ :=
  { o with records := earlier ++ o.records }

/-- Puts another slot in the place of the one that the run was given. -/
def withSlot (slot : Option Value) (o : Outcome σ) : Outcome σ :=
  { o with config := { o.config with slot } }

/-- Goes on where a match ended; another verdict stands. -/
def andThen (o : Outcome σ) (next : Step σ) : Except Stop (Outcome σ) :=
  match o.verdict with
  | .matched => (next o.config).map (·.after o.records)
  | _ => .ok o

/-- Closes the checkpoint of a run and stays where the run ended. -/
def commit (o : Outcome σ) : Except Stop (Outcome σ) := do
  let cursor ← o.config.cursor.commit.mapError .fault
  pure { o with config := { o.config with cursor } }

/-- Closes the checkpoint of a run and returns to it. -/
def backtrack (o : Outcome σ) : Except Stop (Outcome σ) := do
  let cursor ← o.config.cursor.backtrack.mapError .fault
  pure { o with config := { o.config with cursor } }

/-- Takes the state back to what it was, if it may have been changed. -/
def restoreState (mayAct : Bool) (state : σ) (o : Outcome σ) : Outcome σ :=
  if mayAct then { o with config := { o.config with state } } else o

end Outcome

namespace Environment

def raise (env : Environment σ) (kind : ErrorKind) (message : String) (expectation : Expectation)
    (start reported : Position) : Step σ := fun c => do
  let e ← (ParseError.locate kind message expectation start reported c.cursor).mapError .fault
  pure ⟨.failed e, c, env.verbosity.record .debug e.summary⟩

/-- What is expected where a grammar did not match. -/
def expectationOf (env : Environment σ) (g : Grammar σ) : Except Stop Expectation :=
  match env.store.describe g .empty with
  | some (text, definitions) => .ok ⟨text, definitions⟩
  | none => .error .nestingLimit

/-- Ends a run with an error of a grammar that began at `start`, reported at the cursor. -/
def raiseFor (env : Environment σ) (kind : ErrorKind) (message : String) (g : Grammar σ)
    (start : Position) : Step σ := fun c => do
  env.raise kind message (← env.expectationOf g) start c.cursor.position c

def raiseUndefined (env : Environment σ) : Step σ := fun c =>
  env.raise .undefined "grammar handle used before definition" .unknown c.cursor.position
    c.cursor.position c

/-- Goes on where a mismatch ended, unless the cursor has moved since `start`: that is an error of
the grammar `tried`. Another verdict stands. -/
def orElse (env : Environment σ) (message : String) (tried : Grammar σ) (start : Position)
    (o : Outcome σ) (next : Step σ) : Except Stop (Outcome σ) :=
  match o.verdict with
  | .mismatched =>
    if o.config.cursor.offset ≠ start.offset then
      (env.raiseFor .consumed message tried start o.config).map (·.after o.records)
    else
      (next o.config).map (·.after o.records)
  | _ => .ok o

/-- The message of the error for a branch that did not match although it had moved the cursor. -/
def branchConsumed : String :=
  "failed parser consumed input"

/-- The message of the error for an iteration that moved the cursor and then did not match. -/
def iterationConsumed : String :=
  "failed many-parser consumed input"

/-- Repeats a step until it does not match or matches without moving the cursor. `owed` is the
number of matches still needed for the whole to match; `blamed` is the grammar to name if an
iteration that does not match has moved the cursor. -/
def iterate (env : Environment σ) (blamed : Grammar σ) (step : Step σ) : Nat → Nat → Step σ
  | 0, _, _ => .error .nestingLimit
  | n + 1, owed, c => do
    let o ← step c
    match o.verdict with
    | .matched =>
      if o.config.cursor.offset = c.cursor.offset then
        pure { o with verdict := if owed ≤ 1 then .matched else .mismatched }
      else
        (env.iterate blamed step n (owed - 1) o.config).map (·.after o.records)
    | _ =>
      env.orElse iterationConsumed blamed c.cursor.position o fun c =>
        .ok (if owed = 0 then c.matched else c.mismatched)

/-- Runs a step into a fresh slot of a kind. The slot of the configuration stays as it is. -/
def runInto (step : Step σ) (kind : Kind) (c : Config σ) : Except Stop (Value × Outcome σ) := do
  let o ← step { c with slot := some kind.default }
  pure (o.config.slot.getD kind.default, o.withSlot c.slot)

/-- Runs parts in order, each from where the one before it stopped. -/
def runAll (run : Grammar σ → Step σ) :
    List (Kind × Grammar σ) → Config σ → Except Stop (List Value × Outcome σ)
  | [], c => .ok ([], c.matched)
  | (kind, g) :: parts, c => do
    let (v, o) ← runInto (run g) kind c
    match o.verdict with
    | .matched => do
      let (vs, rest) ← runAll run parts o.config
      pure (v :: vs, rest.after o.records)
    | _ => pure ([], o)

/-- Tries parts in order, all of them from the same place, and gives the value and the number of the
first that matches. -/
def runAny (env : Environment σ) (run : Grammar σ → Step σ) (start : Position) :
    Nat → List (Kind × Grammar σ) → Config σ → Except Stop (Option (Nat × Value) × Outcome σ)
  | _, [], c => .ok (none, c.mismatched)
  | i, (kind, g) :: parts, c => do
    let (v, o) ← runInto (run g) kind c
    match o.verdict with
    | .matched => pure (some (i, v), o)
    | .failed _ => pure (none, o)
    | .mismatched =>
      if o.config.cursor.offset ≠ start.offset then do
        let e ← env.raiseFor .consumed branchConsumed g start o.config
        pure (none, e.after o.records)
      else do
        let (found, rest) ← env.runAny run start (i + 1) parts o.config
        pure (found, rest.after o.records)

/-- Calls the action of a grammar that began at `start`, on the slot or on a scratch value. An
action that fails is an error reported where the grammar began. -/
def act (env : Environment σ) (g : Grammar σ) (kind : Kind) (action : Action σ) (args : Arguments)
    (start : Position) : Step σ := fun c => do
  let effect := action args (c.slot.getD kind.default) c.state
  let c := { c with slot := c.slot.map fun _ => effect.slot, state := effect.state }
  match effect.failure with
  | none => pure c.matched
  | some failure => env.raise .action failure.message (← env.expectationOf g) start start c

/-- The end of a speculation: a match is kept; anything else goes back to the configuration `c` in
which it began, but for the state if it is not to be restored. -/
def settle (env : Environment σ) (g : Grammar σ) (restores : Bool) (c : Config σ)
    (o : Outcome σ) : Except Stop (Outcome σ) :=
  match o.verdict with
  | .matched => o.commit
  | _ => do
    let note ←
      if env.verbosity.shows .trace then
        match env.store.ebnf g with
        | some text =>
          pure <| env.verbosity.record .trace <|
            "backtracking from " ++ toString o.config.cursor.offset ++ " to " ++
              toString c.cursor.offset ++ " after " ++ text
        | none => throw .nestingLimit
      else
        pure []
    let back ← { o with records := o.records ++ note }.backtrack
    pure ((back.restoreState restores c.state).withSlot c.slot)

/-- The end of a run into a fresh slot, begun in configuration `c`: a match with the forbidden value
is taken back, one with another value replaces what the slot holds. -/
def settleExcept (env : Environment σ) (mayAct : Bool) (forbidden : Value) (c : Config σ)
    (o : Outcome σ) : Except Stop (Outcome σ) :=
  match o.verdict with
  | .matched =>
    if o.config.slot = some forbidden then do
      let note :=
        env.verbosity.record .trace <|
          "rejected " ++ forbidden.written ++ " at offset " ++ toString o.config.cursor.offset
      let back ← { o with verdict := .mismatched, records := o.records ++ note }.backtrack
      pure ((back.restoreState mayAct c.state).withSlot c.slot)
    else do
      let kept ← o.commit
      pure (kept.withSlot (if c.slot.isSome then o.config.slot else none))
  | _ => do
    let kept ← o.commit
    pure (kept.withSlot c.slot)

/-- The records of a run that began at `start` and is logged under a label. -/
def traceRecords (env : Environment σ) (label : String) (start : Position) (o : Outcome σ) :
    Except Stop (List LogRecord) :=
  let place := toString start.row ++ ":" ++ toString start.column
  match o.verdict with
  | .matched => do
    if env.verbosity.shows .debug then
      let text ← (o.config.cursor.slice (o.config.cursor.spanFrom start)).mapError .fault
      pure <| env.verbosity.record .debug <|
        label ++ ": matched " ++ Text.quote (String.ofList text) ++ " at " ++ place
    else
      pure []
  | .mismatched => pure (env.verbosity.record .trace (label ++ ": no match at " ++ place))
  | .failed e => pure (env.verbosity.record .trace (label ++ ": " ++ e.headline))

/-- One level of a run. The parts of the grammar, and the rules that it goes on with, are left to
`run`; iterations nest at most `n` deep. -/
def runLevel (env : Environment σ) (run : Grammar σ → Step σ) (n : Nat) (g : Grammar σ) : Step σ :=
  fun c =>
    match g with
    | .accept p =>
      .ok (if p.accepts c.cursor.symbol? then c.takeSymbol.matched else c.mismatched)
    | .expect p =>
      if p.accepts c.cursor.symbol? then .ok c.takeSymbol.matched
      else env.raiseFor .expected "unexpected symbol" g c.cursor.position c
    | .literal s =>
      .ok (if s.toList.isPrefixOf c.cursor.ahead then (c.take s.toList).matched else c.mismatched)
    | .pattern _ matcher =>
      match matcher.matchAhead? c.cursor.before? c.cursor.ahead with
      | some text => .ok (c.take text).matched
      | none => .ok c.mismatched
    | .succeed => .ok c.matched
    | .fail => .ok c.mismatched
    | .sequence a b => do
      let o ← run a c
      o.andThen (run b)
    | .choice a b => do
      let o ← run a c
      env.orElse branchConsumed a c.cursor.position o (run b)
    | .repetition atLeast item => env.iterate item (run item) n atLeast c
    | .option item => do
      let o ← run item c
      env.orElse branchConsumed item c.cursor.position o fun c => .ok c.matched
    | .sepBy item separator => do
      let first ← run item c
      first.andThen <|
        env.iterate g
          (fun c => do
            let o ← run separator { c with slot := none }
            (o.withSlot c.slot).andThen (run item))
          n 0
    | .discard item => do
      let o ← run item { c with slot := none }
      pure (o.withSlot c.slot)
    | .except kind item forbidden => do
      let o ← run item { c with cursor := c.cursor.checkpoint, slot := some kind.default }
      env.settleExcept item.mayAct forbidden c o
    | .attempt item => do
      let o ← run item { c with cursor := c.cursor.checkpoint }
      env.settle item item.mayAct c o
    | .attemptPure item => do
      let o ← run item { c with cursor := c.cursor.checkpoint }
      env.settle item false c o
    | .strict message item => do
      let o ← run item c
      match o.verdict with
      | .mismatched =>
        (env.raiseFor .strict message item c.cursor.position o.config).map (·.after o.records)
      | _ => pure o
    | .trace label item => do
      let o ← run item c
      pure { o with records := o.records ++ (← env.traceRecords label c.cursor.position o) }
    | .token item => do
      let o ← run item c
      o.andThen fun c => .ok { c with cursor := c.cursor.skipWhile Unicode.isBlank }.matched
    | .shared item | .reference _ item | .define _ item | .rename _ _ item => run item c
    | .all kind action parts => do
      let (vs, o) ← runAll run parts c
      o.andThen (env.act g kind action ⟨vs, none⟩ c.cursor.position)
    | .any kind action parts => do
      match ← env.runAny run c.cursor.position 0 parts c with
      | (some (i, v), o) => o.andThen (env.act g kind action ⟨[v], some i⟩ c.cursor.position)
      | (none, o) => pure o
    | .handle slot =>
      match env.store.handle? slot with
      | some rule => run rule c
      | none => env.raiseUndefined c
    | .fixed _ _ rule =>
      match env.store.fixed? rule with
      | some rule => run rule c
      | none => env.raiseUndefined c

/-- Runs a grammar, with rules and iterations nested at most so deep. -/
def run (env : Environment σ) : Nat → Grammar σ → Step σ
  | 0, _, _ => .error .nestingLimit
  | n + 1, g, c => env.runLevel (env.run n) n g c

end Environment

end ParserAlgebra
