import ParserAlgebra.Action.Script
import ParserAlgebra.Grammar.Store
import ParserAlgebra.Regex.MatchPath
import ParserAlgebra.Regex.Reader
import ParserAlgebra.Session.Table

/-!
# Blueprints

A blueprint is a grammar before it is built: regular expressions are still texts, actions are
scripts, and handles, shared grammars and recursive occurrences are names, whose meaning depends on
the kind of value that is wanted. Building finds out what the names mean and enters the fixed points
of the blueprint into a store.
-/

namespace ParserAlgebra

inductive Blueprint where
  | accept (p : Predicate)
  | expect (p : Predicate)
  | literal (text : String)
  | pattern (source : String)
  | succeed
  | fail
  | firstToken
  | sequence (first second : Blueprint)
  | choice (first second : Blueprint)
  | many (item : Blueprint)
  | manyOne (item : Blueprint)
  | option (item : Blueprint)
  | sepBy (item separator : Blueprint) (separatorKind : Kind)
  | discard (item : Blueprint) (itemKind : Kind)
  | except (item : Blueprint) (forbidden : Value)
  | attempt (item : Blueprint)
  | attemptPure (item : Blueprint)
  | strict (message : String) (item : Blueprint)
  | trace (label : String) (item : Blueprint)
  | token (item : Blueprint)
  | shared (item : Blueprint)
  | reference (name : String) (body : Blueprint)
  | define (name : String) (body : Blueprint)
  | rename (name : String) (rank : Rank) (body : Blueprint)
  | all (usesState : Bool) (script : Script) (parts : List (Kind × Blueprint))
  | any (usesState : Bool) (script : Script) (parts : List (Kind × Blueprint))
  /-- A fixed point of the given name, which stands for itself inside the body. -/
  | fix (name : String) (body : Blueprint)
  /-- The innermost fixed point around that has the name. -/
  | recur (name : String)
  /-- A declared handle. -/
  | handle (name : String)
  | use (name : String)
  /-- The recursive occurrence of a fixed point that was bound to a name. -/
  | leaked (name : String)

inductive BuildError where
  | regex (source : String)
  | unknownName (name : String)
  | forbidden (error : ConversionError)
  deriving DecidableEq

/-- A name for something that produces values of a kind. -/
abbrev KindedName :=
  String × Kind

/-- What the names of a blueprint mean. -/
structure Names where
  handles : Table KindedName Slot
  bindings : Table KindedName (Grammar Journal)
  leaks : Table KindedName RuleId
  enclosing : Table KindedName RuleId

namespace Names

def empty : Names :=
  ⟨[], [], [], []⟩

/-- The names inside the body of a fixed point. -/
def within (names : Names) (name : KindedName) (rule : RuleId) : Names :=
  { names with enclosing := names.enclosing.set name rule }

end Names

/-- A step of building: it may change the store, unless it fails. -/
abbrev Build :=
  StateT (Store Journal) (Except BuildError)

namespace Blueprint

def lookup {α : Type} (t : Table KindedName α) (name : String) (kind : Kind) : Build α :=
  match t.get? (name, kind) with
  | some a => pure a
  | none => throw (.unknownName name)

/-- Builds a fixed point around its body: its number is announced first, so that the body can refer
to it, and its rule is settled when the body is there. -/
def buildFixed (name : String) (body : RuleId → Build (Grammar Journal)) :
    Build (Grammar Journal) := do
  let rule ← modifyGet Store.announce
  let g ← body rule
  modify (·.settle rule g)
  pure (.fixed .owner name rule)

/-- Builds the grammar that a blueprint describes where values of a kind are wanted. -/
def build : Blueprint → Names → Kind → Build (Grammar Journal)
  | .accept p, _, _ => pure (.accept p)
  | .expect p, _, _ => pure (.expect p)
  | .literal s, _, _ => pure (.literal s)
  | .pattern source, _, _ =>
    match Regex.ofString? source with
    | some regex => pure (.pattern source regex.program.matcher)
    | none => throw (.regex source)
  | .succeed, _, _ => pure .succeed
  | .fail, _, _ => pure .fail
  | .firstToken, _, _ => pure .firstToken
  | .sequence a b, names, kind => return .sequence (← a.build names kind) (← b.build names kind)
  | .choice a b, names, kind => return .choice (← a.build names kind) (← b.build names kind)
  | .many g, names, kind => return .many (← g.build names kind)
  | .manyOne g, names, kind => return .manyOne (← g.build names kind)
  | .option g, names, kind => return .option (← g.build names kind)
  | .sepBy item separator separatorKind, names, kind =>
    return .sepBy (← item.build names kind) (← separator.build names separatorKind)
  | .discard g itemKind, names, _ => return .discard (← g.build names itemKind)
  | .except g forbidden, names, kind => do
    let g ← g.build names kind
    match forbidden.convert kind with
    | .ok v => pure (.except kind g v)
    | .error e => throw (.forbidden e)
  | .attempt g, names, kind => return .attempt (← g.build names kind)
  | .attemptPure g, names, kind => return .attemptPure (← g.build names kind)
  | .strict message g, names, kind => return .strict message (← g.build names kind)
  | .trace label g, names, kind => return .trace label (← g.build names kind)
  | .token g, names, kind => return .token (← g.build names kind)
  | .shared g, names, kind => return .shared (← g.build names kind)
  | .reference name g, names, kind => return .reference name (← g.build names kind)
  | .define name g, names, kind => return .define name (← g.build names kind)
  | .rename name rank g, names, kind => return .rename name rank (← g.build names kind)
  | .all usesState script parts, names, kind =>
    return .all kind (script.toAction usesState) (← buildParts parts names)
  | .any usesState script parts, names, kind =>
    return .any kind (script.toAction usesState) (← buildParts parts names)
  | .fix name g, names, kind =>
    buildFixed name fun rule => g.build (names.within (name, kind) rule) kind
  | .recur name, names, kind => return .fixed .borrower name (← lookup names.enclosing name kind)
  | .handle name, names, kind => return .handle (← lookup names.handles name kind)
  | .use name, names, kind => return .shared (← lookup names.bindings name kind)
  | .leaked name, names, kind => return .fixed .borrower name (← lookup names.leaks name kind)
where
  /-- Builds parts in order, each where values of its own kind are wanted. -/
  buildParts : List (Kind × Blueprint) → Names → Build (List (Kind × Grammar Journal))
    | [], _ => pure []
    | (kind, g) :: parts, names =>
      return (kind, ← g.build names kind) :: (← buildParts parts names)

end Blueprint

end ParserAlgebra
