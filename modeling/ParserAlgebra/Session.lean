import ParserAlgebra.Session.Command

/-!
# Sessions

A session keeps a cursor, a journal and named things between commands: saved locations, arenas,
handles and text slots in them, and grammars. Its store holds the rules that all of these refer to.
After each command the rules of fixed points that nothing owns any more are given up.
-/

namespace ParserAlgebra

structure Session where
  cursor : Cursor
  journal : Journal
  store : Store Journal
  names : Names
  arenas : Table String ArenaId
  texts : Table String Slot
  positions : Table String Position

namespace Session

/-- The depth to which rules and iterations may nest in a run of a session. -/
def nestingLimit : Nat :=
  1000000

/-- A step of a session: it makes log records and may be refused. What was done before a refusal
stays done. -/
abbrev Job :=
  ReaderT Verbosity (ExceptT Refusal (StateM (Session × List LogRecord)))

/-- The session at its beginning: an empty input and one arena, whose name is empty. -/
def initial : Session :=
  let (id, arenas) := Arenas.create .empty
  { cursor := .ofInput []
    journal := {}
    store := { Store.empty with arenas }
    names := .empty
    arenas := [("", id)]
    texts := []
    positions := [] }

namespace Job

def session : Job Session := do
  pure (← get).1

def update (f : Session → Session) : Job Unit :=
  modify fun (s, records) => (f s, records)

def refuse {α : Type} (r : Refusal) : Job α :=
  throw r

def find {κ α : Type} [DecidableEq κ] (name : String) (t : Table κ α) (key : κ) : Job α :=
  match t.get? key with
  | some a => pure a
  | none => refuse (.unknownName name)

/-- Builds a grammar with the names of the session. -/
def build (kind : Kind) (g : Blueprint) : Job (Grammar Journal) := do
  let s ← session
  match (g.build s.names kind).run s.store with
  | .ok (g, store) =>
    update fun s => { s with store }
    pure g
  | .error e => refuse (.build e)

/-- Something that may stop, with the rules of the session. -/
def attempt {α : Type} (f : Environment Journal → Except Stop α) : Job α := do
  let s ← session
  match f ⟨s.store, ← read⟩ with
  | .ok a => pure a
  | .error stop => refuse (.stop stop)

/-- A run with the rules of the session. Its state becomes the journal and its records are kept. -/
def conclude (f : Environment Journal → Except Stop (Outcome Journal)) :
    Job (Outcome Journal) := do
  let o ← attempt f
  modify fun (s, records) => ({ s with journal := o.config.state }, records ++ o.records)
  pure o

/-- The location that a reference means on an input. -/
def resolve (c : Cursor) : PositionRef → Job Position
  | .atOffset offset => pure (c.positionAt offset)
  | .given p => pure p
  | .saved name => do find name (← session).positions name

/-- A fault of the cursor as a refusal. -/
def orFault {α : Type} : Except Fault α → Job α
  | .ok a => pure a
  | .error f => refuse (.stop (.fault f))

/-- Something that can be written to the end. -/
def written {α : Type} : Option α → Job α
  | some a => pure a
  | none => refuse (.stop .nestingLimit)

def setJournal (journal : Option Journal) : Job Unit :=
  update fun s => { s with journal := journal.getD s.journal }

/-- Sets the cursor and tells where it is. -/
def moveTo (c : Cursor) : Job Answer := do
  update fun s => { s with cursor := c }
  pure (.place c)

def runHere (g : Grammar Journal) (slot : Option Value) : Job RunReport := do
  let s ← session
  let o ← conclude fun env => env.run nestingLimit g ⟨s.cursor, slot, s.journal⟩
  update fun s => { s with cursor := o.config.cursor }
  pure ⟨o.verdict, o.config.slot, o.config.cursor, o.config.state⟩

def put (slot : Slot) (content : Content Journal) : Job Answer := do
  let s ← session
  match s.store.put slot content with
  | .ok store =>
    update fun s => { s with store }
    pure (.done true)
  | .error e => refuse (.slot e)

/-- Allocates a slot in a named arena. -/
def allocate (arena : String) : Job Slot := do
  let s ← session
  let id ← find arena s.arenas arena
  match s.store.arenas.alloc id with
  | some (slot, arenas) =>
    update fun s => { s with store := { s.store with arenas } }
    pure slot
  | none => refuse (.unknownName arena)

def dropArena (name : String) : Job Bool := do
  let s ← session
  match s.arenas.get? name with
  | some id =>
    update fun s =>
      { s with
        store := { s.store with arenas := s.store.arenas.drop id }
        arenas := s.arenas.erase name }
    pure true
  | none => pure false

/-- Tries the recursive occurrence of a fixed point on a new input. -/
def probe (kind : Kind) (g : Grammar Journal) (input : String) : Job ProbeReport := do
  update fun s => { s with cursor := .ofInput input.toList }
  let run ← runHere g (some kind.default)
  let (text, definitions) ← written ((← session).store.describe g .empty)
  pure ⟨run, text, definitions⟩

/-- Binds a fixed point to its name. The recursive occurrence is there before the body is built, and
stays known, without a rule, if the body is refused. -/
def fix (name : String) (kind : Kind) (g : Blueprint) (input : Option String) : Job Answer := do
  let (rule, store) := (← session).store.announce
  update fun s =>
    { s with store, names := { s.names with leaks := s.names.leaks.set (name, kind) rule } }
  let report ← input.mapM (probe kind (.fixed .borrower name rule))
  let s ← session
  match (g.build (s.names.within (name, kind) rule) kind).run s.store with
  | .error e => refuse (.build e)
  | .ok (g, store) =>
    let bound := Grammar.fixed .owner name rule
    update fun s =>
      { s with
        store := store.settle rule g
        names := { s.names with bindings := s.names.bindings.set (name, kind) bound } }
    pure (.fixed report)

end Job

open Job in
def carryOut : Command → Job Answer
  | .classify p symbols => pure (.classified p.name p.rank (symbols.map p.accepts))
  | .nameSymbols symbols => pure (.symbolNames (symbols.map showSymbol))
  | .comparePositions p q => pure (.order (p.compare q))
  | .write kind g definitions context => do
    let g ← build kind g
    let store := (← session).store
    let (collecting, definitions) ← written (store.describe g definitions)
    let alone ← written (store.ebnf g)
    let (rank, _) ← written (store.rank g [])
    let enclosed ← context.mapM fun context => do
      let (text, _) ← written (store.writeUnder context g (.fresh none))
      pure text
    pure (.writing ⟨collecting, definitions, alone, rank, g.mayAct, enclosed⟩)
  | .locate kind g error message input start offset reported => do
    let g ← build kind g
    let c := (Cursor.ofInput input.toList).advanceTo offset
    let start ← resolve c start
    let reported ← reported.elim (pure c.position) (resolve c)
    let expectation ← attempt fun env => env.expectationOf g
    let e ← orFault (ParseError.locate error message expectation start reported c)
    let records := (← read).record .debug e.summary
    modify fun (s, earlier) => (s, earlier ++ records)
    pure (.located e)
  | .parse kind g input journal => do
    let g ← build kind g
    setJournal journal
    let s ← session
    let o ← conclude fun env => env.parse nestingLimit kind g input.toList s.journal
    pure (.parsed o.verdict o.config.slot o.config.state)
  | .parseComplete kind g input journal => do
    let g ← build kind g
    setJournal journal
    let s ← session
    let o ← conclude fun env => env.parseComplete nestingLimit kind g input.toList s.journal
    pure (.parsed o.verdict o.config.slot o.config.state)
  | .run kind g input journal offset slot => do
    let g ← build kind g
    setJournal journal
    update fun s =>
      let c := input.elim s.cursor fun text => .ofInput text.toList
      { s with cursor := offset.elim c c.advanceTo }
    let slot ←
      match slot with
      | .fresh => pure (some kind.default)
      | .absent => pure none
      | .holding v =>
        match v.convert kind with
        | .ok v => pure (some v)
        | .error e => refuse (.conversion e)
    return .ran (← runHere g slot)
  | .load input => do
    update fun s => { s with cursor := .ofInput input.toList }
    pure (.done true)
  | .peek => do
    let c := (← session).cursor
    pure (.symbol c.symbol? c)
  | .advance => do
    let c := (← session).cursor
    update fun s => { s with cursor := c.advance }
    pure (.symbol c.symbol? c.advance)
  | .advanceTo offset => do moveTo ((← session).cursor.advanceTo offset)
  | .checkpoint => do moveTo (← session).cursor.checkpoint
  | .backtrack => do moveTo (← orFault (← session).cursor.backtrack)
  | .commit => do moveTo (← orFault (← session).cursor.commit)
  | .rest => do pure (.rest (← session).cursor)
  | .savePosition name => do
    let p := (← session).cursor.position
    update fun s => { s with positions := s.positions.set name p }
    pure (.position p)
  | .line p => do
    let c := (← session).cursor
    let text ← orFault (c.line (← resolve c p))
    pure (.line (String.ofList text))
  | .spanFrom p => do
    let c := (← session).cursor
    pure (.span (c.spanFrom (← resolve c p)))
  | .createArena name => do
    let _ ← dropArena name
    let (id, arenas) := (← session).store.arenas.create
    update fun s =>
      { s with store := { s.store with arenas }, arenas := s.arenas.set name id }
    pure (.done true)
  | .dropArena name => do pure (.done (← dropArena name))
  | .declareHandle name kind arena => do
    let slot ← allocate arena
    update fun s =>
      { s with names := { s.names with handles := s.names.handles.set (name, kind) slot } }
    pure (.done true)
  | .defineHandle name kind g => do
    let slot ← find name (← session).names.handles (name, kind)
    let g ← build kind g
    put slot (.rule g)
  | .declareText name arena => do
    let slot ← allocate arena
    update fun s => { s with texts := s.texts.set name slot }
    pure (.done true)
  | .storeText name text => do
    let slot ← find name (← session).texts name
    put slot (.text text)
  | .readText name => do
    let s ← session
    let slot ← find name s.texts name
    pure (.text (s.store.text? slot))
  | .bind name kind g => do
    let g ← build kind g
    update fun s =>
      { s with names := { s.names with bindings := s.names.bindings.set (name, kind) g } }
    pure (.done true)
  | .fix name kind g probe => fix name kind g probe
  | .unbind name kind => do
    let s ← session
    let bound := (s.names.bindings.get? (name, kind)).isSome
    update fun s =>
      { s with names := { s.names with bindings := s.names.bindings.erase (name, kind) } }
    pure (.done bound)

/-- Gives up the rules that neither a bound grammar nor a live arena owns. -/
def sweep (s : Session) : Session :=
  { s with store := s.store.sweep s.names.bindings.values }

/-- Carries out a command and answers with the log records that the verbosity asks for. A command
that is refused keeps what it changed and recorded before. -/
def perform (verbosity : Verbosity) (s : Session) (command : Command) :
    Session × Answer × List LogRecord :=
  let (result, (s, records)) := (((carryOut command).run verbosity).run).run (s, [])
  let answer :=
    match result with
    | .ok answer => answer
    | .error r => .refused r
  (s.sweep, answer, records)

end Session

end ParserAlgebra
