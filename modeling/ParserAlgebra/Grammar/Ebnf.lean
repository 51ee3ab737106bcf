import ParserAlgebra.Definitions
import ParserAlgebra.Grammar.Store

/-!
# Grammars written as EBNF

A grammar is written with the operators of extended Backus–Naur form, in parentheses where the ranks
of the parts ask for them. Named rules are written as their names; if definitions are being
collected, the body of a rule is written into them when its name is first come upon.

Rules may be cyclic. A cycle through names ends at a name that has been entered, a cycle through a
handle at the handle itself, which is marked while its rule is being written and is then written as
three dots. Asking for the rank of a handle marks it too. All marks made are taken back.

Writing follows the rules of a store, not the tree alone, so the functions take a bound on the depth
to which they go; `Store.depthBound` is enough for every store.
-/

namespace ParserAlgebra

/-- The state of a rendering: the handles whose rules are being written, and the definitions if they
are collected. -/
structure Rendering where
  active : List Slot
  definitions : Option Definitions
  deriving DecidableEq

namespace Rendering

def fresh (definitions : Option Definitions) : Rendering :=
  ⟨[], definitions⟩

/-- Marks a handle, unless it is marked already. -/
def enter? (active : List Slot) (slot : Slot) : Option (List Slot) :=
  if slot ∈ active then none else some (slot :: active)

/-- Takes back the mark of a handle. -/
def leave (active : List Slot) (slot : Slot) : List Slot :=
  active.erase slot

theorem leave_of_enter? {active marked : List Slot} {slot : Slot}
    (h : enter? active slot = some marked) : leave marked slot = active := by
  unfold enter? at h
  split at h
  · simp at h
  · cases h; simp [leave]

end Rendering

namespace Grammar

variable {σ : Type}

/-- The rank of a grammar, with the marks after it has been found. -/
def rankWithin (store : Store σ) : Nat → Grammar σ → List Slot → Option (Rank × List Slot)
  | 0, _, _ => none
  | n + 1, g, active =>
    match g with
    | .accept p | .expect p => some (p.rank, active)
    | .literal _ | .pattern _ _ | .succeed | .fail => some (.atom, active)
    | .sequence _ _ | .sepBy _ _ => some (.sequence, active)
    | .choice _ _ => some (.choice, active)
    | .except _ _ _ => some (.except, active)
    | .repetition _ _ | .option _ | .reference _ _ | .define _ _ | .fixed _ _ _ =>
      some (.atom, active)
    | .rename _ rank _ => some (rank, active)
    | .discard g | .attempt g | .attemptPure g | .strict _ g | .trace _ g | .token g | .shared g =>
      g.rankWithin store n active
    | .all _ _ [(_, g)] | .any _ _ [(_, g)] => g.rankWithin store n active
    | .all _ _ _ => some (.sequence, active)
    | .any _ _ _ => some (.choice, active)
    | .handle slot =>
      match store.handle? slot, Rendering.enter? active slot with
      | some g, some marked => do
        let (rank, active) ← g.rankWithin store n marked
        some (rank, Rendering.leave active slot)
      | _, _ => some (.atom, active)

/-- A way of writing something in the course of a rendering. -/
abbrev Writer :=
  Rendering → Option (String × Rendering)

def Writer.text (s : String) : Writer :=
  fun r => some (s, r)

/-- Writes the name of a rule; its body is entered among the definitions, under a placeholder that
is there while the body is being written. -/
def Writer.reference (name : String) (body : Writer) : Writer := fun r =>
  match r.definitions with
  | none => some (name, r)
  | some d =>
    if d.contains name then some (name, r)
    else do
      let (text, r) ← body { r with definitions := some (d.insert name name) }
      some (name, { r with definitions := r.definitions.map (·.amend name text) })

/-- Writes the name of a rule; its body is written first and then entered among the definitions. -/
def Writer.define (name : String) (body : Writer) : Writer := fun r =>
  match r.definitions with
  | none => some (name, r)
  | some d =>
    if d.contains name then some (name, r)
    else do
      let (text, r) ← body r
      some (name, { r with definitions := r.definitions.map (·.insert name text) })

/-- Writes the rule of a handle between marking the handle and taking the mark back. -/
def Writer.handle (slot : Slot) (body : Writer) : Writer := fun r =>
  match Rendering.enter? r.active slot with
  | none => some ("...", r)
  | some marked => do
    let (text, r) ← body { r with active := marked }
    some (text, { r with active := Rendering.leave r.active slot })

/-- Writes a part that stands under an operator, in parentheses if the operator asks for them. -/
def Writer.enclosed (context : Rank) (rank : List Slot → Option (Rank × List Slot))
    (part : Writer) : Writer := fun r => do
  let (own, active) ← rank r.active
  let (text, r) ← part { r with active }
  some (context.enclose own text, r)

def Writer.each : List Writer → Rendering → Option (List String × Rendering)
  | [], r => some ([], r)
  | w :: ws, r => do
    let (text, r) ← w r
    let (texts, r) ← each ws r
    some (text :: texts, r)

def Writer.separated (separator : String) (parts : List Writer) : Writer := fun r => do
  let (texts, r) ← Writer.each parts r
  some (separator.intercalate texts, r)

def Writer.around (before after : String) (part : Writer) : Writer := fun r => do
  let (text, r) ← part r
  some (before ++ text ++ after, r)

def writeWithin (store : Store σ) : Nat → Grammar σ → Writer
  | 0, _ => fun _ => none
  | n + 1, g =>
    let under (context : Rank) (g : Grammar σ) : Writer :=
      .enclosed context (g.rankWithin store n) (g.writeWithin store n)
    match g with
    | .accept p | .expect p => .text p.name
    | .literal s => .text (Text.quote s)
    | .pattern source _ => .text ("/" ++ source ++ "/")
    | .succeed => .text "succ"
    | .fail => .text "fail"
    | .sequence a b => .separated ", " [under .sequence a, under .sequence b]
    | .choice a b => .separated " | " [under .choice a, under .choice b]
    | .repetition 0 g => .around "\x7b" "\x7d" (g.writeWithin store n)
    | .repetition _ g => .around "\x7b" "\x7d-" (g.writeWithin store n)
    | .option g => .around "[" "]" (g.writeWithin store n)
    | .sepBy item separator =>
      .separated ", "
        [under .sequence item,
          .around "\x7b" "\x7d" (.separated ", " [under .sequence separator, under .sequence item])]
    | .except _ g forbidden => .around "" (" - " ++ forbidden.written) (under .except g)
    | .discard g | .attempt g | .attemptPure g | .strict _ g | .trace _ g | .token g | .shared g =>
      g.writeWithin store n
    | .reference name g => .reference name (g.writeWithin store n)
    | .define name g => .define name (g.writeWithin store n)
    | .rename name _ _ => .text name
    | .all _ _ [(_, g)] | .any _ _ [(_, g)] => g.writeWithin store n
    | .all _ _ parts => .separated ", " (parts.map fun part => under .sequence part.2)
    | .any _ _ parts => .separated " | " (parts.map fun part => under .choice part.2)
    | .handle slot =>
      match store.handle? slot with
      | none => .text "?"
      | some g => .handle slot (g.writeWithin store n)
    | .fixed _ name rule =>
      .reference name <|
        match store.fixed? rule with
        | none => .text "?"
        | some g => g.writeWithin store n

end Grammar

namespace Store

variable {σ : Type}

/-- A depth that no rendering of a grammar over the store goes beyond: each handle and each name is
entered once at most on the way down, and between two of them lies a part of one rule. -/
def depthBound (store : Store σ) (g : Grammar σ) : Nat :=
  2 * (store.size + g.size + 1) * (store.size + g.size + 1)

/-- The rank of a grammar, with the marks after it has been found. -/
def rank (store : Store σ) (g : Grammar σ) (active : List Slot) : Option (Rank × List Slot) :=
  g.rankWithin store (store.depthBound g) active

/-- The written form of a grammar, with the state of the rendering afterwards. -/
def write (store : Store σ) (g : Grammar σ) (r : Rendering) : Option (String × Rendering) :=
  g.writeWithin store (store.depthBound g) r

/-- The written form of a grammar, in parentheses where it binds looser than a rank. -/
def writeUnder (store : Store σ) (context : Rank) (g : Grammar σ) (r : Rendering) :
    Option (String × Rendering) :=
  Grammar.Writer.enclosed context (store.rank g) (store.write g) r

/-- The written form of a grammar on its own. -/
def ebnf (store : Store σ) (g : Grammar σ) : Option String :=
  (store.write g (.fresh none)).map (·.1)

/-- The written form of a grammar together with the definitions of the named rules it reaches. -/
def describe (store : Store σ) (g : Grammar σ) (definitions : Definitions) :
    Option (String × Definitions) := do
  let (text, r) ← store.write g (.fresh (some definitions))
  some (text, ← r.definitions)

end Store

end ParserAlgebra
