import ParserAlgebra.Regex.Escape

/-!
# Classes in the written form of regular expressions

A class stands in brackets: symbols, ranges, escapes, classes with a name and classes again, which
combine to a union, and operations on sets between such unions. Where case is ignored, a set takes
in the variants of its symbols before it is negated and before an operation combines it.

A class is read together with its depth, the number of brackets, unions and operations that enclose
each other in it.
-/

namespace ParserAlgebra.Regex

/-- A set, with the variants of its symbols where case is ignored. -/
def foldIf (ignoreCase : Bool) (s : SymbolSet) : SymbolSet :=
  if ignoreCase then s.ignoringCase else s

/-- A set as it counts once its brackets are closed. -/
def foldAndNegate (ignoreCase negated : Bool) (s : SymbolSet) : SymbolSet :=
  if negated then (foldIf ignoreCase s).complement else foldIf ignoreCase s

/-- The ranges of ASCII that have a name inside brackets, as in `[[:digit:]]`. -/
def namedRanges? : String → Option Unicode.Ranges
  | "alnum" => some [(0x30, 0x39), (0x41, 0x5A), (0x61, 0x7A)]
  | "alpha" => some [(0x41, 0x5A), (0x61, 0x7A)]
  | "ascii" => some [(0x00, 0x7F)]
  | "blank" => some [(0x09, 0x09), (0x20, 0x20)]
  | "cntrl" => some [(0x00, 0x1F), (0x7F, 0x7F)]
  | "digit" => some [(0x30, 0x39)]
  | "graph" => some [(0x21, 0x7E)]
  | "lower" => some [(0x61, 0x7A)]
  | "print" => some [(0x20, 0x7E)]
  | "punct" => some [(0x21, 0x2F), (0x3A, 0x40), (0x5B, 0x60), (0x7B, 0x7E)]
  | "space" => some [(0x09, 0x0D), (0x20, 0x20)]
  | "upper" => some [(0x41, 0x5A)]
  | "word" => some [(0x30, 0x39), (0x41, 0x5A), (0x5F, 0x5F), (0x61, 0x7A)]
  | "xdigit" => some [(0x30, 0x39), (0x41, 0x46), (0x61, 0x66)]
  | _ => none

/-- Reads a caret that negates what follows. -/
def readNegation : List Char → Bool × List Char
  | '^' :: cs => (true, cs)
  | cs => (false, cs)

/-- Reads a named class from its opening bracket on, if one stands there. -/
def readNamedClass (ignoreCase : Bool) : List Char → Option (SymbolSet × List Char)
  | '[' :: ':' :: cs =>
    let (negated, cs) := readNegation cs
    let (name, rest) := cs.span (· ≠ ':')
    match rest with
    | ':' :: ']' :: rest => do
      let ranges ← namedRanges? (String.ofList name)
      pure (foldAndNegate ignoreCase negated (.ofRanges ranges), rest)
    | _ => none
  | _ => none

/-- Reads one item of a class: a symbol, or an escape for a symbol or a set. -/
def readClassItem : List Char → Option (Escape × List Char)
  | [] => none
  | '\\' :: cs =>
    match readEscape cs with
    | some (.condition _, _) => none
    | item => item
  | c :: cs => some (.symbol c, cs)

/-- Reads one item of a class, or a range between two symbols. A minus before the closing bracket or
before another minus makes no range. -/
def readClassRange (cs : List Char) : Option (SymbolSet × List Char) := do
  let (low, rest) ← readClassItem cs
  let single : Option (SymbolSet × List Char) :=
    match low with
    | .symbol c => some (.singleton c, rest)
    | .symbols s => some (s, rest)
    | .condition _ => none
  match rest with
  | '-' :: ']' :: _ | '-' :: '-' :: _ => single
  | '-' :: rest =>
    match low, ← readClassItem rest with
    | .symbol low, (.symbol high, rest) =>
      if low ≤ high then some (.ofRange low high, rest) else none
    | _, _ => none
  | _ => single

/-- The items of a union while they are read: what they stand for together, how many they are, and
the depth of the deepest. -/
structure ClassItems where
  set : SymbolSet := ∅
  count : Nat := 0
  depth : Nat := 0

def ClassItems.push (items : ClassItems) (set : SymbolSet) (depth : Nat) : ClassItems :=
  ⟨items.set ∪ set, items.count + 1, max items.depth depth⟩

/-- The depth of the union; a single item makes none. -/
def ClassItems.unionDepth (items : ClassItems) : Nat :=
  if items.count < 2 then items.depth else items.depth + 1

inductive SetOperation where
  | intersection
  | difference
  | symmetricDifference

def SetOperation.apply (s t : SymbolSet) : SetOperation → SymbolSet
  | .intersection => s ∩ t
  | .difference => s \ t
  | .symmetricDifference => s.symmetricDifference t

/-- What stands to the left of an operation whose right side is being read. -/
structure LeftSide where
  set : SymbolSet
  depth : Nat
  operation : SetOperation

/-- Combines a union with what stands to its left. Answers with the set and its depth. -/
def combineSides (ignoreCase : Bool) (left : Option LeftSide) (items : ClassItems) :
    SymbolSet × Nat :=
  match left with
  | none => (items.set, items.unionDepth)
  | some ⟨set, depth, operation⟩ =>
    (operation.apply (foldIf ignoreCase set) (foldIf ignoreCase items.set),
      max depth items.unionDepth + 1)

/-- Reads the opening of a class: whether it is negated, and the symbols that stand for themselves
because they come first. -/
def readClassOpening (cs : List Char) : Bool × ClassItems × List Char :=
  let (negated, cs) := readNegation cs
  let (minuses, cs) := cs.span (· = '-')
  match minuses, cs with
  | [], ']' :: cs => (negated, ClassItems.push {} (.singleton ']') 0, cs)
  | minuses, cs =>
    (negated, minuses.foldl (fun items c => items.push (.singleton c) 0) {}, cs)

/-- Reads a class from behind its opening up to its closing bracket, and answers with the set and
its depth. -/
def readClassBody (ignoreCase : Bool) : Nat → Option LeftSide → ClassItems → List Char →
    Option (SymbolSet × Nat × List Char)
  | 0, _, _, _ => none
  | fuel + 1, left, items, cs =>
    let operate (operation : SetOperation) (cs : List Char) :=
      let (set, depth) := combineSides ignoreCase left items
      readClassBody ignoreCase fuel (some ⟨set, depth, operation⟩) {} cs
    match cs with
    | [] => none
    | ']' :: cs =>
      let (set, depth) := combineSides ignoreCase left items
      some (set, depth, cs)
    | '&' :: '&' :: cs => operate .intersection cs
    | '-' :: '-' :: cs => operate .difference cs
    | '~' :: '~' :: cs => operate .symmetricDifference cs
    | '[' :: inner =>
      match readNamedClass ignoreCase cs with
      | some (set, rest) => readClassBody ignoreCase fuel left (items.push set 0) rest
      | none => do
        let (negated, first, rest) := readClassOpening inner
        let (set, depth, rest) ← readClassBody ignoreCase fuel none first rest
        let set := foldAndNegate ignoreCase negated set
        readClassBody ignoreCase fuel left (items.push set (depth + 1)) rest
    | cs => do
      let (set, rest) ← readClassRange cs
      readClassBody ignoreCase fuel left (items.push set 0) rest

/-- Reads a class from behind its opening bracket, and answers with the set and its depth. -/
def readClass (ignoreCase : Bool) (cs : List Char) : Option (SymbolSet × Nat × List Char) := do
  let (negated, first, rest) := readClassOpening cs
  let (set, depth, rest) ← readClassBody ignoreCase (cs.length + 1) none first rest
  pure (foldAndNegate ignoreCase negated set, depth + 1, rest)

end ParserAlgebra.Regex
