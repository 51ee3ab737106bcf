import ParserAlgebra.Regex.Class
import ParserAlgebra.Regex.Price
import ParserAlgebra.Regex.Simplify
import ParserAlgebra.Unicode.Letter
import ParserAlgebra.Unicode.Number

/-!
# Reading regular expressions

The written form: symbols, escapes, the dot, classes in brackets, groups, alternation, repetition
operators with their reluctant variants, counted repetition, and flags in groups. A text that breaks
the rules of the form has no expression; neither has one that nests too deep or whose expression is
too expensive.

An expression is read together with its depth: chains and alternations of two or more, repetitions,
groups and classes that enclose each other are counted.
-/

namespace ParserAlgebra.Regex

/-- The settings that flags change. -/
structure Flags where
  ignoreCase : Bool := false
  multiLine : Bool := false
  dotAll : Bool := false
  swapGreed : Bool := false

/-- Reads a count: digits that may have blanks around them. -/
def readCount (cs : List Char) : Option (Nat × List Char) :=
  let (digits, rest) := (cs.dropWhile Unicode.isBlank).span (·.isDigit)
  (numberOf? 10 digits).map fun n => (n, rest.dropWhile Unicode.isBlank)

/-- Reads the bounds of a counted repetition from behind its opening brace. -/
def readBounds (cs : List Char) : Option (Nat × Option Nat × List Char) := do
  let (least, rest) ← readCount cs
  match rest with
  | '\x7d' :: rest => some (least, some least, rest)
  | ',' :: '\x7d' :: rest => some (least, none, rest)
  | ',' :: rest => do
    let (most, rest) ← readCount rest
    match rest with
    | '\x7d' :: rest => if least ≤ most then some (least, some most, rest) else none
    | _ => none
  | _ => none

/-- Reads the flags of a group up to a closing parenthesis or a colon. A minus, which a flag has to
follow, turns the flags behind it off; no flag may be given twice. -/
def readFlags : (seen : List Char) → (on : Bool) → Flags → List Char →
    Option (Flags × List Char)
  | _, _, _, [] => none
  | seen, on, flags, c :: cs =>
    if c = ')' ∨ c = ':' then
      if seen.isEmpty ∨ seen.head? = some '-' then none else some (flags, c :: cs)
    else if c ∈ seen then none
    else
      match c with
      | 'i' => readFlags (c :: seen) on { flags with ignoreCase := on } cs
      | 'm' => readFlags (c :: seen) on { flags with multiLine := on } cs
      | 's' => readFlags (c :: seen) on { flags with dotAll := on } cs
      | 'U' => readFlags (c :: seen) on { flags with swapGreed := on } cs
      | 'u' => if on then readFlags (c :: seen) on flags cs else none
      | '-' => readFlags (c :: seen) false flags cs
      | _ => none

/-- Whether a symbol may stand in the name of a group, first or later. -/
def isNameSymbol (first : Bool) (c : Char) : Bool :=
  c = '_' || Unicode.isLetter c ||
    (!first && (Unicode.isNumeric c || c = '.' || c = '[' || c = ']'))

/-- Reads the name of a group up to its closing angle bracket. -/
def readName (cs : List Char) : Option (List Char) :=
  let (name, rest) := cs.span (· ≠ '>')
  match name, rest with
  | c :: name, _ :: rest =>
    if isNameSymbol true c && name.all (isNameSymbol false) then some rest else none
  | _, _ => none

/-- What an opening parenthesis opens: a group that is remembered, a group that only holds its parts
together, or nothing but new flags. -/
inductive Opening where
  | capture
  | cluster (flags : Flags)
  | flags (flags : Flags)

/-- Reads what follows an opening parenthesis, up to the body of the group. -/
def readOpening (flags : Flags) : List Char → Option (Opening × List Char)
  | '?' :: 'P' :: '<' :: cs => (readName cs).map fun rest => (.capture, rest)
  | '?' :: '<' :: cs => (readName cs).map fun rest => (.capture, rest)
  | '?' :: ':' :: cs => some (.cluster flags, cs)
  | '?' :: cs => do
    let (flags, rest) ← readFlags [] true flags cs
    match rest with
    | ':' :: rest => some (.cluster flags, rest)
    | _ :: rest => some (.flags flags, rest)
    | [] => none
  | cs => some (.capture, cs)

/-- An expression and the depth of its written form. -/
structure Reading where
  regex : Regex
  depth : Nat

/-- A branch of an alternation while it is read: its items, the latest in front, and the depth of
the deepest. A repetition operator applies to the latest item, whose depth is kept for that; flags,
which are an item as well, cannot be repeated. -/
structure Branch where
  items : List Regex := []
  depth : Nat := 0
  latestDepth : Option Nat := none

namespace Branch

def push (branch : Branch) (r : Reading) : Branch :=
  ⟨r.regex :: branch.items, max branch.depth r.depth, some r.depth⟩

def pushFlags (branch : Branch) : Branch :=
  ⟨.empty :: branch.items, branch.depth, none⟩

def repeatLatest? (branch : Branch) (greedy : Bool) (least : Nat) (most : Option Nat) :
    Option Branch := do
  let depth := (← branch.latestDepth) + 1
  match branch.items with
  | [] => none
  | r :: rs =>
    some ⟨ofRepetition greedy least most r :: rs, max branch.depth depth, some depth⟩

def toReading (branch : Branch) : Reading :=
  ⟨ofItems branch.items.reverse,
    if branch.items.length < 2 then branch.depth else branch.depth + 1⟩

end Branch

/-- The alternation of some branches, the latest in front, and one that comes after them. -/
def closeAlternation (done : List Reading) (branch : Branch) : Reading :=
  let last := branch.toReading
  match done with
  | [] => last
  | _ =>
    let branches := (last :: done).reverse
    ⟨ofBranches (branches.map (·.regex)), (branches.map (·.depth)).foldl max 0 + 1⟩

/-- Reads an alternation up to the end or an unmatched closing parenthesis. `done` holds the
branches before the current one, the latest in front. A group is marked by how much of the text
follows its opening. -/
def readAlternation : Nat → Flags → (done : List Reading) → Branch → List Char →
    Option (Reading × List Char)
  | 0, _, _, _, _ => none
  | fuel + 1, flags, done, branch, cs =>
    let again (r : Regex) (depth : Nat) (rest : List Char) :=
      readAlternation fuel flags done (branch.push ⟨r, depth⟩) rest
    let repeated (least : Nat) (most : Option Nat) (rest : List Char) := do
      let (reluctant, rest) :=
        match rest with
        | '?' :: rest => (true, rest)
        | rest => (false, rest)
      let branch ← branch.repeatLatest? (reluctant == flags.swapGreed) least most
      readAlternation fuel flags done branch rest
    let symbol (c : Char) := ofSet (foldIf flags.ignoreCase (.singleton c))
    match cs with
    | [] => some (closeAlternation done branch, [])
    | ')' :: _ => some (closeAlternation done branch, cs)
    | '|' :: rest => readAlternation fuel flags (branch.toReading :: done) {} rest
    | '*' :: rest => repeated 0 none rest
    | '+' :: rest => repeated 1 none rest
    | '?' :: rest => repeated 0 (some 1) rest
    | '\x7b' :: rest => do
      let (least, most, rest) ← readBounds rest
      repeated least most rest
    | '(' :: rest => do
      let (opening, body) ← readOpening flags rest
      match opening with
      | .flags flags => readAlternation fuel flags done branch.pushFlags body
      | .cluster inner =>
        match ← readAlternation fuel inner [] {} body with
        | (r, _ :: rest) => again r.regex (r.depth + 1) rest
        | (_, []) => none
      | .capture =>
        match ← readAlternation fuel flags [] {} body with
        | (r, _ :: rest) => again (.group body.length r.regex) (r.depth + 1) rest
        | (_, []) => none
    | '[' :: rest => do
      let (set, depth, rest) ← readClass flags.ignoreCase rest
      again (ofSet set) depth rest
    | '.' :: rest =>
      again (ofSet (if flags.dotAll then .all else (SymbolSet.singleton '\n').complement)) 0 rest
    | '^' :: rest =>
      again (.assertion (if flags.multiLine then .lineStart else .textStart)) 0 rest
    | '$' :: rest => again (.assertion (if flags.multiLine then .lineEnd else .textEnd)) 0 rest
    | '\\' :: rest => do
      match ← readEscape rest with
      | (.symbol c, rest) => again (symbol c) 0 rest
      | (.symbols set, rest) => again (ofSet set) 0 rest
      | (.condition a, rest) => again (.assertion a) 0 rest
    | c :: rest => again (symbol c) 0 rest

/-- How deep the written form of an expression may nest. -/
def depthLimit : Nat :=
  250

/-- The expression that a text writes; `none` if it breaks the rules or passes a limit. -/
def ofString? (source : String) : Option Regex :=
  let cs := source.toList
  match readAlternation (cs.length + 1) {} [] {} cs with
  | some (r, []) => if r.depth ≤ depthLimit && r.regex.isAffordable then some r.regex else none
  | _ => none

end ParserAlgebra.Regex
