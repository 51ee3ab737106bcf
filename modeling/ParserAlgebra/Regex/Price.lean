import ParserAlgebra.Regex.Basic
import ParserAlgebra.Text.Bytes

/-!
# Prices of expressions

An expression is priced by the space of two automata over bytes that stand for it, one that reads a
text forwards and one that reads it backwards. A state has a fixed price, and so have a transition
on a range of bytes out of a state with several of them and each way out of a choice. Counted
repetition pays for every copy. An expression whose price passes a limit in one direction is
refused.
-/

namespace ParserAlgebra.Regex

/-- In which direction a text is read. -/
inductive Direction where
  | forward
  | backward
  deriving DecidableEq

def statePrice : Nat :=
  32

/-- The price of a transition out of a state that has several. -/
def transitionPrice : Nat :=
  8

/-- The price of a way out of a choice. -/
def wayPrice : Nat :=
  4

/-- The price of a choice between going on and leaving. -/
def choicePrice : Nat :=
  statePrice + 2 * wayPrice

/-- A range of bytes, both ends included. -/
abbrev ByteRange :=
  Nat × Nat

/-- The ranges of code points that a set consists of, both ends included. -/
def codePointRanges (s : SymbolSet) : List (Nat × Nat) :=
  pair s.changes
where
  codePoint (rank : Nat) : Nat := (symbolAt rank).toNat
  pair : List Nat → List (Nat × Nat)
    | [] => []
    | [x] => [(codePoint x, codePoint (symbolCount - 1))]
    | x :: y :: xs => (codePoint x, codePoint (y - 1)) :: pair xs

/-- The sequences of byte ranges that spell the numbers from `low` to `high`, in six bits a byte
after a first byte that is counted from `first`. -/
def spellings : (following : Nat) → (first low high : Nat) → List (List ByteRange)
  | 0, first, low, high => [[(first + low, first + high)]]
  | n + 1, first, low, high =>
    let unit := 64 ^ (n + 1)
    let lead (digit low high : Nat) : List (List ByteRange) :=
      (spellings n 0x80 low high).map ((first + digit, first + digit) :: ·)
    if low / unit = high / unit then
      lead (low / unit) (low % unit) (high % unit)
    else
      let start := (low + (unit - 1)) / unit
      let stop := (high + 1) / unit
      let head := if low % unit = 0 then [] else lead (low / unit) (low % unit) (unit - 1)
      let whole :=
        if start < stop then
          [(first + start, first + stop - 1) :: List.replicate (n + 1) (0x80, 0xBF)]
        else
          []
      let tail := if stop = high / unit then lead stop 0 (high % unit) else []
      head ++ whole ++ tail

/-- The code points that are spelled with the same number of bytes, from first to last, with the
bytes that follow the first one and what the first one is counted from. -/
def blocks : List (Nat × Nat × Nat × Nat) :=
  [(0x0, 0x7F, 0, 0), (0x80, 0x7FF, 1, 0xC0), (0x800, 0xD7FF, 2, 0xE0), (0xE000, 0xFFFF, 2, 0xE0),
   (0x10000, 0x10FFFF, 3, 0xF0)]

/-- The sequences of byte ranges that spell the symbols of a set, in order. -/
def spelling (s : SymbolSet) : List (List ByteRange) :=
  (codePointRanges s).flatMap fun (low, high) =>
    blocks.flatMap fun (bottom, top, following, first) =>
      if max low bottom ≤ min high top then
        spellings following first (max low bottom) (min high top)
      else
        []

/-- The states of an automaton that reads sequences forwards: the transitions of each, where two
states with the same transitions are one. State number zero, which has none, is the end. -/
abbrev States :=
  Array (List (ByteRange × Nat))

/-- The number of a state with some transitions, which is added unless it is there. -/
def stateFor (transitions : List (ByteRange × Nat)) : StateM States Nat :=
  modifyGet fun states =>
    match states.idxOf? transitions with
    | some i => (i, states)
    | none => (states.size, states.push transitions)

/-- Adds the states for sequences of at most so many ranges, which are in order. -/
def addStates : Nat → List (List ByteRange) → StateM States Nat
  | 0, _ => pure 0
  | n + 1, sequences => do
    let transitions ← (sequences.splitBy fun s t => s.head? == t.head?).filterMapM fun group =>
      match group with
      | [] | [] :: _ => pure none
      | (range :: _) :: _ => do
        let tails := group.map List.tail
        let next ← if tails.all List.isEmpty then pure 0 else addStates n tails
        pure (some (range, next))
    stateFor transitions

/-- The number of ranges at which a sequence differs from the one before it. -/
def freshRanges : List ByteRange → List ByteRange → Nat
  | r :: rs, s :: ss => if r = s then freshRanges rs ss else ss.length + 1
  | _, ss => ss.length

/-- The price of one symbol of a set. -/
def setPrice (direction : Direction) (s : SymbolSet) : Nat :=
  let sequences := spelling s
  if sequences.all (·.length = 1) then
    2 * statePrice + sequences.length * transitionPrice
  else
    match direction with
    | .forward =>
      let states := ((addStates 4 sequences).run #[[]]).2
      states.foldl (fun n transitions => n + statePrice + transitions.length * transitionPrice) 0
    | .backward =>
      let fresh := ([] :: sequences).zipWith freshRanges sequences
      (fresh.foldl (· + ·) 0 + 2) * statePrice + sequences.length * wayPrice

/-- The price of a branching that reads one of several texts, given as bytes and at most so long. An
earlier text is preferred, so only texts between which none ends share the transitions on their
first bytes. -/
def branchingPrice : Nat → List (List UInt8) → Nat
  | 0, _ => 0
  | n + 1, texts =>
    let runs := (texts.splitBy fun s t => !s.isEmpty && !t.isEmpty).filter (!·.all List.isEmpty)
    let ends :=
      (if texts.head?.any List.isEmpty then 1 else 0) +
        (texts.dropWhile List.isEmpty).countP List.isEmpty
    let runPrice (run : List (List UInt8)) : Nat :=
      let firsts := (run.filterMap List.head?).eraseDups
      let below := firsts.map fun b =>
        let tails := (run.filter (·.head? == some b)).map List.tail
        if tails.all List.isEmpty then 0 else branchingPrice n tails
      let transitions := if firsts.length = 1 then 0 else firsts.length * transitionPrice
      statePrice + transitions + below.sum
    statePrice + (runs.length + ends) * wayPrice + (runs.map runPrice).sum

/-- The bytes of a text as they are met in a direction. -/
def bytesOf (direction : Direction) (text : List Char) : List UInt8 :=
  match direction with
  | .forward => text.flatMap String.utf8EncodeChar
  | .backward => (text.flatMap String.utf8EncodeChar).reverse

/-- The text that an expression stands for, if it is a fixed text. -/
def text? : Regex → Option (List Char)
  | .literal text => some text
  | _ => none

/-- The price of a repetition of something that has a price. -/
def repetitionPrice (price : Nat) (takesSymbol : Bool) (least : Nat) (most : Option Nat) : Nat :=
  let copies := if least = 0 then statePrice else least * price
  match least, most with
  | 0, some 1 => price + choicePrice + statePrice
  | 0, none =>
    if takesSymbol then price + choicePrice else price + 2 * choicePrice + statePrice
  | _, none => copies + choicePrice
  | least, some most =>
    if least = most then copies else copies + statePrice + (most - least) * (price + choicePrice)

/-- The price of an expression in a direction. -/
def price (direction : Direction) : Regex → Nat
  | .empty | .assertion _ => statePrice
  | .literal text => Text.byteLength text * statePrice
  | .symbols s => setPrice direction s
  | .repetition _ least most r =>
    repetitionPrice (r.price direction) (r.leastLength.any (0 < ·)) least most
  | .group _ r =>
    match direction with
    | .forward => r.price direction + 2 * statePrice
    | .backward => r.price direction
  | .concat rs => sum rs
  | .alternation rs =>
    match rs.mapM text? with
    | some texts =>
      let texts := texts.map (bytesOf direction)
      statePrice + branchingPrice ((texts.map List.length).foldl max 0 + 1) texts
    | none => 2 * statePrice + rs.length * wayPrice + sum rs
where
  sum : List Regex → Nat
    | [] => 0
    | r :: rs => r.price direction + sum rs

/-- What an automaton costs apart from its expression: its entry, where a match may begin later, its
end and, forwards, the marks of where a match begins and ends. -/
def framePrice : Direction → Nat
  | .forward => 6 * statePrice + 2 * wayPrice + transitionPrice
  | .backward => 4 * statePrice + 2 * wayPrice + transitionPrice

/-- The price that no expression may pass. -/
def priceLimit : Nat :=
  10 * (1 <<< 20)

/-- Whether an expression keeps to the limit in both directions. -/
def isAffordable (r : Regex) : Bool :=
  [Direction.forward, .backward].all fun d => r.price d + framePrice d ≤ priceLimit

end ParserAlgebra.Regex
