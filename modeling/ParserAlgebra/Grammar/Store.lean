import ParserAlgebra.Grammar.Basic

/-!
# Stores of rules

A store keeps what grammars refer to by name: the contents of arena slots, which are rules or plain
texts, and the rules of fixed points. A fixed point is first announced, so that its body can be
built around it, then settled, and given up once no grammar that is still in use owns it.
-/

namespace ParserAlgebra

inductive Content (σ : Type) where
  | rule (g : Grammar σ)
  | text (s : String)

def Content.rule? {σ : Type} : Content σ → Option (Grammar σ)
  | .rule g => some g
  | .text _ => none

def Content.text? {σ : Type} : Content σ → Option String
  | .rule _ => none
  | .text s => some s

structure Store (σ : Type) where
  arenas : Arenas (Content σ)
  rules : List (Option (Grammar σ))

namespace Store

variable {σ : Type}

def empty : Store σ :=
  ⟨.empty, []⟩

def handle? (store : Store σ) (slot : Slot) : Option (Grammar σ) :=
  (store.arenas.get? slot).bind Content.rule?

def text? (store : Store σ) (slot : Slot) : Option String :=
  (store.arenas.get? slot).bind Content.text?

/-- The rule of a fixed point, while it lives. -/
def fixed? (store : Store σ) (rule : RuleId) : Option (Grammar σ) :=
  (store.rules[rule]?).join

/-- Announces a fixed point. Its rule is still missing. -/
def announce (store : Store σ) : RuleId × Store σ :=
  (store.rules.length, { store with rules := store.rules ++ [none] })

/-- Gives a fixed point its rule. -/
def settle (store : Store σ) (rule : RuleId) (g : Grammar σ) : Store σ :=
  { store with rules := store.rules.set rule (some g) }

def put (store : Store σ) (slot : Slot) (content : Content σ) : Except SlotError (Store σ) :=
  (store.arenas.store slot content).map fun arenas => { store with arenas }

def allRules (store : Store σ) : List (Grammar σ) :=
  store.arenas.contents.filterMap Content.rule? ++ store.rules.filterMap id

/-- The number of nodes of all rules of the store. -/
def size (store : Store σ) : Nat :=
  (store.allRules.map Grammar.size).foldr (· + ·) 0

/-- Adds to the rules `found` those that can be reached through owners from `rules`. The first
argument bounds the number of steps in a row; no path is longer than the table of rules. -/
def reach (store : Store σ) : Nat → (found rules : List RuleId) → List RuleId
  | 0, found, _ => found
  | n + 1, found, rules =>
    rules.foldl
      (fun found rule =>
        if rule ∈ found then found
        else reach store n (rule :: found) ((store.fixed? rule).elim [] Grammar.owned))
      found

/-- The fixed points that are owned, directly or not, by the given grammars or by rules in slots. -/
def live (store : Store σ) (inUse : List (Grammar σ)) : List RuleId :=
  let roots := inUse ++ store.arenas.contents.filterMap Content.rule?
  store.reach (store.rules.length + 1) [] (roots.flatMap Grammar.owned)

/-- Gives up the rules of all fixed points that nothing owns. -/
def sweep (store : Store σ) (inUse : List (Grammar σ)) : Store σ :=
  let live := store.live inUse
  { store with
    rules := store.rules.mapIdx fun rule g? => if rule ∈ live then g? else none }

end Store

end ParserAlgebra
