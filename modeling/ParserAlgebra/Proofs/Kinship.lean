import Mathlib.Data.List.Basic
import ParserAlgebra.Proofs.Holes
import ParserAlgebra.Grammar.Store

/-!
# Grammars that stand for one another

Two grammars can be built of the same operators and yet differ in what stands around their nodes and
in which rules they refer to. A kinship says which rules and which slots stand for one another, and
which grammars are covers of others, that is, differ from them in ways that are to be overlooked. It
holds in a store in which the rules that stand for one another are akin themselves, so nothing has
to be said of how often rules refer to each other or to themselves.
-/

namespace ParserAlgebra

variable {σ : Type}

/-- A grammar that has no parts and refers to no rule. -/
def Grammar.IsPrimitive : Grammar σ → Prop
  | .accept _ | .expect _ | .literal _ | .pattern _ _ | .succeed | .fail => True
  | _ => False

/-- Which rules and which slots stand for one another, and which grammars cover which others. -/
structure Kinship (σ : Type) where
  rules : RuleId → RuleId → Prop
  slots : Slot → Slot → Prop
  covers : Grammar σ → Grammar σ → Prop

namespace Kinship

/-- The same operators, but that nodes on either side may be covered and that rules stand for one
another. Whether a fixed point is owned makes no difference. -/
inductive Akin (K : Kinship σ) : Grammar σ → Grammar σ → Prop
  | primitive {g : Grammar σ} (h : g.IsPrimitive) : K.Akin g g
  | sequence {a a' b b' : Grammar σ} (ha : K.Akin a a') (hb : K.Akin b b') :
      K.Akin (.sequence a b) (.sequence a' b')
  | choice {a a' b b' : Grammar σ} (ha : K.Akin a a') (hb : K.Akin b b') :
      K.Akin (.choice a b) (.choice a' b')
  | repetition (atLeast : Nat) {g g' : Grammar σ} (h : K.Akin g g') :
      K.Akin (.repetition atLeast g) (.repetition atLeast g')
  | option {g g' : Grammar σ} (h : K.Akin g g') : K.Akin (.option g) (.option g')
  | sepBy {item item' separator separator' : Grammar σ} (hitem : K.Akin item item')
      (hseparator : K.Akin separator separator') :
      K.Akin (.sepBy item separator) (.sepBy item' separator')
  | discard {g g' : Grammar σ} (h : K.Akin g g') : K.Akin (.discard g) (.discard g')
  | except (kind : Kind) {g g' : Grammar σ} (h : K.Akin g g') (forbidden : Value) :
      K.Akin (.except kind g forbidden) (.except kind g' forbidden)
  | attempt {g g' : Grammar σ} (h : K.Akin g g') : K.Akin (.attempt g) (.attempt g')
  | attemptPure {g g' : Grammar σ} (h : K.Akin g g') : K.Akin (.attemptPure g) (.attemptPure g')
  | strict (message : String) {g g' : Grammar σ} (h : K.Akin g g') :
      K.Akin (.strict message g) (.strict message g')
  | trace (label : String) {g g' : Grammar σ} (h : K.Akin g g') :
      K.Akin (.trace label g) (.trace label g')
  | token {g g' : Grammar σ} (h : K.Akin g g') : K.Akin (.token g) (.token g')
  | shared {g g' : Grammar σ} (h : K.Akin g g') : K.Akin (.shared g) (.shared g')
  | reference (name : String) {g g' : Grammar σ} (h : K.Akin g g') :
      K.Akin (.reference name g) (.reference name g')
  | define (name : String) {g g' : Grammar σ} (h : K.Akin g g') :
      K.Akin (.define name g) (.define name g')
  | rename (name : String) (rank : Rank) {g g' : Grammar σ} (h : K.Akin g g') :
      K.Akin (.rename name rank g) (.rename name rank g')
  /-- The parts are given in pairs, with the kind of their values. -/
  | all (kind : Kind) (action : Action σ) {parts : List (Kind × Grammar σ × Grammar σ)}
      (h : ∀ part ∈ parts, K.Akin part.2.1 part.2.2) :
      K.Akin (.all kind action (parts.map fun part => (part.1, part.2.1)))
        (.all kind action (parts.map fun part => (part.1, part.2.2)))
  | any (kind : Kind) (action : Action σ) {parts : List (Kind × Grammar σ × Grammar σ)}
      (h : ∀ part ∈ parts, K.Akin part.2.1 part.2.2) :
      K.Akin (.any kind action (parts.map fun part => (part.1, part.2.1)))
        (.any kind action (parts.map fun part => (part.1, part.2.2)))
  | handle {slot slot' : Slot} (h : K.slots slot slot') : K.Akin (.handle slot) (.handle slot')
  | fixed (hold hold' : Hold) (name : String) {rule rule' : RuleId} (h : K.rules rule rule') :
      K.Akin (.fixed hold name rule) (.fixed hold' name rule')
  /-- A cover on the left. -/
  | left {g a g' : Grammar σ} (hcovers : K.covers g a) (h : K.Akin a g') : K.Akin g g'
  /-- A cover on the right. -/
  | right {g a g' : Grammar σ} (hcovers : K.covers g' a) (h : K.Akin g a) : K.Akin g g'

/-- Rules and slots that stand for one another have rules that are akin, or no rules. -/
structure HoldsIn (K : Kinship σ) (store : Store σ) : Prop where
  rules {rule rule' : RuleId} :
    K.rules rule rule' → Option.Rel K.Akin (store.fixed? rule) (store.fixed? rule')
  slots {slot slot' : Slot} :
    K.slots slot slot' → Option.Rel K.Akin (store.handle? slot) (store.handle? slot')

variable {K : Kinship σ} {store : Store σ} {g g' : Grammar σ}

/-- The kinship seen from the other side. -/
def symm (K : Kinship σ) : Kinship σ :=
  ⟨fun rule rule' => K.rules rule' rule, fun slot slot' => K.slots slot' slot, K.covers⟩

theorem Akin.symm (h : K.Akin g g') : K.symm.Akin g' g := by
  have hswap (parts : List (Kind × Grammar σ × Grammar σ))
      (ih : ∀ part ∈ parts, K.symm.Akin part.2.2 part.2.1) :
      ∀ part ∈ parts.map fun part => (part.1, part.2.2, part.2.1),
        K.symm.Akin part.2.1 part.2.2 := by
    intro _ hpart
    obtain ⟨part, hmem, rfl⟩ := List.mem_map.1 hpart
    exact ih part hmem
  induction h with
  | primitive h => exact .primitive h
  | sequence _ _ iha ihb => exact .sequence iha ihb
  | choice _ _ iha ihb => exact .choice iha ihb
  | repetition atLeast _ ih => exact .repetition atLeast ih
  | option _ ih => exact .option ih
  | sepBy _ _ ihitem ihseparator => exact .sepBy ihitem ihseparator
  | discard _ ih => exact .discard ih
  | except kind _ forbidden ih => exact .except kind ih forbidden
  | attempt _ ih => exact .attempt ih
  | attemptPure _ ih => exact .attemptPure ih
  | strict message _ ih => exact .strict message ih
  | trace label _ ih => exact .trace label ih
  | token _ ih => exact .token ih
  | shared _ ih => exact .shared ih
  | reference name _ ih => exact .reference name ih
  | define name _ ih => exact .define name ih
  | rename name rank _ ih => exact .rename name rank ih
  | @all kind action parts _ ih =>
      have hparts := Akin.all kind action (hswap parts ih)
      simpa only [List.map_map, Function.comp_def] using hparts
  | @any kind action parts _ ih =>
      have hparts := Akin.any kind action (hswap parts ih)
      simpa only [List.map_map, Function.comp_def] using hparts
  | handle h => exact .handle h
  | fixed hold hold' name h => exact .fixed hold' hold name h
  | left hcovers _ ih => exact .right hcovers ih
  | right hcovers _ ih => exact .left hcovers ih

/-- Akin grammars stay akin where more rules and slots stand for one another and more is covered. -/
theorem Akin.mono {K' : Kinship σ} (hrules : ∀ rule rule', K.rules rule rule' → K'.rules rule rule')
    (hslots : ∀ slot slot', K.slots slot slot' → K'.slots slot slot')
    (hcovers : ∀ g a, K.covers g a → K'.covers g a) (h : K.Akin g g') : K'.Akin g g' := by
  induction h with
  | primitive h => exact .primitive h
  | sequence _ _ iha ihb => exact .sequence iha ihb
  | choice _ _ iha ihb => exact .choice iha ihb
  | repetition atLeast _ ih => exact .repetition atLeast ih
  | option _ ih => exact .option ih
  | sepBy _ _ ihitem ihseparator => exact .sepBy ihitem ihseparator
  | discard _ ih => exact .discard ih
  | except kind _ forbidden ih => exact .except kind ih forbidden
  | attempt _ ih => exact .attempt ih
  | attemptPure _ ih => exact .attemptPure ih
  | strict message _ ih => exact .strict message ih
  | trace label _ ih => exact .trace label ih
  | token _ ih => exact .token ih
  | shared _ ih => exact .shared ih
  | reference name _ ih => exact .reference name ih
  | define name _ ih => exact .define name ih
  | rename name rank _ ih => exact .rename name rank ih
  | all kind action _ ih => exact .all kind action ih
  | any kind action _ ih => exact .any kind action ih
  | handle h => exact .handle (hslots _ _ h)
  | fixed hold hold' name h => exact .fixed hold hold' name (hrules _ _ h)
  | left h _ ih => exact .left (hcovers _ _ h) ih
  | right h _ ih => exact .right (hcovers _ _ h) ih

theorem HoldsIn.symm (h : K.HoldsIn store) : K.symm.HoldsIn store := by
  have hswap {r s : Option (Grammar σ)} (hrs : Option.Rel K.Akin r s) :
      Option.Rel K.symm.Akin s r := by
    cases hrs with
    | some hab => exact .some hab.symm
    | none => exact .none
  exact ⟨fun hrule => hswap (h.rules hrule), fun hslot => hswap (h.slots hslot)⟩

/-- Each rule and each slot stands for itself. -/
structure IsReflexive (K : Kinship σ) : Prop where
  rules : ∀ rule, K.rules rule rule
  slots : ∀ slot, K.slots slot slot

section Context

variable {holes : List RuleId} {u v : Grammar σ}

/-- A list of pairs of parts, each pair with two fillers in the place of the holes of one part. -/
def plugBoth (holes : List RuleId) (u v : Grammar σ) (parts : List (Kind × Grammar σ)) :
    List (Kind × Grammar σ × Grammar σ) :=
  parts.map fun part => (part.1, part.2.plug holes u, part.2.plug holes v)

theorem map_plugBoth (holes : List RuleId) (u v : Grammar σ) (parts : List (Kind × Grammar σ)) :
    (plugBoth holes u v parts).map (fun part => (part.1, part.2.1)) =
        Grammar.plug.plugParts holes parts u ∧
      (plugBoth holes u v parts).map (fun part => (part.1, part.2.2)) =
        Grammar.plug.plugParts holes parts v := by
  rw [Grammar.plugParts_eq_map, Grammar.plugParts_eq_map, plugBoth, List.map_map, List.map_map]
  exact ⟨rfl, rfl⟩

mutual

/-- If each rule stands for itself, grammars with akin fillers in their holes are akin. -/
theorem akin_plug (hself : K.IsReflexive) (huv : K.Akin u v) :
    (g : Grammar σ) → K.Akin (g.plug holes u) (g.plug holes v)
  | .accept _ | .expect _ | .literal _ | .pattern _ _ | .succeed | .fail => .primitive trivial
  | .sequence a b => .sequence (akin_plug hself huv a) (akin_plug hself huv b)
  | .choice a b => .choice (akin_plug hself huv a) (akin_plug hself huv b)
  | .repetition atLeast g => .repetition atLeast (akin_plug hself huv g)
  | .option g => .option (akin_plug hself huv g)
  | .sepBy item separator => .sepBy (akin_plug hself huv item) (akin_plug hself huv separator)
  | .discard g => .discard (akin_plug hself huv g)
  | .except kind g forbidden => .except kind (akin_plug hself huv g) forbidden
  | .attempt g => .attempt (akin_plug hself huv g)
  | .attemptPure g => .attemptPure (akin_plug hself huv g)
  | .strict message g => .strict message (akin_plug hself huv g)
  | .trace label g => .trace label (akin_plug hself huv g)
  | .token g => .token (akin_plug hself huv g)
  | .shared g => .shared (akin_plug hself huv g)
  | .reference name g => .reference name (akin_plug hself huv g)
  | .define name g => .define name (akin_plug hself huv g)
  | .rename name rank g => .rename name rank (akin_plug hself huv g)
  | .all kind action parts => by
    obtain ⟨hleft, hright⟩ := map_plugBoth holes u v parts
    rw [Grammar.plug, Grammar.plug, ← hleft, ← hright]
    exact .all kind action (akin_plugBoth hself huv parts)
  | .any kind action parts => by
    obtain ⟨hleft, hright⟩ := map_plugBoth holes u v parts
    rw [Grammar.plug, Grammar.plug, ← hleft, ← hright]
    exact .any kind action (akin_plugBoth hself huv parts)
  | .handle slot => .handle (hself.slots slot)
  | .fixed hold name rule => by
    by_cases hmem : rule ∈ holes
    · rwa [Grammar.plug_fixed_of_mem hmem, Grammar.plug_fixed_of_mem hmem]
    · rw [Grammar.plug_fixed_of_not_mem hmem, Grammar.plug_fixed_of_not_mem hmem]
      exact .fixed hold hold name (hself.rules rule)

theorem akin_plugBoth (hself : K.IsReflexive) (huv : K.Akin u v) :
    (parts : List (Kind × Grammar σ)) → ∀ part ∈ plugBoth holes u v parts, K.Akin part.2.1 part.2.2
  | [] => fun _ hpart => by cases hpart
  | (kind, g) :: parts => by
    intro part hpart
    rcases List.mem_cons.1 hpart with rfl | hpart
    · exact akin_plug hself huv g
    · exact akin_plugBoth hself huv parts part hpart

end

end Context

/-- If each rule stands for itself, so does each grammar. -/
theorem akin_refl (hself : K.IsReflexive) (g : Grammar σ) : K.Akin g g := by
  have hfail : K.Akin .fail .fail := .primitive trivial
  have hplugged : K.Akin (g.plug [] .fail) (g.plug [] .fail) := akin_plug hself hfail g
  rwa [Grammar.plug_nil] at hplugged

theorem rel_refl (hself : K.IsReflexive) (r : Option (Grammar σ)) : Option.Rel K.Akin r r := by
  cases r with
  | some g => exact .some (akin_refl hself g)
  | none => exact .none

/-- In every store each rule and each slot may stand for itself. -/
theorem holdsIn_eq (store : Store σ) (covers : Grammar σ → Grammar σ → Prop) :
    (⟨Eq, Eq, covers⟩ : Kinship σ).HoldsIn store := by
  have hself : (⟨Eq, Eq, covers⟩ : Kinship σ).IsReflexive := ⟨fun _ => rfl, fun _ => rfl⟩
  constructor
  · rintro rule _ rfl
    exact rel_refl hself _
  · rintro slot _ rfl
    exact rel_refl hself _

end Kinship

end ParserAlgebra
