import ParserAlgebra.Grammar.Basic

/-!
# Grammars with holes

A fixed point of which nothing is known but its number can stand for a grammar that is still to be
put in its place. The same body can then be built around a rule that refers to itself in one way and
around a rule that does so in another way.
-/

namespace ParserAlgebra

variable {σ : Type}

namespace Grammar

/-- Puts a grammar, the filler, in the place of the fixed points whose numbers are given. -/
def plug (holes : List RuleId) : Grammar σ → Grammar σ → Grammar σ
  | .accept p, _ => .accept p
  | .expect p, _ => .expect p
  | .literal text, _ => .literal text
  | .pattern source matcher, _ => .pattern source matcher
  | .succeed, _ => .succeed
  | .fail, _ => .fail
  | .sequence a b, filler => .sequence (a.plug holes filler) (b.plug holes filler)
  | .choice a b, filler => .choice (a.plug holes filler) (b.plug holes filler)
  | .repetition atLeast item, filler => .repetition atLeast (item.plug holes filler)
  | .option item, filler => .option (item.plug holes filler)
  | .sepBy item separator, filler => .sepBy (item.plug holes filler) (separator.plug holes filler)
  | .discard item, filler => .discard (item.plug holes filler)
  | .except kind item forbidden, filler => .except kind (item.plug holes filler) forbidden
  | .attempt item, filler => .attempt (item.plug holes filler)
  | .attemptPure item, filler => .attemptPure (item.plug holes filler)
  | .strict message item, filler => .strict message (item.plug holes filler)
  | .trace label item, filler => .trace label (item.plug holes filler)
  | .token item, filler => .token (item.plug holes filler)
  | .shared item, filler => .shared (item.plug holes filler)
  | .reference name body, filler => .reference name (body.plug holes filler)
  | .define name body, filler => .define name (body.plug holes filler)
  | .rename name rank body, filler => .rename name rank (body.plug holes filler)
  | .all kind action parts, filler => .all kind action (plugParts parts filler)
  | .any kind action parts, filler => .any kind action (plugParts parts filler)
  | .handle slot, _ => .handle slot
  | .fixed hold name rule, filler => if rule ∈ holes then filler else .fixed hold name rule
where
  /-- Puts the filler in the place of the holes in each of some parts. -/
  plugParts : List (Kind × Grammar σ) → Grammar σ → List (Kind × Grammar σ)
    | [], _ => []
    | (kind, g) :: parts, filler => (kind, g.plug holes filler) :: plugParts parts filler

variable {holes : List RuleId} {filler u v : Grammar σ}

theorem plugParts_eq_map (parts : List (Kind × Grammar σ)) :
    plug.plugParts holes parts filler =
      parts.map fun part => (part.1, part.2.plug holes filler) := by
  induction parts with
  | nil => rfl
  | cons part parts ih =>
      rw [plug.plugParts, ih]
      rfl

theorem plug_fixed_of_mem {rule : RuleId} (h : rule ∈ holes) (hold : Hold) (name : String) :
    (fixed hold name rule).plug holes filler = filler :=
  if_pos h

theorem plug_fixed_of_not_mem {rule : RuleId} (h : rule ∉ holes) (hold : Hold) (name : String) :
    (fixed hold name rule).plug holes filler = .fixed hold name rule :=
  if_neg h

mutual

/-- A grammar without holes stays as it is. -/
@[simp] theorem plug_nil (filler : Grammar σ) : (g : Grammar σ) → g.plug [] filler = g
  | .accept _ | .expect _ | .literal _ | .pattern _ _ | .succeed | .fail | .handle _ => rfl
  | .fixed hold name _ => plug_fixed_of_not_mem List.not_mem_nil hold name
  | .sequence a b => by rw [plug, plug_nil filler a, plug_nil filler b]
  | .choice a b => by rw [plug, plug_nil filler a, plug_nil filler b]
  | .sepBy a b => by rw [plug, plug_nil filler a, plug_nil filler b]
  | .repetition _ item | .option item | .discard item | .except _ item _ | .attempt item
  | .attemptPure item | .strict _ item | .trace _ item | .token item | .shared item
  | .reference _ item | .define _ item | .rename _ _ item => by rw [plug, plug_nil filler item]
  | .all _ _ parts | .any _ _ parts => by rw [plug, plugParts_nil filler parts]

theorem plugParts_nil (filler : Grammar σ) :
    (parts : List (Kind × Grammar σ)) → plug.plugParts [] parts filler = parts
  | [] => rfl
  | (_, g) :: parts => by rw [plug.plugParts, plug_nil filler g, plugParts_nil filler parts]

end

end Grammar

end ParserAlgebra
