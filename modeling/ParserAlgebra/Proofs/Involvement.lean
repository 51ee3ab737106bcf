import Mathlib.Logic.Relation
import ParserAlgebra.Proofs.Writing

/-!
# What a grammar involves

A run of a grammar runs its parts, and where a part refers to a rule, the rule as it is in the
store. What can be come upon in this way is involved in the grammar: a condition on everything
involved is inherited by the parts and by the rules, however these refer to each other.
-/

namespace ParserAlgebra

variable {σ : Type}

namespace Store

variable {store : Store σ} {P : Grammar σ → Prop} {g q : Grammar σ}

/-- The grammars with which a run of a grammar may go on. -/
def components (store : Store σ) : Grammar σ → List (Grammar σ)
  | .reference _ body | .define _ body | .rename _ _ body => [body]
  | .handle slot => (store.handle? slot).toList
  | .fixed _ _ rule => (store.fixed? rule).toList
  | g => g.writtenParts

/-- A grammar is run in the course of runs of another one, or would be on some input. -/
def Involves (store : Store σ) : Grammar σ → Grammar σ → Prop :=
  Relation.ReflTransGen fun g q => q ∈ store.components g

/-- A condition that holds of everything that a grammar involves. -/
def Throughout (store : Store σ) (P : Grammar σ → Prop) (g : Grammar σ) : Prop :=
  ∀ q, store.Involves g q → P q

namespace Involves

theorem of_component (hq : q ∈ store.components g) : store.Involves g q :=
  Relation.ReflTransGen.single hq

end Involves

namespace Throughout

theorem self (h : store.Throughout P g) : P g :=
  h g Relation.ReflTransGen.refl

theorem involved (h : store.Throughout P g) (hq : store.Involves g q) : store.Throughout P q :=
  fun _ hr => h _ (hq.trans hr)

theorem component (h : store.Throughout P g) (hq : q ∈ store.components g) :
    store.Throughout P q :=
  h.involved (.of_component hq)

/-- It is enough to look at finitely many grammars that the runs of none of them lead out of. -/
theorem of_closed (grammars : List (Grammar σ)) (hg : g ∈ grammars)
    (hclosed : ∀ g ∈ grammars, ∀ q ∈ store.components g, q ∈ grammars)
    (hP : ∀ q ∈ grammars, P q) : store.Throughout P g := by
  intro q hq
  refine hP q ?_
  induction hq with
  | refl => exact hg
  | tail _ hq ih => exact hclosed _ ih _ hq

end Throughout

end Store

end ParserAlgebra
