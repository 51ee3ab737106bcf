import ParserAlgebra.Proofs.Congruence

/-!
# Runs of a grammar in lockstep

Two runs of one grammar, on different inputs or into different slots, are in lockstep if they give
the same answer at every look at the input and at every comparison of offsets. What keeps them in
step is that the components are run in step and that actions do not tell the slots of the two apart.
-/

namespace ParserAlgebra

variable {σ : Type}

namespace Environment

open Correspondence

variable {env : Environment σ} {K : Correspondence} {H : Contents} {S : SlotRelation}

/-- Grammars that look at the input themselves see the same under the same bound. -/
theorem inStep_of_reads (hK : K.Faithful) (hS : S.TakesText) {g : Grammar σ} (hg : g.Reads)
    (hpattern : ∀ source matcher, g = .pattern source matcher →
      ∀ c d, K.cursor c d → c.before? = d.before?) (n : Nat) :
    K.InStep S (env.run n g) (env.run n g) :=
  stepFollows_lockstep_iff.1 (follows_of_reads hK hS hg hpattern n)

/-- Two runs under the same bound. A judgement is right if it rests, wherever it is not about runs
in step, on judgements of the components. -/
theorem inStep_run {J : Judgement σ} (hblames : ∀ S g g', J S g g' → K.Blames env g g')
    (hJ : ∀ S g g', J S g g' → (∀ n, K.InStep S (env.run n g) (env.run n g')) ∨
      env.store.Supports H J S g g')
    (n : Nat) {g g' : Grammar σ} (h : J S g g') : K.InStep S (env.run n g) (env.run n g') := by
  refine stepFollows_lockstep_iff.1 (follows_run (H := H) hblames (fun S g g' h => ?_) n h)
  rcases hJ S g g' h with hruns | hsupport
  · exact .follows fun n => stepFollows_lockstep_iff.2 (hruns n)
  · exact .supports (hblames S g g' h) hsupport

/-- For runs of one grammar with equal slots it is enough to look at the components. -/
theorem inStep_run_of_components {P : Grammar σ → Prop}
    (hP : ∀ g, P g → (∀ n, K.InStep Eq (env.run n g) (env.run n g)) ∨
      (¬ g.Reads ∧ ∀ q ∈ env.store.components g, P q))
    (n : Nat) {g : Grammar σ} (hg : P g) : K.InStep Eq (env.run n g) (env.run n g) := by
  let J : Judgement σ := fun S g g' => S = Eq ∧ g = g' ∧ P g
  have hJ : J Eq g g := ⟨rfl, rfl, hg⟩
  refine inStep_run (H := .anything) (J := J) ?_ ?_ n hJ
  · rintro _ g _ ⟨-, rfl, -⟩
    exact .refl K env g
  clear hg hJ
  rintro _ g _ ⟨rfl, rfl, hg⟩
  refine (hP g hg).imp_right fun ⟨hreads, hcomponents⟩ => ?_
  have hpart (q : Grammar σ) (hq : q ∈ env.store.components g) : J Eq q q :=
    ⟨rfl, rfl, hcomponents q hq⟩
  have hfresh (kind : Kind) (q : Grammar σ) (hq : q ∈ env.store.components g) :
      J (Contents.anything.Same kind) q q := ⟨Contents.same_anything kind, rfl, hcomponents q hq⟩
  have hrule {r : Option (Grammar σ)} (hr : ∀ q ∈ r.toList, q ∈ env.store.components g) :
      Option.Rel (J Eq) r r := by
    cases r with
    | some q => exact .some (hpart q (hr q (.head _)))
    | none => exact .none
  have hparts {parts : List (Kind × Grammar σ)}
      (hmem : ∀ part ∈ parts, part.2 ∈ env.store.components g) :
      List.Forall₂ (J.Parts .anything) parts parts :=
    List.forall₂_same.2 fun part hpart => ⟨rfl, hfresh part.1 part.2 (hmem part hpart)⟩
  cases g with
  | accept p | expect p | literal s | pattern source matcher => exact absurd trivial hreads
  | succeed => exact .succeed
  | fail => exact .fail
  | sequence a b => exact .sequence (hpart a (.head _)) (hpart b (.tail _ (.head _)))
  | choice a b => exact .choice (hpart a (.head _)) (hpart b (.tail _ (.head _)))
  | sepBy item separator =>
      exact .sepBy (hpart item (.head _)) .text (hfresh .text separator (.tail _ (.head _)))
  | repetition atLeast item => exact .repetition atLeast (hpart item (.head _))
  | option item => exact .option (hpart item (.head _))
  | attempt item => exact .attempt (hpart item (.head _))
  | attemptPure item => exact .attemptPure (hpart item (.head _))
  | token item => exact .token (hpart item (.head _))
  | shared item => exact .shared (hpart item (.head _))
  | discard item => exact .discard .text (hfresh .text item (.head _))
  | except kind item forbidden =>
      exact .except kind (hfresh kind item (.head _)) forbidden (.eq .anything kind)
  | strict message item => exact .strict message (hpart item (.head _))
  | trace label item => exact .trace label (hpart item (.head _))
  | reference name item => exact .reference name (hpart item (.head _))
  | define name item => exact .define name (hpart item (.head _))
  | rename name rank item => exact .rename name rank (hpart item (.head _))
  | all kind action parts =>
      exact .all kind action (hparts fun part hmem => List.mem_map_of_mem hmem)
        fun args _ => action.respects_eq kind args
  | any kind action parts =>
      exact .any kind action (hparts fun part hmem => List.mem_map_of_mem hmem)
        fun args _ => action.respects_eq kind args
  | handle slot => exact .handle (hrule fun q hq => hq)
  | fixed hold name rule => exact .fixed hold hold name (hrule fun q hq => hq)

end Environment

end ParserAlgebra
