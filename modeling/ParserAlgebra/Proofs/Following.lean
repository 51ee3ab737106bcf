import ParserAlgebra.Proofs.Halting
import ParserAlgebra.Proofs.Kinship
import ParserAlgebra.Proofs.Resemblance

/-!
# Runs of akin grammars

A cover passes on what the grammar under it does, at the price of nesting one deeper. How many
covers lie around a node is not limited, so no bound on nesting that depends on the bound for the
other grammar alone is large enough; but some bound is. A run that comes to a result is followed by
one of each grammar that is akin, which takes the same input and ends with the same slot, the same
state and the same verdict, errors being the same but for what was expected: in each of the two
errors, that is one of two akin grammars.
-/

namespace ParserAlgebra

variable {σ : Type}

namespace Kinship

/-- The same expectation twice, or one of each of two akin grammars. -/
def Expects (K : Kinship σ) (env : Environment σ) (x x' : Expectation) : Prop :=
  x = x' ∨ ∃ g g', K.Akin g g' ∧ env.expectationOf g = .ok x ∧ env.expectationOf g' = .ok x'

/-- The same cursor, and errors that are the same but for what was expected of akin grammars. What
is logged may differ. -/
def correspondence (K : Kinship σ) (env : Environment σ) : Correspondence :=
  .sameCursor (K.Expects env) (fun _ => .inl rfl) False False.elim

/-- Akin grammars, run into equal slots. -/
def judgement (K : Kinship σ) : Judgement σ := fun S g g' =>
  S = Eq ∧ K.Akin g g'

variable {K : Kinship σ} {env : Environment σ} {g g' : Grammar σ} {o p : Outcome σ}

theorem Expects.symm {x x' : Expectation} (h : K.symm.Expects env x' x) : K.Expects env x x' := by
  rcases h with rfl | ⟨g', g, hakin, hx', hx⟩
  · exact .inl rfl
  · exact .inr ⟨g, g', hakin.symm, hx, hx'⟩

theorem outcomes_symm (h : (K.symm.correspondence env).Outcomes Eq p o) :
    (K.correspondence env).Outcomes Eq o p := by
  refine ⟨?_, ⟨h.config.cursor.symm, h.config.slot.symm, h.config.state.symm⟩, False.elim⟩
  obtain ⟨verdict, config, records⟩ := o
  obtain ⟨verdict', config', records'⟩ := p
  have hverdict : verdict'.Alike (ParseError.ExpectsAlike (K.symm.Expects env)) verdict := h.verdict
  cases hverdict with
  | matched => exact .matched
  | mismatched => exact .mismatched
  | failed he => exact .failed ⟨by rw [he.eq_but_expectation], he.expectation.symm⟩

theorem blames_of_akin (h : K.Akin g g') : (K.correspondence env).Blames env g g' := by
  obtain ⟨x, hx⟩ := env.exists_expectationOf g
  obtain ⟨x', hx'⟩ := env.exists_expectationOf g'
  refine ⟨?_, False.elim⟩
  rw [hx, hx']
  exact .ok (.inr ⟨g, g', h, hx, hx'⟩)

/-- Parts that are given in pairs are judged in pairs. -/
theorem forall₂_parts {parts : List (Kind × Grammar σ × Grammar σ)}
    (h : ∀ part ∈ parts, K.Akin part.2.1 part.2.2) :
    List.Forall₂ (K.judgement.Parts .anything) (parts.map fun part => (part.1, part.2.1))
      (parts.map fun part => (part.1, part.2.2)) := by
  rw [List.forall₂_map_left_iff, List.forall₂_map_right_iff]
  exact List.forall₂_same.2 fun part hpart =>
    ⟨rfl, Contents.same_anything part.1, h part hpart⟩

theorem rel_judgement {r r' : Option (Grammar σ)} (h : Option.Rel K.Akin r r') :
    Option.Rel (K.judgement Eq) r r' := by
  cases h with
  | some h => exact .some ⟨rfl, h⟩
  | none => exact .none

open Environment

/-- Covers are taken off on either side, until two nodes of the same operator are met. -/
theorem restsOn_of_akin (hstore : K.HoldsIn env.store)
    (hcovers : ∀ g a, K.covers g a → env.PassesOn False .upToFaults g a)
    (h : K.Akin g g') :
    env.RestsOn (K.correspondence env) .upToFaults .anything K.judgement Eq g g' := by
  have hfresh (kind : Kind) {g g' : Grammar σ} (h : K.Akin g g') :
      K.judgement (Contents.anything.Same kind) g g' := ⟨Contents.same_anything kind, h⟩
  induction h with
  | left hcover _ ih => exact .left (hcovers _ _ hcover) ih
  | right hcover _ ih => exact .right (hcovers _ _ hcover) ih
  | @primitive g h =>
      cases g with
      | accept | expect | literal | pattern =>
          exact .follows (follows_sameCursor_of_reads trivial)
      | succeed => exact .supports (.refl _ env _) .succeed
      | fail => exact .supports (.refl _ env _) .fail
      | _ => exact h.elim
  | sequence ha hb =>
      exact .supports (blames_of_akin (.sequence ha hb)) (.sequence ⟨rfl, ha⟩ ⟨rfl, hb⟩)
  | choice ha hb =>
      exact .supports (blames_of_akin (.choice ha hb)) (.choice ⟨rfl, ha⟩ ⟨rfl, hb⟩)
  | repetition atLeast h =>
      exact .supports (blames_of_akin (.repetition atLeast h)) (.repetition atLeast ⟨rfl, h⟩)
  | option h => exact .supports (blames_of_akin (.option h)) (.option ⟨rfl, h⟩)
  | sepBy hitem hseparator =>
      exact .supports (blames_of_akin (.sepBy hitem hseparator))
        (.sepBy ⟨rfl, hitem⟩ .text (hfresh .text hseparator))
  | discard h => exact .supports (blames_of_akin (.discard h)) (.discard .text (hfresh .text h))
  | except kind h forbidden =>
      exact .supports (blames_of_akin (.except kind h forbidden))
        (.except kind (hfresh kind h) forbidden (.eq .anything kind))
  | attempt h => exact .supports (blames_of_akin (.attempt h)) (.attempt ⟨rfl, h⟩)
  | attemptPure h => exact .supports (blames_of_akin (.attemptPure h)) (.attemptPure ⟨rfl, h⟩)
  | strict message h =>
      exact .supports (blames_of_akin (.strict message h)) (.strict message ⟨rfl, h⟩)
  | trace label h => exact .supports (blames_of_akin (.trace label h)) (.trace label ⟨rfl, h⟩)
  | token h => exact .supports (blames_of_akin (.token h)) (.token ⟨rfl, h⟩)
  | shared h => exact .supports (blames_of_akin (.shared h)) (.shared ⟨rfl, h⟩)
  | reference name h =>
      exact .supports (blames_of_akin (.reference name h)) (.reference name ⟨rfl, h⟩)
  | define name h => exact .supports (blames_of_akin (.define name h)) (.define name ⟨rfl, h⟩)
  | rename name rank h =>
      exact .supports (blames_of_akin (.rename name rank h)) (.rename name rank ⟨rfl, h⟩)
  | all kind action h =>
      exact .supports (blames_of_akin (.all kind action h))
        (.all kind action (forall₂_parts h) fun args _ => action.respects_eq kind args)
  | any kind action h =>
      exact .supports (blames_of_akin (.any kind action h))
        (.any kind action (forall₂_parts h) fun args _ => action.respects_eq kind args)
  | handle h =>
      exact .supports (blames_of_akin (.handle h)) (.handle (rel_judgement (hstore.slots h)))
  | fixed hold hold' name h =>
      exact .supports (blames_of_akin (.fixed hold hold' name h))
        (.fixed hold hold' name (rel_judgement (hstore.rules h)))

end Kinship

namespace Environment

variable {K : Kinship σ} {env : Environment σ} {g g' : Grammar σ} {c : Config σ} {o : Outcome σ}

/-- A run is followed by one of each grammar that is akin. -/
theorem follows_run_of_akin (hstore : K.HoldsIn env.store)
    (hcovers : ∀ g a, K.covers g a → env.PassesOn False .upToFaults g a)
    (h : K.Akin g g') (n : Nat) :
    (K.correspondence env).StepFollows .upToFaults n Eq (env.run n g) fun m => env.run m g' := by
  have hjudged : K.judgement Eq g g' := ⟨rfl, h⟩
  refine follows_run (H := .anything) (fun S g g' h => Kinship.blames_of_akin h.2) ?_ n hjudged
  rintro _ g g' ⟨rfl, h⟩
  exact Kinship.restsOn_of_akin hstore hcovers h

/-- From a configuration, one of two grammars yields an outcome where the other one does, and a
related one. -/
structure YieldAlike (env : Environment σ) (R : Outcome σ → Outcome σ → Prop) (g g' : Grammar σ)
    (c : Config σ) : Prop where
  left : ∀ o, env.Yields g c o → ∃ o', env.Yields g' c o' ∧ R o o'
  right : ∀ o', env.Yields g' c o' → ∃ o, env.Yields g c o ∧ R o o'

theorem YieldAlike.imp {R R' : Outcome σ → Outcome σ → Prop} (h : env.YieldAlike R g g' c)
    (hR : ∀ o o', R o o' → R' o o') : env.YieldAlike R' g g' c := by
  constructor
  · intro o ho
    obtain ⟨o', ho', hr⟩ := h.left o ho
    exact ⟨o', ho', hR o o' hr⟩
  · intro o' ho'
    obtain ⟨o, ho, hr⟩ := h.right o' ho'
    exact ⟨o, ho, hR o o' hr⟩

/-- At a genuine place there is no fault to meet. -/
theorem exists_yields_of_akin (hstore : K.HoldsIn env.store)
    (hcovers : ∀ g a, K.covers g a → env.PassesOn False .upToFaults g a)
    (h : K.Akin g g') (hc : c.cursor.place.IsGenuine c.cursor.input) (ho : env.Yields g c o) :
    ∃ o', env.Yields g' c o' ∧ (K.correspondence env).Outcomes Eq o o' := by
  obtain ⟨n, hn⟩ := ho
  have hfollows := follows_run_of_akin hstore hcovers h n c c (.refl c)
  rw [hn] at hfollows
  cases hfollows with
  | ends hs hends =>
      obtain ⟨m, hm⟩ := hs.exists
      obtain ⟨o', rfl, houtcomes⟩ := hends.exists_of_left rfl
      exact ⟨o', ⟨m, hm⟩, houtcomes⟩
  | permitted hs hpermitted =>
      obtain ⟨m, hm⟩ := hs.exists
      rename_i stop
      cases stop with
      | nestingLimit => exact absurd rfl hpermitted
      | fault f => exact absurd hc ((env.orderly_run m g' c).of_eq_fault hm)

/-- Akin grammars are followed in both directions. -/
theorem yieldAlike_of_akin (hstore : K.HoldsIn env.store)
    (hcovers : ∀ g a, K.covers g a → env.PassesOn False .upToFaults g a)
    (h : K.Akin g g') (hc : c.cursor.place.IsGenuine c.cursor.input) :
    env.YieldAlike ((K.correspondence env).Outcomes Eq) g g' c := by
  constructor
  · exact fun o ho => exists_yields_of_akin hstore hcovers h hc ho
  · intro o' ho'
    obtain ⟨o, ho, houtcomes⟩ := exists_yields_of_akin hstore.symm hcovers h.symm hc ho'
    exact ⟨o, ho, Kinship.outcomes_symm houtcomes⟩

end Environment

end ParserAlgebra
