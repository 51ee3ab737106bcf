import ParserAlgebra.Proofs.Congruence

/-!
# Runs that resemble each other

Two grammars that do the same may still be written in two ways, and what was expected shows in their
errors and in what is logged. Otherwise runs of them from the same configuration resemble each
other: the cursor, the slot and the state are the same throughout, and an error differs in what was
expected if it differs at all.
-/

namespace ParserAlgebra

variable {σ : Type}

/-- Errors that differ in what was expected only, and in that as a relation allows. -/
structure ParseError.ExpectsAlike (R : Expectation → Expectation → Prop) (e e' : ParseError) :
    Prop where
  eq_but_expectation : e' = { e with expectation := e'.expectation }
  expectation : R e.expectation e'.expectation

namespace ParseError.ExpectsAlike

variable {R : Expectation → Expectation → Prop} {x x' : Expectation} {e e' : ParseError}

theorem of_locate (hx : R x x') (kind : ErrorKind) (message : String) (start reported : Position)
    (c : Cursor) :
    EndsAlike (ExpectsAlike R) ((locate kind message x start reported c).mapError .fault)
      ((locate kind message x' start reported c).mapError .fault) := by
  unfold locate
  cases c.symbolAt reported.offset with
  | error f => exact .stop _
  | ok found =>
      cases c.excerpt start reported with
      | error f => exact .stop _
      | ok excerpt => exact .ok ⟨rfl, hx⟩

theorem eq (h : ExpectsAlike Eq e e') : e = e' := by
  rw [h.eq_but_expectation, ← h.expectation]

/-- What is logged of an error shows the text of what was expected only. -/
theorem texts (h : ExpectsAlike R e e') (htext : e.expectation.text = e'.expectation.text) :
    e.headline = e'.headline ∧ e.summary = e'.summary := by
  rw [h.eq_but_expectation]
  simp only [headline, summary, htext, and_self]

end ParseError.ExpectsAlike

theorem Verdict.Alike.imp {R R' : ParseError → ParseError → Prop} {v w : Verdict} (h : v.Alike R w)
    (hR : ∀ e e', R e e' → R' e e') : v.Alike R' w := by
  cases h with
  | matched => exact .matched
  | mismatched => exact .mismatched
  | failed he => exact .failed (hR _ _ he)

namespace Correspondence

/-- The same cursor, and errors that are the same but for what was expected. The records may be the
same as well if the text of what was expected is. -/
def sameCursor (R : Expectation → Expectation → Prop) (hrefl : ∀ x, R x x) (logs : Prop)
    (htext : logs → ∀ x x', R x x' → x.text = x'.text) : Correspondence where
  cursor := Eq
  error := ParseError.ExpectsAlike R
  expectation := R
  logs := logs
  expectation_refl := hrefl
  checkpoint := by rintro c _ rfl; rfl
  commit := by rintro c _ c' _ rfl rfl; rfl
  skipBlanks := by rintro c _ rfl; rfl
  moved := by rintro c _ c' _ rfl rfl _ _; rfl
  slice := by rintro c _ c' _ rfl rfl _ _; exact .of_eq fun _ _ => trivial
  locate := by
    rintro c _ c' _ rfl rfl _ _ kind message x x' hx
    exact ParseError.ExpectsAlike.of_locate hx kind message _ _ c'
  cursor_eq _ _ _ h := h
  error_texts hlogs _ _ he := he.texts (htext hlogs _ _ he.expectation)

/-- The same cursor, and the same error. -/
def identity : Correspondence :=
  sameCursor Eq (fun _ => rfl) False False.elim

section SameCursor

variable {R : Expectation → Expectation → Prop} {hrefl : ∀ x, R x x} {logs : Prop}
  {htext : logs → ∀ x x', R x x' → x.text = x'.text} {c d : Config σ} {o p : Outcome σ}

theorem faithful_sameCursor : (sameCursor R hrefl logs htext).Faithful where
  ahead := by rintro c _ rfl; rfl
  advance := by rintro c _ rfl; rfl
  advanceTo := by rintro c _ rfl text; rfl

theorem Configs.eq (h : (sameCursor R hrefl logs htext).Configs Eq c d) : c = d := by
  obtain ⟨cursor, slot, state⟩ := c
  obtain ⟨cursor', slot', state'⟩ := d
  obtain ⟨rfl, rfl, rfl⟩ := h
  rfl

theorem Configs.refl (c : Config σ) : (sameCursor R hrefl logs htext).Configs Eq c c :=
  ⟨rfl, rfl, rfl⟩

theorem Outcomes.refl (o : Outcome σ) : (sameCursor R hrefl logs htext).Outcomes Eq o o := by
  refine ⟨?_, .refl _, fun _ => rfl⟩
  cases o.verdict with
  | matched => exact .matched
  | mismatched => exact .mismatched
  | failed e => exact .failed ⟨rfl, hrefl _⟩

end SameCursor

end Correspondence

/-- Outcomes that may differ in the records and in what an error says was expected. -/
structure Outcome.SameButExpectation (o p : Outcome σ) : Prop where
  verdict : o.verdict.Alike (fun e e' => e' = { e with expectation := e'.expectation }) p.verdict
  config : o.config = p.config

/-- Outcomes that may differ in the definitions that an error lists. -/
structure Outcome.SameButDefinitions (o p : Outcome σ) : Prop where
  verdict : o.verdict.Alike (ParseError.ExpectsAlike fun x x' => x.text = x'.text) p.verdict
  config : o.config = p.config
  records : o.records = p.records

namespace Environment

open Correspondence Comparison

variable {env : Environment σ} {K : Correspondence} {V : Comparison} {H : Contents}
  {R : Expectation → Expectation → Prop} {hrefl : ∀ x, R x x} {logs : Prop}
  {htext : logs → ∀ x x', R x x' → x.text = x'.text}

/-- A grammar that looks at the input itself follows itself. -/
theorem follows_sameCursor_of_reads {g : Grammar σ} (hg : g.Reads) (n : Nat) :
    (sameCursor R hrefl logs htext).StepFollows V n Eq (env.run n g) fun m => env.run m g := by
  refine follows_of_reads faithful_sameCursor .eq hg ?_ n
  rintro _ _ _ c _ rfl
  rfl

end Environment

end ParserAlgebra
