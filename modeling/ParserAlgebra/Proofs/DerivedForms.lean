import ParserAlgebra.Proofs.Following
import ParserAlgebra.Proofs.Results

/-!
# Derived forms

An optional rule is a choice that succeeds without it, and separated items are an item and then
many items that stand behind a separator. These forms result in the same as their definitions; only
in the error of an iteration that overruns they say differently what was expected.
-/

namespace ParserAlgebra

variable {σ : Type}

/-- The same verdict, unless it is the form itself that raises the error: then the errors may differ
in what was expected, and in nothing else. -/
structure Verdict.SameUnlessOwn (own : Prop) (verdict verdict' : Verdict) : Prop where
  same : ¬own → verdict = verdict'
  errors : own → ∃ e x, verdict = .failed e ∧ e.kind = .consumed ∧
    verdict' = .failed { e with expectation := x }

namespace Verdict.SameUnlessOwn

variable {own : Prop} {verdict verdict' : Verdict}

theorem of_not (h : ¬own) (verdict : Verdict) : Verdict.SameUnlessOwn own verdict verdict :=
  ⟨fun _ => rfl, fun hown => absurd hown h⟩

theorem symm (h : Verdict.SameUnlessOwn own verdict verdict') :
    Verdict.SameUnlessOwn own verdict' verdict := by
  constructor
  · exact fun hown => (h.same hown).symm
  · intro hown
    obtain ⟨e, x, he, hkind, he'⟩ := h.errors hown
    exact ⟨_, e.expectation, he', hkind, he⟩

end Verdict.SameUnlessOwn

namespace Environment

/-- An iteration comes to a round that does not match although it has moved the cursor. -/
inductive Overruns (env : Environment σ) (round : Grammar σ) : Config σ → Prop
  | here {c d : Config σ} (h : env.ResultsIn round c .mismatched d)
      (hmoved : d.cursor.offset ≠ c.cursor.offset) : Overruns env round c
  | later {c d : Config σ} (h : env.ResultsIn round c .matched d)
      (hmoved : d.cursor.offset ≠ c.cursor.offset) (hrest : Overruns env round d) :
      Overruns env round c

variable {env : Environment σ} {round blamed item separator : Grammar σ} {c d : Config σ}
  {verdict : Verdict} {owed : Nat}

theorem not_overruns_of_stayed (h : env.ResultsIn round c verdict d)
    (hstayed : d.cursor.offset = c.cursor.offset) : ¬env.Overruns round c := by
  intro hoverruns
  cases hoverruns with
  | here h' hmoved =>
      obtain ⟨-, rfl⟩ := h.unique h'
      exact hmoved hstayed
  | later h' hmoved =>
      obtain ⟨-, rfl⟩ := h.unique h'
      exact hmoved hstayed

theorem not_overruns_of_failed {e : ParseError} (h : env.ResultsIn round c (.failed e) d) :
    ¬env.Overruns round c := by
  intro hoverruns
  cases hoverruns with
  | here h' => cases (h.unique h').1
  | later h' => cases (h.unique h').1

theorem overruns_iff_of_moved (h : env.ResultsIn round c .matched d)
    (hmoved : d.cursor.offset ≠ c.cursor.offset) :
    env.Overruns round c ↔ env.Overruns round d := by
  constructor
  · intro hoverruns
    cases hoverruns with
    | here h' => cases (h.unique h').1
    | later h' _ hrest =>
        obtain ⟨-, rfl⟩ := h.unique h'
        exact hrest
  · exact .later h hmoved

/-- Whichever grammar an iteration blames, it comes to the same configuration, and to the same
verdict unless it overruns. -/
theorem Iterates.exists_blaming (h : env.Iterates blamed (env.ResultsIn round) owed c verdict d)
    (blamed' : Grammar σ) : ∃ verdict',
      env.Iterates blamed' (env.ResultsIn round) owed c verdict' d ∧
      Verdict.SameUnlessOwn (env.Overruns round c) verdict verdict' := by
  induction h with
  | missed h hstayed =>
      exact ⟨_, .missed h hstayed, .of_not (not_overruns_of_stayed h hstayed) _⟩
  | empty h hstayed =>
      exact ⟨_, .empty h hstayed, .of_not (not_overruns_of_stayed h hstayed) _⟩
  | failed h => exact ⟨_, .failed h, .of_not (not_overruns_of_failed h) _⟩
  | moved h hmoved hrest ih =>
      obtain ⟨verdict', hrest', hsame⟩ := ih
      rw [← overruns_iff_of_moved h hmoved] at hsame
      exact ⟨verdict', .moved h hmoved hrest', hsame⟩
  | consumed h hmoved he =>
      obtain ⟨e', he', heq⟩ := he.exists_other blamed'
      refine ⟨_, .consumed h hmoved he', fun hown => absurd (.here h hmoved) hown, fun _ => ?_⟩
      exact ⟨_, _, rfl, he.kind, congrArg _ heq⟩

/-- Separated items overrun behind the first of them. -/
def OverrunsBehind (env : Environment σ) (item separator : Grammar σ) (c : Config σ) : Prop :=
  ∃ d, env.ResultsIn item c .matched d ∧ env.Overruns (.sequence (.discard separator) item) d

theorem overrunsBehind_iff_of_matched (h : env.ResultsIn item c .matched d) :
    env.OverrunsBehind item separator c ↔
      env.Overruns (.sequence (.discard separator) item) d := by
  constructor
  · rintro ⟨d', h', hoverruns⟩
    obtain ⟨-, rfl⟩ := h.unique h'
    exact hoverruns
  · exact fun hoverruns => ⟨d, h, hoverruns⟩

/-- An item and then an iteration of items behind separators, which blames a grammar. -/
def Separates (env : Environment σ) (blamed item separator : Grammar σ) (c : Config σ)
    (verdict : Verdict) (d : Config σ) : Prop :=
  (∃ e, env.ResultsIn item c .matched e ∧
    env.Iterates blamed (env.ResultsIn (.sequence (.discard separator) item)) 0 e verdict d) ∨
  verdict ≠ .matched ∧ env.ResultsIn item c verdict d

theorem Separates.exists_blaming (h : env.Separates blamed item separator c verdict d)
    (blamed' : Grammar σ) : ∃ verdict', env.Separates blamed' item separator c verdict' d ∧
      Verdict.SameUnlessOwn (env.OverrunsBehind item separator c) verdict verdict' := by
  rcases h with ⟨e, hitem, hrounds⟩ | ⟨hverdict, hitem⟩
  · obtain ⟨verdict', hrounds', hsame⟩ := hrounds.exists_blaming blamed'
    rw [← overrunsBehind_iff_of_matched hitem] at hsame
    exact ⟨verdict', .inl ⟨e, hitem, hrounds'⟩, hsame⟩
  · have hbehind : ¬env.OverrunsBehind item separator c :=
      fun ⟨_, h', _⟩ => hverdict (hitem.unique h').1
    exact ⟨verdict, .inr ⟨hverdict, hitem⟩, .of_not hbehind verdict⟩

/-- The definition of separated items blames each round where they blame the whole. -/
theorem resultsIn_composed_iff :
    env.ResultsIn (.sequence item (.many (.sequence (.discard separator) item))) c verdict d ↔
      env.Separates (.sequence (.discard separator) item) item separator c verdict d := by
  rw [resultsIn_sequence_iff]
  simp only [Grammar.many, resultsIn_repetition_iff]
  rfl

theorem run_option_eq_choice (n : Nat) (item : Grammar σ) :
    env.run n (.option item) = env.run n (.choice item .succeed) := by
  rcases n with _ | _ | n
  · rfl
  · rfl
  · rfl

/-- An optional rule runs as the choice that succeeds without it. Separated items yield what an item
and then many separators with items behind them yield; both come to the same configuration with the
same verdict, except that of an error for an overrun of their own each says what it expected. -/
theorem derived_forms_agree (env : Environment σ) (item separator : Grammar σ) :
    (∀ n, env.run n (.option item) = env.run n (.choice item .succeed)) ∧
    ∀ c, env.YieldAlike
      (fun o o' => o.config = o'.config ∧
        Verdict.SameUnlessOwn (env.OverrunsBehind item separator c) o.verdict o'.verdict)
      (.sepBy item separator) (.sequence item (.many (.sequence (.discard separator) item))) c := by
  refine ⟨fun n => run_option_eq_choice n item, fun c => ⟨fun o ho => ?_, fun o' ho' => ?_⟩⟩
  · have hseparates : env.Separates _ item separator c o.verdict o.config :=
      resultsIn_sepBy_iff.1 ho.resultsIn
    obtain ⟨verdict', hcomposed, hsame⟩ := hseparates.exists_blaming _
    obtain ⟨records, hyields⟩ := resultsIn_iff.1 (resultsIn_composed_iff.2 hcomposed)
    exact ⟨_, hyields, rfl, hsame⟩
  · have hseparates := resultsIn_composed_iff.1 ho'.resultsIn
    obtain ⟨verdict, hsepBy, hsame⟩ := hseparates.exists_blaming (.sepBy item separator)
    obtain ⟨records, hyields⟩ := resultsIn_iff.1 (resultsIn_sepBy_iff.2 hsepBy)
    exact ⟨_, hyields, rfl, hsame.symm⟩

end Environment

end ParserAlgebra
