import ParserAlgebra.Parse
import ParserAlgebra.Proofs.Results

/-!
# Taking a whole input

A rule takes a whole input if it matches and nothing is left, which is also what the rule in
sequence with the end of the input asks for. Whether something is left is told by the offset in the
one and by the symbol ahead in the other; at places of the input these agree. So both match alike
and pass on the same errors. Where the sequence does not match, parsing the whole input fails with
an error of the rule, whose kind is told by how the rule itself came out.
-/

namespace ParserAlgebra

variable {σ : Type}

/-- No byte of the input is left exactly if no symbol is. -/
theorem Cursor.isAtEnd_iff {c : Cursor} (hc : c.place.IsGenuine c.input) :
    c.isAtEnd = true ↔ c.ahead = [] := by
  obtain ⟨before, hinput, hoffset⟩ := hc.exists_boundary
  have htotal : Text.byteLength c.input = c.offset + Text.byteLength c.ahead := by
    rw [hinput, Text.byteLength_append, hoffset]
    rfl
  rw [isAtEnd, decide_eq_true_iff, htotal, ← Text.byteLength_eq_zero_iff]
  omega

/-- A rule with the end of the input behind it. -/
abbrev Grammar.toEnd (p : Grammar σ) : Grammar σ :=
  .sequence p (.discard (.accept .endOfInput))

/-- The verdict where nothing but a certain text may be left: a match does not stand if it leaves
something. -/
def Verdict.atEnd (rest : List Char) : Verdict → Verdict
  | .matched => if rest = [] then .matched else .mismatched
  | verdict => verdict

namespace Verdict

variable {rest : List Char} {own : Verdict} {e : ParseError}

theorem atEnd_eq_matched_iff : own.atEnd rest = .matched ↔ own = .matched ∧ rest = [] := by
  cases own <;> simp [atEnd]

theorem atEnd_eq_mismatched_iff :
    own.atEnd rest = .mismatched ↔ own = .mismatched ∨ own = .matched ∧ rest ≠ [] := by
  cases own <;> simp [atEnd]

theorem atEnd_eq_failed_iff : own.atEnd rest = .failed e ↔ own = .failed e := by
  cases own <;> simp [atEnd, ite_eq_iff]

end Verdict

namespace Environment

variable {env : Environment σ} {kind : Kind} {p : Grammar σ} {input : List Char} {state : σ}
  {c d : Config σ} {own verdict : Verdict}

theorem run_end (env : Environment σ) (n : Nat) (c : Config σ) :
    env.run (n + 2) (.discard (.accept .endOfInput)) c =
      .ok ⟨Verdict.matched.atEnd c.cursor.ahead, c, []⟩ := by
  let within : Config σ := { c with slot := none }
  have hrun : env.run (n + 1) (.accept .endOfInput) within =
      .ok ⟨Verdict.matched.atEnd c.cursor.ahead, within, []⟩ := by
    cases hahead : c.cursor.ahead with
    | nil =>
        have hsymbol : within.cursor.symbol? = none := congrArg List.head? hahead
        have hstayed : within.takeSymbol = within := by rw [Config.takeSymbol, hsymbol]
        rw [run_accept n (by rw [hsymbol]; rfl), hstayed]
        rfl
    | cons s rest =>
        have hsymbol : within.cursor.symbol? = some s := congrArg List.head? hahead
        rw [run_accept_of_rejected n (by rw [hsymbol]; simp)]
        rfl
  rw [run, runLevel, hrun]
  rfl

/-- Looking for the end of the input changes nothing. -/
theorem resultsIn_end_iff : env.ResultsIn (.discard (.accept .endOfInput)) c verdict d ↔
    verdict = Verdict.matched.atEnd c.cursor.ahead ∧ d = c := by
  have hend : env.ResultsIn (.discard (.accept .endOfInput)) c
      (Verdict.matched.atEnd c.cursor.ahead) c := ⟨2, [], env.run_end 0 c⟩
  constructor
  · intro h
    exact h.unique hend
  · rintro ⟨rfl, rfl⟩
    exact hend

theorem resultsIn_toEnd_iff : env.ResultsIn p.toEnd c verdict d ↔
    ∃ own, env.ResultsIn p c own d ∧ verdict = own.atEnd d.cursor.ahead := by
  rw [resultsIn_sequence_iff]
  constructor
  · rintro (⟨e, hp, hend⟩ | ⟨hverdict, hp⟩)
    · obtain ⟨hverdict, rfl⟩ := resultsIn_end_iff.1 hend
      exact ⟨.matched, hp, hverdict⟩
    · refine ⟨verdict, hp, ?_⟩
      cases verdict with
      | matched => exact absurd rfl hverdict
      | mismatched | failed e => rfl
  · rintro ⟨own, hp, rfl⟩
    cases own with
    | matched => exact .inl ⟨d, hp, resultsIn_end_iff.2 ⟨rfl, rfl⟩⟩
    | mismatched | failed e => exact .inr ⟨Verdict.noConfusion, hp⟩

/-- Parsing an input comes to an end with a verdict and a configuration. -/
abbrev ParsesTo (env : Environment σ) (kind : Kind) (g : Grammar σ) (input : List Char)
    (state : σ) : Verdict → Config σ → Prop :=
  ComesOut fun n => env.parse n kind g input state

/-- Parsing an input that has to be taken as a whole comes to an end with a verdict and a
configuration. -/
abbrev ParsesWholeTo (env : Environment σ) (kind : Kind) (g : Grammar σ) (input : List Char)
    (state : σ) : Verdict → Config σ → Prop :=
  ComesOut fun n => env.parseComplete n kind g input state

/-- What is said of an input that was to be taken as a whole, where a rule has come out with a
verdict of its own at a cursor. -/
inductive SaysOfWhole (env : Environment σ) (g : Grammar σ) (cursor : Cursor) :
    Verdict → Verdict → Prop
  | taken (hend : cursor.ahead = []) : SaysOfWhole env g cursor .matched .matched
  | trailing {e : ParseError} (hrest : cursor.ahead ≠ [])
      (he : env.Blames g .trailing "unexpected trailing input" .start cursor.position cursor e) :
      SaysOfWhole env g cursor .matched (.failed e)
  | expected {e : ParseError}
      (he : env.Blames g .expected "syntax error" .start cursor.position cursor e) :
      SaysOfWhole env g cursor .mismatched (.failed e)
  | failed (e : ParseError) : SaysOfWhole env g cursor (.failed e) (.failed e)

section SaysOfWhole

variable {g : Grammar σ} {cursor : Cursor}

theorem saysOfWhole_iff_of_taken (hend : cursor.ahead = []) :
    env.SaysOfWhole g cursor .matched verdict ↔ verdict = .matched := by
  constructor
  · intro hsaid
    cases hsaid with
    | taken => rfl
    | trailing hrest => exact absurd hend hrest
  · rintro rfl
    exact .taken hend

theorem saysOfWhole_iff_of_trailing (hrest : cursor.ahead ≠ []) :
    env.SaysOfWhole g cursor .matched verdict ↔
      ∃ e, env.Blames g .trailing "unexpected trailing input" .start cursor.position cursor e ∧
        verdict = .failed e := by
  constructor
  · intro hsaid
    cases hsaid with
    | taken hend => exact absurd hend hrest
    | trailing _ he => exact ⟨_, he, rfl⟩
  · rintro ⟨e, he, rfl⟩
    exact .trailing hrest he

theorem saysOfWhole_mismatched_iff : env.SaysOfWhole g cursor .mismatched verdict ↔
    ∃ e, env.Blames g .expected "syntax error" .start cursor.position cursor e ∧
      verdict = .failed e := by
  constructor
  · intro hsaid
    cases hsaid with
    | expected he => exact ⟨_, he, rfl⟩
  · rintro ⟨e, he, rfl⟩
    exact .expected he

theorem saysOfWhole_failed_iff {e : ParseError} :
    env.SaysOfWhole g cursor (.failed e) verdict ↔ verdict = .failed e := by
  constructor
  · intro hsaid
    cases hsaid with
    | failed => rfl
  · rintro rfl
    exact .failed e

end SaysOfWhole

theorem ParsesTo.liesIn (h : env.ParsesTo kind p input state verdict d) :
    d.cursor.LiesIn input :=
  Cursor.LiesIn.onward ⟨rfl, (Cursor.wellFormed_ofInput input).place⟩ (ResultsIn.onward h)

theorem ParsesTo.exists_value (h : env.ParsesTo kind p input state verdict d) :
    ∃ v, d.slot = some v :=
  ResultsIn.exists_value (c := startOf kind input state) h

/-- An error of a rule that was to take an input as a whole can always be made. -/
theorem ParsesTo.exists_blames (h : env.ParsesTo kind p input state own d) (g : Grammar σ)
    (error : ErrorKind) (message : String) :
    ∃ e, env.Blames g error message .start d.cursor.position d.cursor e := by
  obtain ⟨hinput, hgenuine⟩ := h.liesIn
  have hstart : (Cursor.ofInput input).place.IsGenuine d.cursor.input := by
    rw [hinput]
    exact (Cursor.wellFormed_ofInput input).place
  rw [← hinput] at hgenuine
  exact env.exists_blames g error message hstart hgenuine

theorem exists_ok_iff {o : Outcome σ} (hown : o.verdict = own) :
    (∃ records, Except.ok o = (Except.ok ⟨verdict, d, records⟩ : Except Stop (Outcome σ))) ↔
      verdict = own ∧ d = o.config := by
  subst hown
  constructor
  · rintro ⟨records, h⟩
    cases h
    exact ⟨rfl, rfl⟩
  · rintro ⟨rfl, rfl⟩
    exact ⟨o.records, rfl⟩

theorem exists_raiseFor_after_iff {error : ErrorKind} {message : String} {g : Grammar σ}
    {start : Position} {earlier : List LogRecord} :
    (∃ records, (env.raiseFor error message g start c).map (·.after earlier) =
        .ok ⟨verdict, d, records⟩) ↔
      (∃ e, env.Blames g error message start c.cursor.position c.cursor e ∧
        verdict = .failed e) ∧ d = c := by
  constructor
  · rintro ⟨records, h⟩
    obtain ⟨raised, hraise, h⟩ := exists_of_map_eq_ok h
    obtain ⟨e, he, rfl⟩ := raiseFor_eq_ok_iff.1 hraise
    cases h
    exact ⟨⟨e, he, rfl⟩, rfl⟩
  · rintro ⟨⟨e, he, rfl⟩, rfl⟩
    refine ⟨earlier ++ env.verbosity.record .debug e.summary, ?_⟩
    rw [raiseFor_eq_ok_iff.2 ⟨e, he, rfl⟩]
    rfl

/-- What parsing a whole input makes of the outcome of the rule. -/
theorem exists_parseComplete_iff {n : Nat} {o : Outcome σ}
    (ho : env.parse n kind p input state = .ok o) :
    (∃ records, env.parseComplete n kind p input state = .ok ⟨verdict, d, records⟩) ↔
      env.SaysOfWhole p o.config.cursor o.verdict verdict ∧ d = o.config := by
  have hp : env.ParsesTo kind p input state o.verdict o.config := .of_eq ho
  -- The cursor has come from the beginning, so it stands at a place of the input.
  have hatEnd := Cursor.isAtEnd_iff (hp.liesIn.input_eq.symm ▸ hp.liesIn.isGenuine)
  rw [parseComplete, ho]
  dsimp only [bind, Except.bind]
  cases hown : o.verdict with
  | matched =>
      dsimp only
      by_cases hend : o.config.cursor.ahead = []
      · rw [if_pos (hatEnd.2 hend), saysOfWhole_iff_of_taken hend]
        exact exists_ok_iff hown
      · rw [if_neg (mt hatEnd.1 hend), saysOfWhole_iff_of_trailing hend]
        exact exists_raiseFor_after_iff
  | mismatched =>
      rw [saysOfWhole_mismatched_iff]
      exact exists_raiseFor_after_iff
  | failed e =>
      rw [saysOfWhole_failed_iff]
      exact exists_ok_iff hown

theorem parsesWholeTo_iff : env.ParsesWholeTo kind p input state verdict d ↔
    ∃ own, env.ParsesTo kind p input state own d ∧ env.SaysOfWhole p d.cursor own verdict := by
  constructor
  · rintro ⟨n, records, hn⟩
    obtain ⟨o, ho, -⟩ := exists_of_bind_eq_ok hn
    obtain ⟨hsaid, rfl⟩ := (exists_parseComplete_iff ho).1 ⟨records, hn⟩
    exact ⟨o.verdict, .of_eq ho, hsaid⟩
  · rintro ⟨own, ⟨n, records, ho⟩, hsaid⟩
    exact ⟨n, (exists_parseComplete_iff ho).2 ⟨hsaid, rfl⟩⟩

theorem parsesTo_toEnd_iff : env.ParsesTo kind p.toEnd input state verdict d ↔
    ∃ own, env.ParsesTo kind p input state own d ∧ verdict = own.atEnd d.cursor.ahead :=
  resultsIn_toEnd_iff

/-- Parsing a whole input is parsing the rule with the end of the input behind it. The same inputs
match, with the same value, and an error of the one is the same error of the other. Where the rule
with the end behind it does not match, parsing the whole input fails with an error of the rule that
begins with the input and ends where the rule stopped, and which says whether the rule itself has
matched. The state is left alike in all cases. What is matched as a whole is a match of the rule. -/
theorem parseComplete_as_sequence (env : Environment σ) (kind : Kind) (p : Grammar σ)
    (input : List Char) (state : σ) :
    (∀ d, env.ParsesWholeTo kind p input state .matched d ↔
      env.ParsesTo kind p.toEnd input state .matched d) ∧
    (∀ d, env.ParsesTo kind p.toEnd input state .mismatched d →
      ∃ e, env.ParsesWholeTo kind p input state (.failed e) d ∧
        (env.ParsesTo kind p input state .matched d ∧
            env.Blames p .trailing "unexpected trailing input" .start d.cursor.position d.cursor e ∨
          env.ParsesTo kind p input state .mismatched d ∧
            env.Blames p .expected "syntax error" .start d.cursor.position d.cursor e)) ∧
    (∀ e d, env.ParsesTo kind p.toEnd input state (.failed e) d →
      env.ParsesWholeTo kind p input state (.failed e) d) ∧
    (∀ d, env.ParsesWholeTo kind p input state .matched d →
      env.ParsesTo kind p input state .matched d ∧ ∃ v, d.slot = some v) ∧
    ∀ verdict d, env.ParsesWholeTo kind p input state verdict d →
      ∃ verdict', env.ParsesTo kind p.toEnd input state verdict' d := by
  refine ⟨fun d => ⟨fun h => ?_, fun h => ?_⟩, fun d h => ?_, fun e d h => ?_, fun d h => ?_,
    fun verdict d h => ?_⟩
  · obtain ⟨own, hp, hsaid⟩ := parsesWholeTo_iff.1 h
    cases hsaid with
    | taken hend =>
        have hmatched := Verdict.atEnd_eq_matched_iff.2 ⟨rfl, hend⟩
        exact parsesTo_toEnd_iff.2 ⟨.matched, hp, hmatched.symm⟩
  · obtain ⟨own, hp, hown⟩ := parsesTo_toEnd_iff.1 h
    obtain ⟨rfl, hend⟩ := Verdict.atEnd_eq_matched_iff.1 hown.symm
    exact parsesWholeTo_iff.2 ⟨.matched, hp, .taken hend⟩
  · obtain ⟨own, hp, hown⟩ := parsesTo_toEnd_iff.1 h
    rcases Verdict.atEnd_eq_mismatched_iff.1 hown.symm with rfl | ⟨rfl, hrest⟩
    · obtain ⟨e, he⟩ := hp.exists_blames p .expected "syntax error"
      exact ⟨e, parsesWholeTo_iff.2 ⟨.mismatched, hp, .expected he⟩, .inr ⟨hp, he⟩⟩
    · obtain ⟨e, he⟩ := hp.exists_blames p .trailing "unexpected trailing input"
      exact ⟨e, parsesWholeTo_iff.2 ⟨.matched, hp, .trailing hrest he⟩, .inl ⟨hp, he⟩⟩
  · obtain ⟨own, hp, hown⟩ := parsesTo_toEnd_iff.1 h
    obtain rfl := Verdict.atEnd_eq_failed_iff.1 hown.symm
    exact parsesWholeTo_iff.2 ⟨.failed e, hp, .failed e⟩
  · obtain ⟨own, hp, hsaid⟩ := parsesWholeTo_iff.1 h
    cases hsaid with
    | taken hend => exact ⟨hp, hp.exists_value⟩
  · obtain ⟨own, hp, -⟩ := parsesWholeTo_iff.1 h
    exact ⟨_, parsesTo_toEnd_iff.2 ⟨own, hp, rfl⟩⟩

/-- A rule whose action counts the digits, on four inputs: it takes all of the first, leaves
something of the second, does not match the third although it has moved, and is refused the digit
behind the sign on the fourth. -/
theorem parseComplete_as_sequence_digit :
    let count : Action Nat := fun args v n =>
      ⟨.text (v.toText ++ (Value.list args.values).toText), n + 1, none⟩
    let digit : Grammar Nat := .all .text count [(.text, .accept (.ofClass .digit))]
    let signed : Grammar Nat := .sequence (.accept (.symbol '-')) (.expect (.ofClass .digit))
    let p : Grammar Nat := .sequence (.literal "é\n") (.choice digit signed)
    let env : Environment Nat := ⟨.empty, .off⟩
    let stopped (input : List Char) (offset : Nat) (text : String) (n : Nat) : Config Nat :=
      ⟨(Cursor.ofInput input).advanceTo offset, some (.text text), n⟩
    let taken := ['é', '\n', '7']
    let left := ['é', '\n', '7', ';']
    let missed := ['é', '\n', 'x']
    let refused := ['é', '\n', '-', ';']
    (env.ParsesTo .text p.toEnd taken 0 .matched (stopped taken 4 "é\n7" 1) ∧
      env.ParsesWholeTo .text p taken 0 .matched (stopped taken 4 "é\n7" 1)) ∧
    (env.ParsesTo .text p.toEnd left 0 .mismatched (stopped left 4 "é\n7" 1) ∧
      ∃ e, env.ParsesWholeTo .text p left 0 (.failed e) (stopped left 4 "é\n7" 1) ∧
        e.kind = .trailing ∧ e.row = 2 ∧ e.column = 2 ∧ e.span = ⟨0, 4⟩) ∧
    (env.ParsesTo .text p.toEnd missed 0 .mismatched (stopped missed 3 "é\n" 0) ∧
      ∃ e, env.ParsesWholeTo .text p missed 0 (.failed e) (stopped missed 3 "é\n" 0) ∧
        e.kind = .expected ∧ e.row = 2 ∧ e.column = 1 ∧ e.span = ⟨0, 3⟩) ∧
    ∃ e, env.ParsesTo .text p.toEnd refused 0 (.failed e) (stopped refused 4 "é\n-" 0) ∧
      env.ParsesWholeTo .text p refused 0 (.failed e) (stopped refused 4 "é\n-" 0) ∧
        e.message = "unexpected symbol" := by
  intro count digit signed p env stopped taken left missed refused
  have htaken : env.ParsesTo .text p.toEnd taken 0 .matched (stopped taken 4 "é\n7" 1) :=
    ⟨9, [], rfl⟩
  have hleft : env.ParsesTo .text p.toEnd left 0 .mismatched (stopped left 4 "é\n7" 1) :=
    ⟨9, [], rfl⟩
  have hmissed : env.ParsesTo .text p.toEnd missed 0 .mismatched (stopped missed 3 "é\n" 0) :=
    ⟨9, [], rfl⟩
  obtain ⟨hmatches, -⟩ := env.parseComplete_as_sequence .text p taken 0
  obtain ⟨-, htrailing, -⟩ := env.parseComplete_as_sequence .text p left 0
  obtain ⟨-, hexpected, -⟩ := env.parseComplete_as_sequence .text p missed 0
  obtain ⟨-, -, hfails, -⟩ := env.parseComplete_as_sequence .text p refused 0
  refine ⟨⟨htaken, (hmatches _).2 htaken⟩, ⟨hleft, ?_⟩, ⟨hmissed, ?_⟩, ?_⟩
  · have hown : env.ParsesTo .text p left 0 .matched (stopped left 4 "é\n7" 1) := ⟨9, [], rfl⟩
    obtain ⟨e, he, ⟨-, hblames⟩ | ⟨hother, -⟩⟩ := htrailing _ hleft
    · exact ⟨e, he, hblames.kind, hblames.row, hblames.column, hblames.span⟩
    · cases (ResultsIn.unique hown hother).1
  · have hown : env.ParsesTo .text p missed 0 .mismatched (stopped missed 3 "é\n" 0) :=
      ⟨9, [], rfl⟩
    obtain ⟨e, he, ⟨hother, -⟩ | ⟨-, hblames⟩⟩ := hexpected _ hmissed
    · cases (ResultsIn.unique hown hother).1
    · exact ⟨e, he, hblames.kind, hblames.row, hblames.column, hblames.span⟩
  · have hrefused : env.ParsesTo .text p.toEnd refused 0 (.failed _) (stopped refused 4 "é\n-" 0) :=
      ⟨9, [], rfl⟩
    exact ⟨_, hrefused, hfails _ _ hrefused, rfl⟩

end Environment

end ParserAlgebra
