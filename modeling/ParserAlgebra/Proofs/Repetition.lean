import ParserAlgebra.Proofs.Results

/-!
# Repetitions

One or more items are an item and then many items, with two exceptions: a first item that matches in
place ends the repetition, and one that mismatches although it has moved the cursor is an error of
the repetition.

Where a repetition of a recognizer has ended there is nothing left for the recognizer to do: run
again, it stays in its place and leaves everything as it is. So a repetition of a repetition comes
to the same as the repetition, whether or not the inner one has to match.
-/

namespace ParserAlgebra

variable {σ : Type}

/-- An outcome after which a repetition does nothing on its own account: a match has moved the
cursor, and a mismatch has not. -/
structure Outcome.Regular (c : Config σ) (o : Outcome σ) : Prop where
  moved : o.verdict = .matched → o.config.cursor.offset ≠ c.cursor.offset
  stayed : o.verdict = .mismatched → o.config.cursor.offset = c.cursor.offset

namespace Environment

variable {env : Environment σ} {a b g item : Grammar σ} {c d : Config σ} {o o' : Outcome σ}
  {owed : Nat}

theorem Yields.eq_iff (h : env.Yields g c o) : env.Yields g c o' ↔ o' = o := by
  constructor
  · intro h'
    exact h'.unique h
  · rintro rfl
    exact h

theorem Yields.exists_first (h : env.Yields (.sequence a b) c o') : ∃ o, env.Yields a c o := by
  obtain ⟨_ | n, hn⟩ := h
  · cases hn
  · obtain ⟨o, ho, -⟩ := exists_of_bind_eq_ok hn
    exact ⟨o, n, ho⟩

theorem exists_run_of_repetition {n : Nat} (h : env.run n (.repetition owed item) c = .ok o') :
    ∃ m o, n = m + 2 ∧ env.run (m + 1) item c = .ok o := by
  rcases n with _ | _ | m
  · cases h
  · cases h
  · obtain ⟨o, ho, -⟩ := exists_of_bind_eq_ok h
    exact ⟨m, o, rfl, ho⟩

theorem Yields.exists_item (h : env.Yields (.repetition owed item) c o') :
    ∃ o, env.Yields item c o := by
  obtain ⟨n, hn⟩ := h
  obtain ⟨m, o, -, ho⟩ := exists_run_of_repetition hn
  exact ⟨o, m + 1, ho⟩

theorem yields_sequence_iff_of_matched (ha : env.Yields a c o) (h : o.verdict = .matched) :
    env.Yields (.sequence a b) c o' ↔
      ∃ rest, env.Yields b o.config rest ∧ o' = rest.after o.records := by
  constructor
  · intro hwhole
    exact hwhole.exists_second ha h
  · rintro ⟨rest, hrest, rfl⟩
    exact yields_sequence ha h hrest

theorem yields_repetition_iff_of_moved (hitem : env.Yields item c o) (h : o.verdict = .matched)
    (hmoved : o.config.cursor.offset ≠ c.cursor.offset) :
    env.Yields (.repetition owed item) c o' ↔
      ∃ rest, env.Yields (.repetition (owed - 1) item) o.config rest ∧
        o' = rest.after o.records := by
  constructor
  · rintro ⟨n, hn⟩
    obtain ⟨m, first, rfl, hfirst⟩ := exists_run_of_repetition hn
    obtain rfl := hitem.unique ⟨m + 1, hfirst⟩
    rw [run, runLevel, iterate_of_moved hfirst h hmoved] at hn
    obtain ⟨rest, hrest, rfl⟩ := exists_of_map_eq_ok hn
    have hcontinued := env.continuedBy_iterate item (fun c => .refl (env.run (m + 1) item c))
      m.le_succ (owed - 1) o.config
    exact ⟨rest, ⟨m + 2, hcontinued.eq_ok hrest⟩, rfl⟩
  · rintro ⟨rest, hrest, rfl⟩
    exact yields_repetition_of_moved hitem h hmoved hrest

theorem yields_repetition_of_failed (hitem : env.Yields item c o) {e : ParseError}
    (h : o.verdict = .failed e) : env.Yields (.repetition owed item) c o := by
  obtain ⟨n, hn⟩ := hitem
  refine ⟨n + 2, ?_⟩
  rw [run, runLevel]
  exact iterate_of_failed (Yields.run_eq_of_le n hn n.le_succ) h

/-- An item that overruns is an error of the repetition, which blames the item. -/
theorem yields_repetition_of_consumed (hitem : env.Yields item c o) (h : o.verdict = .mismatched)
    (hmoved : o.config.cursor.offset ≠ c.cursor.offset) {e : ParseError}
    (he : env.Blames item .consumed iterationConsumed c.cursor.position o.config.cursor.position
      o.config.cursor e) :
    env.Yields (.repetition owed item) c
      ⟨.failed e, o.config, o.records ++ env.verbosity.record .debug e.summary⟩ := by
  obtain ⟨n, hn⟩ := hitem
  refine ⟨n + 2, ?_⟩
  rw [run, runLevel, iterate_of_consumed (Yields.run_eq_of_le n hn n.le_succ) h hmoved,
    raiseFor_eq_ok_iff.2 ⟨e, he, rfl⟩]
  rfl

theorem yields_manyOne_of_mismatched (hitem : env.Yields item c o) (h : o.verdict = .mismatched)
    (hstayed : o.config.cursor.offset = c.cursor.offset) : env.Yields (.manyOne item) c o := by
  have hyields : env.Yields (.manyOne item) c (o.config.mismatched.after o.records) :=
    yields_repetition_of_mismatched hitem h hstayed
  obtain ⟨verdict, config, records⟩ := o
  cases h
  simpa [Outcome.after, Config.mismatched] using hyields

theorem yields_manyOne_of_empty (hitem : env.Yields item c o) (h : o.verdict = .matched)
    (hstayed : o.config.cursor.offset = c.cursor.offset) : env.Yields (.manyOne item) c o := by
  have hyields : env.Yields (.manyOne item) c { o with verdict := .matched } :=
    yields_repetition_of_empty hitem h hstayed
  rwa [← h] at hyields

/-- From the second item on, one or more items are many items. -/
theorem yields_manyOne_iff_sequence (hitem : env.Yields item c o) (h : o.Regular c) :
    env.Yields (.manyOne item) c o' ↔ env.Yields (.sequence item (.many item)) c o' := by
  cases hverdict : o.verdict with
  | matched =>
      rw [yields_repetition_iff_of_moved hitem hverdict (h.moved hverdict),
        yields_sequence_iff_of_matched hitem hverdict]
  | mismatched =>
      have hsequence := yields_sequence_of_not_matched hitem (by simp [hverdict]) (.many item)
      have hmanyOne := yields_manyOne_of_mismatched hitem hverdict (h.stayed hverdict)
      rw [hmanyOne.eq_iff, hsequence.eq_iff]
  | failed e =>
      have hsequence := yields_sequence_of_not_matched hitem (by simp [hverdict]) (.many item)
      have hmanyOne : env.Yields (.manyOne item) c o := yields_repetition_of_failed hitem hverdict
      rw [hmanyOne.eq_iff, hsequence.eq_iff]

/-- One or more items yield what an item and many items behind it yield, except where the first item
does not end in a regular way. If it overruns, that is an error of the repetition and a mismatch of
the sequence; if it matches in place, the repetition ends with it and the sequence goes on. -/
theorem manyOne_against_sequence (env : Environment σ) (item : Grammar σ) (c : Config σ)
    (hc : c.cursor.place.IsGenuine c.cursor.input) :
    ((∀ o, env.Yields item c o → o.Regular c) → ∀ o,
      env.Yields (.manyOne item) c o ↔ env.Yields (.sequence item (.many item)) c o) ∧
    (∀ o, env.Yields item c o → o.verdict = .mismatched →
      o.config.cursor.offset ≠ c.cursor.offset →
        env.Yields (.sequence item (.many item)) c o ∧
        ∃ e, env.Blames item .consumed iterationConsumed c.cursor.position
            o.config.cursor.position o.config.cursor e ∧
          env.Yields (.manyOne item) c
            ⟨.failed e, o.config, o.records ++ env.verbosity.record .debug e.summary⟩) ∧
    ∀ o, env.Yields item c o → o.verdict = .matched →
      o.config.cursor.offset = c.cursor.offset →
        env.Yields (.manyOne item) c o ∧
        ∀ o', env.Yields (.sequence item (.many item)) c o' ↔
          ∃ rest, env.Yields (.many item) o.config rest ∧ o' = rest.after o.records := by
  refine ⟨fun hregular o' => ?_, fun o hitem h hmoved => ⟨?_, ?_⟩,
    fun o hitem h hstayed => ⟨?_, ?_⟩⟩
  · -- Whichever of the two comes to an end, its first item does.
    constructor
    · intro hmanyOne
      obtain ⟨o, hitem⟩ := hmanyOne.exists_item
      exact (yields_manyOne_iff_sequence hitem (hregular o hitem)).1 hmanyOne
    · intro hsequence
      obtain ⟨o, hitem⟩ := hsequence.exists_first
      exact (yields_manyOne_iff_sequence hitem (hregular o hitem)).2 hsequence
  · exact yields_sequence_of_not_matched hitem (by simp [h]) (.many item)
  · have hinput := hitem.onward.input
    obtain ⟨e, he⟩ := env.exists_blames item .consumed iterationConsumed (hinput ▸ hc)
      (hitem.onward.isGenuine hc)
    exact ⟨e, he, yields_repetition_of_consumed hitem h hmoved he⟩
  · exact yields_manyOne_of_empty hitem h hstayed
  · exact fun o' => yields_sequence_iff_of_matched hitem h

/-- An item that overruns, on the second row, and the same item where it matches and moves the
cursor. -/
theorem manyOne_against_sequence_letters :
    let item : Grammar Nat := .sequence (.option (.accept (.symbol 'a')))
      (.accept (.either (.symbol 'ß') .endOfInput))
    let env : Environment Nat := ⟨.empty, .off⟩
    let c : Config Nat := ⟨(Cursor.ofInput ['\n', 'a', 'c']).advance, some (.text ""), 0⟩
    let c' : Config Nat := ⟨.ofInput ['ß', 'a'], some (.text ""), 0⟩
    c.cursor.place.IsGenuine c.cursor.input ∧ c'.cursor.place.IsGenuine c'.cursor.input ∧
      (∃ o e records, env.Yields (.sequence item (.many item)) c o ∧ o.verdict = .mismatched ∧
        env.Yields (.manyOne item) c ⟨.failed e, o.config, records⟩ ∧ e.kind = .consumed ∧
        e.row = 2 ∧ e.column = 2) ∧
      ∃ o, env.Yields (.sequence item (.many item)) c' o ∧ env.Yields (.manyOne item) c' o ∧
        o.verdict = .matched ∧ o.config.slot = some (.text "ßa") := by
  intro item env c c'
  have hc : c.cursor.place.IsGenuine c.cursor.input := ⟨rfl, rfl⟩
  have hc' : c'.cursor.place.IsGenuine c'.cursor.input := ⟨rfl, rfl⟩
  obtain ⟨-, hoverrun, -⟩ := env.manyOne_against_sequence item c hc
  obtain ⟨hsequence, e, he, hmanyOne⟩ := hoverrun _ ⟨4, rfl⟩ rfl (by decide)
  obtain ⟨hsame, -⟩ := env.manyOne_against_sequence item c' hc'
  have hregular (o : Outcome Nat) (ho : env.Yields item c' o) : o.Regular c' := by
    obtain rfl := ho.unique ⟨4, rfl⟩
    exact ⟨fun _ => by decide, fun h => nomatch h⟩
  have hsequence' : env.Yields (.sequence item (.many item)) c' _ := ⟨12, rfl⟩
  refine ⟨hc, hc', ⟨_, e, _, hsequence, rfl, hmanyOne, he.kind, he.row, he.column⟩, ?_⟩
  exact ⟨_, hsequence', (hsame hregular _).2 hsequence', rfl, rfl⟩

end Environment

section Recognizers

variable {env : Environment σ} {rules : RuleName → Prop} {g q item round : Grammar σ}
  {c d : Config σ} {verdict : Verdict} {owed : Nat}

namespace Environment

/-- A grammar that, run from a configuration, neither fails nor changes anything. -/
def Rests (env : Environment σ) (g : Grammar σ) (c : Config σ) : Prop :=
  env.ResultsIn g c .mismatched c ∨ env.ResultsIn g c .matched c

/-- A grammar that does as many rounds at once as there are: it results in what the repetition of
the item results in, except that it may mismatch where no item moves the cursor. -/
structure DoesRounds (env : Environment σ) (item round : Grammar σ) : Prop where
  results : ∀ {c verdict d}, env.ResultsIn (.many item) c verdict d →
    env.ResultsIn round c verdict d ∨
      env.ResultsIn round c .mismatched c ∧ verdict = .matched ∧ d = c
  ends : ∀ {c verdict d}, env.ResultsIn round c verdict d →
    ∃ verdict' d', env.ResultsIn (.many item) c verdict' d'

theorem Rests.many (h : env.Rests item c) : env.ResultsIn (.many item) c .matched c := by
  apply resultsIn_repetition_iff.2
  rcases h with h | h
  · exact .missed h rfl
  · exact .empty h rfl

theorem Iterates.exists_first {blamed : Grammar σ}
    {round : Config σ → Verdict → Config σ → Prop}
    (h : env.Iterates blamed round owed c verdict d) : ∃ verdict' d', round c verdict' d' := by
  cases h with
  | missed h _ | empty h _ | moved h _ _ | consumed h _ _ | failed h => exact ⟨_, _, h⟩

/-- How many matches are needed has no influence on the rounds. -/
theorem Iterates.exists_owing {blamed : Grammar σ} {round : Config σ → Verdict → Config σ → Prop}
    (h : env.Iterates blamed round owed c verdict d) (owed' : Nat) :
    ∃ verdict', env.Iterates blamed round owed' c verdict' d := by
  induction h generalizing owed' with
  | missed h hstayed => exact ⟨_, .missed h hstayed⟩
  | empty h hstayed => exact ⟨_, .empty h hstayed⟩
  | moved h hmoved _ ih =>
      obtain ⟨verdict', hrest⟩ := ih (owed' - 1)
      exact ⟨verdict', .moved h hmoved hrest⟩
  | consumed h hmoved he => exact ⟨_, .consumed h hmoved he⟩
  | failed h => exact ⟨_, .failed h⟩

theorem ResultsIn.ne_mismatched_of_many (h : env.ResultsIn (.many item) c verdict d) :
    verdict ≠ .mismatched := by
  obtain ⟨_ | n, records, hn⟩ := h
  · cases hn
  · exact (env.neverMismatches_iterate_zero item n c).of_eq_ok hn

theorem doesRounds_many (env : Environment σ) (item : Grammar σ) :
    env.DoesRounds item (.many item) :=
  ⟨.inl, fun h => ⟨_, _, h⟩⟩

theorem halts_repetition (atLeast : Nat) (h : ∀ d, Halts fun n => env.run n item d)
    (c : Config σ) : Halts fun n => env.run n (.repetition atLeast item) c :=
  .of_succ <| env.halts_iterate (env.growing_run item) (fun n => env.orderly_run n item) item
    atLeast fun d _ => h d

end Environment

section Rules

variable (hrules : ∀ name body, rules name → env.store.body? name = some body →
  body.IsRecognizer rules)

include hrules

theorem Grammar.IsRecognizer.component (hg : g.IsRecognizer rules)
    (hq : q ∈ env.store.components g) : q.IsRecognizer rules := by
  cases g with
  | accept _ | expect _ | literal _ | pattern _ _ | succeed | fail => cases hq
  | sequence a b | choice a b =>
      have hq' : q = a ∨ q = b := by simpa [Store.components, writtenParts] using hq
      exact hq'.elim (· ▸ hg.1) (· ▸ hg.2)
  | handle slot => exact hrules (.slot slot) q hg (Option.mem_toList.1 hq)
  | fixed hold name rule => exact hrules (.fixed rule) q hg (Option.mem_toList.1 hq)
  | sepBy _ _ | discard _ | except _ _ _ | token _ | all _ _ _ | any _ _ _ => exact hg.elim
  | _ =>
      obtain rfl := List.mem_singleton.1 hq
      exact hg

theorem Grammar.IsRecognizer.actless (hg : g.IsRecognizer rules) : env.store.Actless g := by
  intro q hq
  have hq' : q.IsRecognizer rules := by
    induction hq with
    | refl => exact hg
    | tail _ hcomponent ih => exact ih.component hrules hcomponent
  cases q with
  | all _ _ _ | any _ _ _ => exact hq'.elim
  | _ => exact not_false

namespace Environment

/-- A recognizer that ends where it began has changed nothing. -/
theorem ResultsIn.eq_of_stayed (hg : g.IsRecognizer rules) (h : env.ResultsIn g c verdict d)
    (hstayed : d.cursor.offset = c.cursor.offset) : d = c := by
  have hcursor : d.cursor = c.cursor := h.onward.eq_of_offset_eq hstayed
  obtain ⟨n, records, hn⟩ := h
  have hcopies : c.CopiesTo d := (copies_run hrules n hg c).of_eq_ok hn
  have hslot : d.slot = c.slot := hcopies.slot_of_cursor_eq hcursor
  have hstate : d.state = c.state := env.state_eq_of_actless (hg.actless hrules) hn
  cases c
  cases d
  cases hcursor
  cases hslot
  cases hstate
  rfl

/-- Where iterations of a recognizer have come to an end, the recognizer rests. -/
theorem Iterates.rests (hitem : item.IsRecognizer rules)
    (h : env.Iterates item (env.ResultsIn item) owed c verdict d)
    (hverdict : ∀ e, verdict ≠ .failed e) : env.Rests item d := by
  induction h with
  | missed h hstayed =>
      obtain rfl := h.eq_of_stayed hrules hitem hstayed
      exact .inl h
  | empty h hstayed =>
      obtain rfl := h.eq_of_stayed hrules hitem hstayed
      exact .inr h
  | moved _ _ _ ih => exact ih hverdict
  | consumed _ _ _ => exact absurd rfl (hverdict _)
  | failed _ => exact absurd rfl (hverdict _)

theorem doesRounds_manyOne (hitem : item.IsRecognizer rules) :
    env.DoesRounds item (.manyOne item) := by
  constructor
  · intro c verdict d h
    rw [resultsIn_repetition_iff] at h
    simp only [Grammar.manyOne, resultsIn_repetition_iff]
    cases h with
    | missed h hstayed =>
        obtain rfl := h.eq_of_stayed hrules hitem hstayed
        exact .inr ⟨.missed h rfl, rfl, rfl⟩
    | empty h hstayed => exact .inl (.empty h hstayed)
    | moved h hmoved hrest => exact .inl (.moved h hmoved hrest)
    | consumed h hmoved he => exact .inl (.consumed h hmoved he)
    | failed h => exact .inl (.failed h)
  · intro c verdict d h
    obtain ⟨verdict', hmany⟩ := (resultsIn_repetition_iff.1 h).exists_owing 0
    exact ⟨verdict', d, resultsIn_repetition_iff.2 hmany⟩

/-- The first round does all there is to do, and the second one, if there is one, rests. -/
theorem DoesRounds.resultsIn_many (hround : env.DoesRounds item round)
    (hitem : item.IsRecognizer rules) (h : env.ResultsIn (.many item) c verdict d) :
    env.ResultsIn (.many round) c verdict d := by
  have hdone := hround.results h
  cases verdict with
  | mismatched => exact absurd rfl h.ne_mismatched_of_many
  | failed e =>
      obtain hfirst | ⟨-, hverdict, -⟩ := hdone
      · exact resultsIn_repetition_iff.2 (.failed hfirst)
      · cases hverdict
  | matched =>
      have hrests : env.Rests item d :=
        (resultsIn_repetition_iff.1 h).rests hrules hitem fun e he => nomatch he
      have hlater : env.ResultsIn (.many round) d .matched d := by
        obtain hagain | ⟨hagain, -, -⟩ := hround.results hrests.many
        · exact Rests.many (.inr hagain)
        · exact Rests.many (.inl hagain)
      obtain hfirst | ⟨-, -, rfl⟩ := hdone
      · by_cases hstayed : d.cursor.offset = c.cursor.offset
        · exact resultsIn_repetition_iff.2 (.empty hfirst hstayed)
        · exact resultsIn_repetition_iff.2
            (.moved hfirst hstayed (resultsIn_repetition_iff.1 hlater))
      · exact hlater

theorem DoesRounds.resultsIn_many_iff (hround : env.DoesRounds item round)
    (hitem : item.IsRecognizer rules) :
    env.ResultsIn (.many round) c verdict d ↔ env.ResultsIn (.many item) c verdict d := by
  constructor
  · intro h
    obtain ⟨verdict₁, d₁, hfirst⟩ := (resultsIn_repetition_iff.1 h).exists_first
    obtain ⟨verdict₂, d₂, hmany⟩ := hround.ends hfirst
    obtain ⟨rfl, rfl⟩ := h.unique (hround.resultsIn_many hrules hitem hmany)
    exact hmany
  · exact hround.resultsIn_many hrules hitem

end Environment

end Rules

namespace Environment

/-- A repetition of a repetition of a recognizer results in what the repetition results in, be the
inner one of zero or more or of one or more items. If no run of the recognizer goes on for ever,
then none of theirs does. -/
theorem nested_repetitions_collapse
    (hrules : ∀ name body, rules name → env.store.body? name = some body →
      body.IsRecognizer rules)
    (item : Grammar σ) (hitem : item.IsRecognizer rules) (c : Config σ) :
    (∀ verdict d,
      (env.ResultsIn (.many (.many item)) c verdict d ↔ env.ResultsIn (.many item) c verdict d) ∧
      (env.ResultsIn (.many (.manyOne item)) c verdict d ↔
        env.ResultsIn (.many item) c verdict d)) ∧
    ((∀ d, Halts fun n => env.run n item d) →
      (Halts fun n => env.run n (.many (.many item)) c) ∧
      Halts fun n => env.run n (.many (.manyOne item)) c) := by
  refine ⟨fun verdict d => ⟨?_, ?_⟩, fun hhalts => ⟨?_, ?_⟩⟩
  · exact (doesRounds_many env item).resultsIn_many_iff hrules hitem
  · exact (doesRounds_manyOne hrules hitem).resultsIn_many_iff hrules hitem
  · exact halts_repetition 0 (halts_repetition 0 hhalts) c
  · exact halts_repetition 0 (halts_repetition 1 hhalts) c

/-- A rule that is kept in a slot takes the first two of its items and then overruns. -/
theorem nested_repetitions_collapse_overrun :
    let rule : Grammar Nat := .sequence (.accept (.symbol 'é')) (.accept (.symbol 'b'))
    let item : Grammar Nat := .handle ⟨0, 0⟩
    let env : Environment Nat := ⟨⟨⟨[some [some (.rule rule)]]⟩, []⟩, .off⟩
    let rules : RuleName → Prop := (· = .slot ⟨0, 0⟩)
    let c : Config Nat := ⟨.ofInput ['é', 'b', 'é', 'b', 'é', 'c'], some (.text "v"), 0⟩
    (∀ name body, rules name → env.store.body? name = some body → body.IsRecognizer rules) ∧
      item.IsRecognizer rules ∧ (∀ d, Halts fun n => env.run n item d) ∧
      (Halts fun n => env.run n (.many (.many item)) c) ∧ ∃ e d,
        env.ResultsIn (.many (.many item)) c (.failed e) d ∧
        env.ResultsIn (.many (.manyOne item)) c (.failed e) d ∧
        e.kind = .consumed ∧ e.column = 6 ∧ d.slot = some (.text "vébébé") := by
  intro rule item env rules c
  have hrules : ∀ name body, rules name → env.store.body? name = some body →
      body.IsRecognizer rules := by
    rintro name body rfl hbody
    obtain rfl : rule = body := Option.some.inj hbody
    exact ⟨trivial, trivial⟩
  have hhalts (d : Config Nat) : Halts fun n => env.run n item d :=
    ⟨3, finishes_andThen fun _ => .ok _⟩
  obtain ⟨hresults, hends⟩ := nested_repetitions_collapse hrules item rfl c
  have hmany : env.ResultsIn (.many item) c _ _ := ⟨9, _, rfl⟩
  exact ⟨hrules, rfl, hhalts, (hends hhalts).1, _, _, (hresults _ _).1.2 hmany,
    (hresults _ _).2.2 hmany, rfl, rfl, rfl⟩

end Environment

end Recognizers

end ParserAlgebra
