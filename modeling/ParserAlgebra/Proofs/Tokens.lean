import ParserAlgebra.Proofs.Derivation
import ParserAlgebra.Proofs.Repetition
import ParserAlgebra.Proofs.Tokenwise

/-!
# The whitespace behind a token

A token is its rule and, after a match, the whitespace that follows, all of it and nothing else. So
it is the rule in sequence with what skips the whitespace before a first token, and a token of a
token is the token.
-/

namespace ParserAlgebra

variable {σ : Type}

/-- What passes a test comes to an end before the first symbol that does not. -/
theorem Cursor.exists_skipWhile (test : Char → Bool) (c : Cursor) :
    ∃ passed rest, c.ahead = passed ++ rest ∧ (∀ s ∈ passed, test s = true) ∧
      (∀ s ∈ rest.head?, test s = false) ∧
        c.skipWhile test = { c with place := ⟨c.position.pastAll passed, rest⟩ } := by
  obtain ⟨passed, hahead, hpassed⟩ := Place.exists_passed_skipWhile test c.position c.ahead
  obtain ⟨taken, htaken, hposition⟩ := (c.onward_skipWhile test).place
  obtain rfl : taken = passed := List.append_cancel_right (htaken.symm.trans hahead)
  refine ⟨taken, (c.skipWhile test).ahead, hahead, hpassed, fun s hs => ?_, ?_⟩
  · have hhead := List.head?_dropWhile_not test c.ahead
    rw [ahead_skipWhile, Option.mem_def] at hs
    rw [hs] at hhead
    simpa using hhead
  · let behind (position : Position) : Cursor :=
      { c with place := ⟨position, (c.skipWhile test).ahead⟩ }
    exact congrArg behind hposition

theorem Cursor.skipWhile_skipWhile (test : Char → Bool) (c : Cursor) :
    (c.skipWhile test).skipWhile test = c.skipWhile test := by
  obtain ⟨passed, rest, -, -, hrest, hskip⟩ := c.exists_skipWhile test
  rw [hskip]
  exact skipWhile_of_head hrest

/-- Skips the whitespace behind a match. -/
def Outcome.pastBlanks (o : Outcome σ) : Outcome σ :=
  match o.verdict with
  | .matched => { o with config.cursor := o.config.cursor.skipWhile Unicode.isBlank }
  | _ => o

namespace Outcome

variable {o : Outcome σ}

theorem pastBlanks_of_matched (h : o.verdict = .matched) :
    o.pastBlanks =
      { o with config.cursor := o.config.cursor.skipWhile Unicode.isBlank } := by
  rw [pastBlanks, h]

theorem pastBlanks_of_not_matched (h : o.verdict ≠ .matched) : o.pastBlanks = o := by
  unfold pastBlanks
  split
  · exact absurd ‹_› h
  · rfl

theorem pastBlanks_pastBlanks (o : Outcome σ) : o.pastBlanks.pastBlanks = o.pastBlanks := by
  by_cases h : o.verdict = .matched
  · rw [pastBlanks_of_matched h, pastBlanks_of_matched (by exact h), Cursor.skipWhile_skipWhile]
  · rw [pastBlanks_of_not_matched h, pastBlanks_of_not_matched h]

end Outcome

namespace Environment

variable {env : Environment σ} {g item : Grammar σ} {c : Config σ} {o o' : Outcome σ}

theorem run_token (env : Environment σ) (n : Nat) (item : Grammar σ) (c : Config σ) :
    env.run (n + 1) (.token item) c = (env.run n item c).map Outcome.pastBlanks := by
  rw [run, runLevel]
  cases env.run n item c with
  | error stop => rfl
  | ok o =>
      obtain ⟨verdict, config, records⟩ := o
      cases verdict with
      | matched =>
          change Except.ok _ = Except.ok _
          simp [Outcome.after, Config.matched, Outcome.pastBlanks]
      | mismatched | failed e => rfl

theorem yields_token_iff :
    env.Yields (.token item) c o' ↔ ∃ o, env.Yields item c o ∧ o' = o.pastBlanks := by
  constructor
  · rintro ⟨_ | n, hn⟩
    · cases hn
    · rw [run_token] at hn
      obtain ⟨o, ho, rfl⟩ := exists_of_map_eq_ok hn
      exact ⟨o, ⟨n, ho⟩, rfl⟩
  · rintro ⟨o, ⟨n, hn⟩, rfl⟩
    refine ⟨n + 1, ?_⟩
    rw [run_token, hn]
    rfl

theorem yields_sequence_firstToken_iff :
    env.Yields (.sequence item .firstToken) c o' ↔
      ∃ o, env.Yields item c o ∧ o' = o.pastBlanks := by
  have hsequence (o : Outcome σ) (ho : env.Yields item c o) :
      env.Yields (.sequence item .firstToken) c o.pastBlanks := by
    by_cases h : o.verdict = .matched
    · have hskipped := yields_sequence ho h (env.yields_firstToken o.config)
      obtain ⟨verdict, config, records⟩ := o
      cases h
      simpa [Outcome.after, Config.matched, Outcome.pastBlanks] using hskipped
    · rw [Outcome.pastBlanks_of_not_matched h]
      exact yields_sequence_of_not_matched ho h _
  constructor
  · intro h
    obtain ⟨o, ho⟩ := h.exists_first
    exact ⟨o, ho, h.unique (hsequence o ho)⟩
  · rintro ⟨o, ho, rfl⟩
    exact hsequence o ho

theorem yields_token_token_iff :
    env.Yields (.token (.token item)) c o ↔ env.Yields (.token item) c o := by
  rw [yields_token_iff]
  constructor
  · rintro ⟨first, hfirst, rfl⟩
    obtain ⟨o, ho, rfl⟩ := yields_token_iff.1 hfirst
    rw [Outcome.pastBlanks_pastBlanks]
    exact hfirst
  · intro h
    obtain ⟨first, -, rfl⟩ := yields_token_iff.1 h
    exact ⟨_, h, first.pastBlanks_pastBlanks.symm⟩

/-- A token yields what its rule yields in sequence with the whitespace before a first token: the
same verdict, errors included, and the same configuration. After a match of the rule it has passed
the whitespace up to the first symbol that is none, or to the end of the input; any other outcome of
the rule is the outcome of the token. A token of a token is the token. -/
theorem token_behaves_as_sequence (env : Environment σ) (item : Grammar σ) (c : Config σ) :
    (∀ o, env.Yields (.token item) c o ↔ env.Yields (.sequence item .firstToken) c o) ∧
    (∀ o, env.Yields item c o → o.verdict = .matched →
      ∃ blanks rest, o.config.cursor.ahead = blanks ++ rest ∧
        (∀ s ∈ blanks, Unicode.isBlank s = true) ∧ (∀ s ∈ rest.head?, Unicode.isBlank s = false) ∧
        env.Yields (.token item) c
          { o with config.cursor.place := ⟨o.config.cursor.position.pastAll blanks, rest⟩ }) ∧
    (∀ o, env.Yields item c o → o.verdict ≠ .matched → env.Yields (.token item) c o) ∧
    ∀ o, env.Yields (.token (.token item)) c o ↔ env.Yields (.token item) c o := by
  refine ⟨fun o => ?_, fun o ho h => ?_, fun o ho h => ?_, fun o => yields_token_token_iff⟩
  · rw [yields_token_iff, yields_sequence_firstToken_iff]
  · obtain ⟨blanks, rest, hahead, hblanks, hrest, hskip⟩ :=
      o.config.cursor.exists_skipWhile Unicode.isBlank
    refine ⟨blanks, rest, hahead, hblanks, hrest, yields_token_iff.2 ⟨o, ho, ?_⟩⟩
    rw [Outcome.pastBlanks_of_matched h, hskip]
  · exact yields_token_iff.2 ⟨o, ho, (Outcome.pastBlanks_of_not_matched h).symm⟩

/-- A number on the second row, with whitespace of several kinds and a line feed behind it; and the
same rule where that whitespace begins. -/
theorem token_behaves_as_sequence_number :
    let number : Grammar Nat := .manyOne (.accept (.ofClass .digit))
    let env : Environment Nat := ⟨.empty, .off⟩
    let input := ['\n', '4', '2', '\u00A0', '\n', '\u3000', '+']
    let c : Config Nat := ⟨(Cursor.ofInput input).advance, some (.text ""), 0⟩
    let taken : Outcome Nat := ⟨.matched, ⟨c.cursor.advanceTo 3, some (.text "42"), 0⟩, []⟩
    let o : Outcome Nat :=
      { taken with config.cursor := { c.cursor with place := ⟨⟨9, 3, 2, 6⟩, ['+']⟩ } }
    let c' : Config Nat := { c with cursor := c.cursor.advanceTo 3 }
    env.Yields number c taken ∧ taken.verdict = .matched ∧
      (∃ blanks rest, ['\u00A0', '\n', '\u3000', '+'] = blanks ++ rest ∧
        (∀ s ∈ blanks, Unicode.isBlank s = true) ∧ (∀ s ∈ rest.head?, Unicode.isBlank s = false) ∧
        env.Yields (.token number) c
          { taken with config.cursor.place := ⟨(⟨3, 2, 3, 1⟩ : Position).pastAll blanks, rest⟩ }) ∧
      env.Yields (.sequence number .firstToken) c o ∧ env.Yields (.token (.token number)) c o ∧
      env.Yields number c' c'.mismatched ∧ env.Yields (.token number) c' c'.mismatched := by
  intro number env input c taken o c'
  have htaken : env.Yields number c taken := ⟨5, rfl⟩
  have ho : env.Yields (.token number) c o := ⟨6, rfl⟩
  have hnone : env.Yields number c' c'.mismatched := ⟨5, rfl⟩
  obtain ⟨hsequence, hskips, -, htoken⟩ := env.token_behaves_as_sequence number c
  obtain ⟨-, -, hkeeps, -⟩ := env.token_behaves_as_sequence number c'
  exact ⟨htaken, rfl, hskips taken htaken rfl, (hsequence o).1 ho, (htoken o).2 ho, hnone,
    hkeeps _ hnone (by decide)⟩

end Environment

end ParserAlgebra
