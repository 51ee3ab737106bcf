import ParserAlgebra.Proofs.Halting
import ParserAlgebra.Proofs.Presence

/-!
# What runs result in

Apart from the records that it makes, a run results in a verdict and a configuration. For each way
of putting grammars together, what the whole results in is told from what the parts result in, both
ways; bounds on nesting play no role. Iterations are told by their rounds, in `Iterates`.
-/

namespace ParserAlgebra

variable {σ α β : Type}

section Except

variable {r : Except Stop α} {b : β}

theorem exists_of_bind_eq_ok {next : α → Except Stop β} (h : r >>= next = .ok b) :
    ∃ a, r = .ok a ∧ next a = .ok b := by
  cases r with
  | ok a => exact ⟨a, rfl, h⟩
  | error stop => cases h

theorem exists_of_map_eq_ok {f : α → β} (h : r.map f = .ok b) : ∃ a, r = .ok a ∧ f a = b := by
  cases r with
  | ok a => exact ⟨a, rfl, Except.ok.inj h⟩
  | error stop => cases h

end Except

/-- Under some bound, a computation comes to an end with a verdict and a configuration. -/
def ComesOut (f : Nat → Except Stop (Outcome σ)) (verdict : Verdict) (config : Config σ) : Prop :=
  ∃ n records, f n = .ok ⟨verdict, config, records⟩

namespace ComesOut

variable {f : Nat → Except Stop (Outcome σ)} {verdict verdict' : Verdict} {d d' : Config σ}

theorem of_eq {n : Nat} {o : Outcome σ} (h : f n = .ok o) : ComesOut f o.verdict o.config :=
  ⟨n, o.records, h⟩

theorem congr {f' : Nat → Except Stop (Outcome σ)} (h : ∀ n, f n = f' n) :
    ComesOut f verdict d ↔ ComesOut f' verdict d := by
  simp only [ComesOut, h]

/-- A computation that comes to nothing without a bound may as well use up one. -/
theorem succ_iff (h : f 0 = .error .nestingLimit) :
    ComesOut f verdict d ↔ ComesOut (fun n => f (n + 1)) verdict d := by
  constructor
  · rintro ⟨_ | n, records, hn⟩
    · cases h.symm.trans hn
    · exact ⟨n, records, hn⟩
  · rintro ⟨n, records, hn⟩
    exact ⟨n + 1, records, hn⟩

theorem unique (hf : Growing f) (h : ComesOut f verdict d) (h' : ComesOut f verdict' d') :
    verdict = verdict' ∧ d = d' := by
  obtain ⟨n, records, hn⟩ := h
  obtain ⟨m, records', hm⟩ := h'
  have hn' := (hf n _ (Nat.le_max_left n m)).eq_ok hn
  have hm' := (hf m _ (Nat.le_max_right n m)).eq_ok hm
  cases hn'.symm.trans hm'
  exact ⟨rfl, rfl⟩

/-- What is done after a match goes on from where the match ended; another verdict stands. -/
theorem andThen_iff {next : Nat → Step σ} (hf : Growing f)
    (hnext : ∀ c, Growing fun n => next n c) :
    ComesOut (fun n => f n >>= fun o => o.andThen (next n)) verdict d ↔
      (∃ e, ComesOut f .matched e ∧ ComesOut (fun n => next n e) verdict d) ∨
        verdict ≠ .matched ∧ ComesOut f verdict d := by
  constructor
  · rintro ⟨n, records, hn⟩
    obtain ⟨o, hfirst, hn⟩ := exists_of_bind_eq_ok hn
    by_cases hmatched : o.verdict = .matched
    · rw [Outcome.andThen_of_matched hmatched] at hn
      obtain ⟨rest, hrest, hn⟩ := exists_of_map_eq_ok hn
      cases hn
      exact .inl ⟨o.config, hmatched ▸ of_eq hfirst, n, rest.records, hrest⟩
    · rw [Outcome.andThen_of_not_matched hmatched] at hn
      cases hn
      exact .inr ⟨hmatched, n, records, hfirst⟩
  · rintro (⟨e, ⟨n, records, hn⟩, m, records', hm⟩ | ⟨hverdict, n, records, hn⟩)
    · refine ⟨max n m, records ++ records', ?_⟩
      have hrest : next (max n m) e = .ok ⟨verdict, d, records'⟩ :=
        (hnext e m _ (Nat.le_max_right n m)).eq_ok hm
      dsimp only
      rw [(hf n _ (Nat.le_max_left n m)).eq_ok hn]
      change (next (max n m) e).map _ = _
      rw [hrest]
      rfl
    · refine ⟨n, records, ?_⟩
      beta_reduce
      rw [hn]
      exact Outcome.andThen_of_not_matched hverdict

/-- Putting another slot in place changes nothing but the slot. -/
theorem withSlot_iff {slot : Option Value} :
    ComesOut (fun n => (f n).map (·.withSlot slot)) verdict d ↔
      d.slot = slot ∧ ∃ left, ComesOut f verdict { d with slot := left } := by
  constructor
  · rintro ⟨n, records, hn⟩
    obtain ⟨o, hr, ho⟩ := exists_of_map_eq_ok hn
    cases ho
    exact ⟨rfl, o.config.slot, n, o.records, hr⟩
  · rintro ⟨rfl, left, n, records, hn⟩
    refine ⟨n, records, ?_⟩
    beta_reduce
    rw [hn]
    rfl

end ComesOut

namespace Environment

/-- The error `e` is one of the grammar `g`, for a run that began at `start` and has come to a
cursor. It is located at `reported`. -/
structure Blames (env : Environment σ) (g : Grammar σ) (kind : ErrorKind) (message : String)
    (start reported : Position) (cursor : Cursor) (e : ParseError) : Prop where
  kind : e.kind = kind
  message : e.message = message
  row : e.row = reported.row
  column : e.column = reported.column
  span : e.span = ⟨start.offset, cursor.offset⟩
  found : cursor.symbolAt reported.offset = .ok e.found
  excerpt : cursor.excerpt start reported = .ok e.excerpt
  expectation : env.expectationOf g = .ok e.expectation

section Blames

variable {env : Environment σ} {g g' : Grammar σ} {kind : ErrorKind} {message : String}
  {start reported : Position} {cursor : Cursor} {e : ParseError}

theorem blames_iff_locate {x : Expectation} (hx : env.expectationOf g = .ok x) :
    env.Blames g kind message start reported cursor e ↔
      ParseError.locate kind message x start reported cursor = .ok e := by
  constructor
  · intro h
    have hexpectation : x = e.expectation := Except.ok.inj (hx.symm.trans h.expectation)
    obtain ⟨rfl, rfl, hrow, hcolumn, hspan, hfound, hexcerpt, -⟩ := h
    rw [ParseError.locate, hfound, hexcerpt, hexpectation, ← hrow, ← hcolumn, Cursor.spanFrom,
      ← hspan]
    rfl
  · intro h
    obtain ⟨found, excerpt, hfound, hexcerpt, rfl⟩ := ParseError.eq_of_locate h
    exact ⟨rfl, rfl, rfl, rfl, rfl, hfound, hexcerpt, hx⟩

/-- An error about genuine places can always be made. -/
theorem exists_blames (env : Environment σ) (g : Grammar σ) (kind : ErrorKind) (message : String)
    {p q : Place} (hp : p.IsGenuine cursor.input) (hq : q.IsGenuine cursor.input) :
    ∃ e, env.Blames g kind message p.position q.position cursor e := by
  obtain ⟨x, hx⟩ := env.exists_expectationOf g
  obtain ⟨e, he⟩ := ParseError.exists_locate hp hq kind message x
  exact ⟨e, (blames_iff_locate hx).2 he⟩

/-- With another grammar to blame, the error is the same but for what was expected. -/
theorem Blames.exists_other (h : env.Blames g kind message start reported cursor e)
    (g' : Grammar σ) : ∃ e', env.Blames g' kind message start reported cursor e' ∧
      e' = { e with expectation := e'.expectation } := by
  obtain ⟨x, hx⟩ := env.exists_expectationOf g'
  obtain ⟨hkind, hmessage, hrow, hcolumn, hspan, hfound, hexcerpt, -⟩ := h
  exact ⟨{ e with expectation := x },
    ⟨hkind, hmessage, hrow, hcolumn, hspan, hfound, hexcerpt, hx⟩, rfl⟩

theorem raise_eq_ok_iff {x : Expectation} (hx : env.expectationOf g = .ok x) {c : Config σ}
    {o : Outcome σ} : env.raise kind message x start reported c = .ok o ↔
      ∃ e, env.Blames g kind message start reported c.cursor e ∧
        o = ⟨.failed e, c, env.verbosity.record .debug e.summary⟩ := by
  rw [raise]
  simp only [blames_iff_locate hx]
  cases ParseError.locate kind message x start reported c.cursor with
  | error f =>
      constructor
      · intro h
        cases h
      · rintro ⟨e, he, -⟩
        cases he
  | ok e =>
      constructor
      · intro h
        cases h
        exact ⟨e, rfl, rfl⟩
      · rintro ⟨_, he, rfl⟩
        cases he
        rfl

theorem raiseFor_eq_ok_iff {c : Config σ} {o : Outcome σ} :
    env.raiseFor kind message g start c = .ok o ↔
      ∃ e, env.Blames g kind message start c.cursor.position c.cursor e ∧
        o = ⟨.failed e, c, env.verbosity.record .debug e.summary⟩ := by
  obtain ⟨x, hx⟩ := env.exists_expectationOf g
  rw [raiseFor, hx]
  exact raise_eq_ok_iff hx

end Blames

/-- The rounds of an iteration, up to one that does not match or matches in place, and what the
iteration results in. `owed` is the number of matches that are still needed. -/
inductive Iterates (env : Environment σ) (blamed : Grammar σ)
    (round : Config σ → Verdict → Config σ → Prop) :
    Nat → Config σ → Verdict → Config σ → Prop
  | missed {owed : Nat} {c d : Config σ} (h : round c .mismatched d)
      (hstayed : d.cursor.offset = c.cursor.offset) :
      Iterates env blamed round owed c (if owed = 0 then .matched else .mismatched) d
  | empty {owed : Nat} {c d : Config σ} (h : round c .matched d)
      (hstayed : d.cursor.offset = c.cursor.offset) :
      Iterates env blamed round owed c (if owed ≤ 1 then .matched else .mismatched) d
  | moved {owed : Nat} {c d e : Config σ} {verdict : Verdict} (h : round c .matched d)
      (hmoved : d.cursor.offset ≠ c.cursor.offset)
      (hrest : Iterates env blamed round (owed - 1) d verdict e) :
      Iterates env blamed round owed c verdict e
  | consumed {owed : Nat} {c d : Config σ} {e : ParseError} (h : round c .mismatched d)
      (hmoved : d.cursor.offset ≠ c.cursor.offset)
      (he : env.Blames blamed .consumed iterationConsumed c.cursor.position d.cursor.position
        d.cursor e) : Iterates env blamed round owed c (.failed e) d
  | failed {owed : Nat} {c d : Config σ} {e : ParseError} (h : round c (.failed e) d) :
      Iterates env blamed round owed c (.failed e) d

section Iterate

variable {env : Environment σ} {step : Nat → Step σ} {blamed : Grammar σ} {owed : Nat}
  {c d : Config σ} {verdict : Verdict}

theorem iterate_of_consumed {step : Step σ} {n : Nat} {o : Outcome σ} (ho : step c = .ok o)
    (h : o.verdict = .mismatched) (hmoved : o.config.cursor.offset ≠ c.cursor.offset) :
    env.iterate blamed step (n + 1) owed c =
      (env.raiseFor .consumed iterationConsumed blamed c.cursor.position o.config).map
        (·.after o.records) := by
  rw [iterate, ho]
  dsimp only [bind, Except.bind]
  rw [h]
  dsimp only
  rw [orElse, h]
  exact if_pos hmoved

theorem iterate_of_failed {step : Step σ} {n : Nat} {o : Outcome σ} {e : ParseError}
    (ho : step c = .ok o) (h : o.verdict = .failed e) :
    env.iterate blamed step (n + 1) owed c = .ok o := by
  rw [iterate, ho]
  dsimp only [bind, Except.bind]
  rw [h]
  dsimp only
  exact orElse_of_not_mismatched (by simp [h]) _ _ _

theorem iterates_of_iterate {k n : Nat} {o : Outcome σ}
    (h : env.iterate blamed (step k) n owed c = .ok o) :
    env.Iterates blamed (fun c => ComesOut fun n => step n c) owed c o.verdict o.config := by
  induction n generalizing owed c o with
  | zero => cases h
  | succ n ih =>
      obtain ⟨first, hround, -⟩ := exists_of_bind_eq_ok h
      have hfirst : ComesOut (fun n => step n c) first.verdict first.config := .of_eq hround
      cases hverdict : first.verdict with
      | matched =>
          rw [hverdict] at hfirst
          by_cases hstayed : first.config.cursor.offset = c.cursor.offset
          · rw [iterate_of_empty hround hverdict hstayed] at h
            cases h
            exact .empty hfirst hstayed
          · rw [iterate_of_moved hround hverdict hstayed] at h
            obtain ⟨rest, hrest, rfl⟩ := exists_of_map_eq_ok h
            have hlater := ih hrest
            exact .moved hfirst hstayed hlater
      | mismatched =>
          rw [hverdict] at hfirst
          by_cases hstayed : first.config.cursor.offset = c.cursor.offset
          · rw [iterate_of_mismatched hround hverdict hstayed] at h
            cases h
            have hmissed : env.Iterates blamed (fun c => ComesOut fun n => step n c) owed c
                (if owed = 0 then .matched else .mismatched) first.config :=
              .missed hfirst hstayed
            by_cases howed : owed = 0
            · rwa [if_pos howed] at hmissed ⊢
            · rwa [if_neg howed] at hmissed ⊢
          · rw [iterate_of_consumed hround hverdict hstayed] at h
            obtain ⟨raised, hraise, rfl⟩ := exists_of_map_eq_ok h
            obtain ⟨e, he, rfl⟩ := raiseFor_eq_ok_iff.1 hraise
            exact .consumed hfirst hstayed he
      | failed e =>
          rw [hverdict] at hfirst
          rw [iterate_of_failed hround hverdict] at h
          cases h
          rw [hverdict]
          exact .failed hfirst

/-- Each round needs a bound of its own; the largest of them is enough for all. -/
theorem exists_iterate_of_iterates (hstep : ∀ c, Growing fun n => step n c)
    (h : env.Iterates blamed (fun c => ComesOut fun n => step n c) owed c verdict d) :
    ∃ k n records, env.iterate blamed (step k) n owed c = .ok ⟨verdict, d, records⟩ := by
  induction h with
  | @missed owed c d h hstayed =>
      obtain ⟨k, records, hk⟩ := h
      refine ⟨k, 1, records, ?_⟩
      rw [iterate_of_mismatched hk rfl hstayed]
      by_cases howed : owed = 0
      · rw [if_pos howed, if_pos howed]
        simp [Config.matched, Outcome.after]
      · rw [if_neg howed, if_neg howed]
        simp [Config.mismatched, Outcome.after]
  | empty h hstayed =>
      obtain ⟨k, records, hk⟩ := h
      exact ⟨k, 1, records, iterate_of_empty hk rfl hstayed⟩
  | @moved owed c d e verdict h hmoved hrest ih =>
      obtain ⟨k, records, hk⟩ := h
      obtain ⟨k', n, records', hrest⟩ := ih
      have hround : step (max k k') c = .ok ⟨.matched, d, records⟩ :=
        (hstep c k _ (Nat.le_max_left k k')).eq_ok hk
      have hcontinued := env.continuedBy_iterate blamed
        (fun c => hstep c k' _ (Nat.le_max_right k k')) (Nat.le_refl n) (owed - 1) d
      refine ⟨max k k', n + 1, records ++ records', ?_⟩
      rw [iterate_of_moved hround rfl hmoved, hcontinued.eq_ok hrest]
      rfl
  | @consumed owed c d e h hmoved he =>
      obtain ⟨k, records, hk⟩ := h
      refine ⟨k, 1, records ++ env.verbosity.record .debug e.summary, ?_⟩
      rw [iterate_of_consumed hk rfl hmoved, raiseFor_eq_ok_iff.2 ⟨_, he, rfl⟩]
      rfl
  | failed h =>
      obtain ⟨k, records, hk⟩ := h
      exact ⟨k, 1, records, iterate_of_failed hk rfl⟩

theorem comesOut_iterate_iff (hstep : ∀ c, Growing fun n => step n c) :
    ComesOut (fun n => env.iterate blamed (step n) n owed c) verdict d ↔
      env.Iterates blamed (fun c => ComesOut fun n => step n c) owed c verdict d := by
  constructor
  · rintro ⟨n, records, hn⟩
    exact iterates_of_iterate hn
  · intro h
    obtain ⟨k, n, records, hn⟩ := exists_iterate_of_iterates hstep h
    have hcontinued := env.continuedBy_iterate blamed
      (fun c => hstep c k _ (Nat.le_max_left k n)) (Nat.le_max_right k n) owed c
    exact ⟨max k n, records, hcontinued.eq_ok hn⟩

end Iterate

/-- A run of a grammar from a configuration comes to an end with a verdict and a configuration. -/
abbrev ResultsIn (env : Environment σ) (g : Grammar σ) (c : Config σ) :
    Verdict → Config σ → Prop :=
  ComesOut fun n => env.run n g c

variable {env : Environment σ} {a b g item separator : Grammar σ} {c d : Config σ}
  {verdict : Verdict}

theorem resultsIn_iff : env.ResultsIn g c verdict d ↔
    ∃ records, env.Yields g c ⟨verdict, d, records⟩ :=
  exists_comm

theorem Yields.resultsIn {o : Outcome σ} (h : env.Yields g c o) :
    env.ResultsIn g c o.verdict o.config :=
  resultsIn_iff.2 ⟨o.records, h⟩

namespace ResultsIn

theorem unique {verdict' : Verdict} {d' : Config σ} (h : env.ResultsIn g c verdict d)
    (h' : env.ResultsIn g c verdict' d') : verdict = verdict' ∧ d = d' :=
  ComesOut.unique (env.growing_run g c) h h'

theorem onward (h : env.ResultsIn g c verdict d) : c.cursor.Onward d.cursor := by
  obtain ⟨n, records, hn⟩ := h
  exact (env.orderly_run n g c).of_eq_ok hn

/-- What is left in a fresh slot is a value. -/
theorem exists_value {kind : Kind}
    (h : env.ResultsIn g { c with slot := some kind.default } verdict d) :
    ∃ v, d.slot = some v := by
  obtain ⟨records, h⟩ := resultsIn_iff.1 h
  exact h.exists_value

end ResultsIn

theorem resultsIn_succeed_iff :
    env.ResultsIn .succeed c verdict d ↔ verdict = .matched ∧ d = c := by
  constructor
  · rintro ⟨_ | n, records, hn⟩
    · cases hn
    · cases hn
      exact ⟨rfl, rfl⟩
  · rintro ⟨rfl, rfl⟩
    exact ⟨1, [], rfl⟩

theorem resultsIn_sequence_iff : env.ResultsIn (.sequence a b) c verdict d ↔
    (∃ e, env.ResultsIn a c .matched e ∧ env.ResultsIn b e verdict d) ∨
      verdict ≠ .matched ∧ env.ResultsIn a c verdict d :=
  (ComesOut.succ_iff rfl).trans
    (ComesOut.andThen_iff (env.growing_run a c) (env.growing_run b))

theorem resultsIn_discard_iff : env.ResultsIn (.discard item) c verdict d ↔
    d.slot = c.slot ∧
      ∃ left, env.ResultsIn item { c with slot := none } verdict { d with slot := left } :=
  (ComesOut.succ_iff rfl).trans ComesOut.withSlot_iff

theorem resultsIn_repetition_iff {atLeast : Nat} :
    env.ResultsIn (.repetition atLeast item) c verdict d ↔
      env.Iterates item (env.ResultsIn item) atLeast c verdict d :=
  (ComesOut.succ_iff rfl).trans (comesOut_iterate_iff (env.growing_run item))

/-- A separator without a slot and an item behind it, as one grammar. -/
theorem comesOut_separated_iff :
    ComesOut (fun n => separated (env.run n) item separator c) verdict d ↔
      env.ResultsIn (.sequence (.discard separator) item) c verdict d := by
  have hgrowing : Growing fun n =>
      (env.run n separator { c with slot := none }).map (·.withSlot c.slot) :=
    fun n m hnm => (env.growing_run separator _ n m hnm).map _
  have hsplit (n : Nat) : separated (env.run n) item separator c =
      (env.run n separator { c with slot := none }).map (·.withSlot c.slot) >>= fun o =>
        o.andThen (env.run n item) := by
    unfold separated
    cases env.run n separator { c with slot := none } with
    | error stop => rfl
    | ok o => rfl
  rw [ComesOut.congr hsplit, ComesOut.andThen_iff hgrowing (env.growing_run item),
    resultsIn_sequence_iff]
  simp only [resultsIn_discard_iff, ComesOut.withSlot_iff]

theorem resultsIn_sepBy_iff : env.ResultsIn (.sepBy item separator) c verdict d ↔
    (∃ e, env.ResultsIn item c .matched e ∧
      env.Iterates (.sepBy item separator)
        (env.ResultsIn (.sequence (.discard separator) item)) 0 e verdict d) ∨
      verdict ≠ .matched ∧ env.ResultsIn item c verdict d := by
  have hgrowing (e : Config σ) : Growing fun n =>
      env.iterate (.sepBy item separator) (separated (env.run n) item separator) n 0 e :=
    fun n m hnm =>
      env.continuedBy_iterate _ (fun c => env.growing_separated item separator c n m hnm) hnm 0 e
  have hround : (fun c => ComesOut fun n => separated (env.run n) item separator c) =
      env.ResultsIn (.sequence (.discard separator) item) := by
    funext c verdict d
    exact propext comesOut_separated_iff
  refine (ComesOut.succ_iff rfl).trans ?_
  refine (ComesOut.andThen_iff (env.growing_run item c) hgrowing).trans ?_
  simp only [comesOut_iterate_iff (env.growing_separated item separator), hround]

end Environment

end ParserAlgebra
