import ParserAlgebra.Proofs.Speculation

/-!
# Runs put together from runs of the parts

What a grammar yields, in terms of what its parts yield. The bounds under which the parts come to an
end play no role here: there is always one under which all of them do.
-/

namespace ParserAlgebra

variable {σ : Type}

namespace Environment

variable {env : Environment σ} {a b g item : Grammar σ} {c : Config σ} {o o' : Outcome σ}

section Iterate

variable {step : Step σ} {blamed : Grammar σ} {n owed : Nat}

theorem iterate_of_mismatched (ho : step c = .ok o) (h : o.verdict = .mismatched)
    (hstayed : o.config.cursor.offset = c.cursor.offset) :
    env.iterate blamed step (n + 1) owed c =
      .ok ((if owed = 0 then o.config.matched else o.config.mismatched).after o.records) := by
  let stop : Step σ := fun c => .ok (if owed = 0 then c.matched else c.mismatched)
  have hstop : env.orElse iterationConsumed blamed c.cursor.position o stop =
      (stop o.config).map (·.after o.records) := orElse_of_mismatched h hstayed _ _
  rw [iterate, ho]
  dsimp only [bind, Except.bind]
  rw [h]
  exact hstop

theorem iterate_of_empty (ho : step c = .ok o) (h : o.verdict = .matched)
    (hstayed : o.config.cursor.offset = c.cursor.offset) :
    env.iterate blamed step (n + 1) owed c =
      .ok { o with verdict := if owed ≤ 1 then .matched else .mismatched } := by
  rw [iterate, ho]
  dsimp only [bind, Except.bind]
  rw [h]
  exact if_pos hstayed

theorem iterate_of_moved (ho : step c = .ok o) (h : o.verdict = .matched)
    (hmoved : o.config.cursor.offset ≠ c.cursor.offset) :
    env.iterate blamed step (n + 1) owed c =
      (env.iterate blamed step n (owed - 1) o.config).map (·.after o.records) := by
  rw [iterate, ho]
  dsimp only [bind, Except.bind]
  rw [h]
  exact if_neg hmoved

end Iterate

/-- Two runs that come to an end do so under a common bound. -/
theorem Yields.exists_common {g' : Grammar σ} {c' : Config σ} (h : env.Yields g c o)
    (h' : env.Yields g' c' o') : ∃ n, env.run n g c = .ok o ∧ env.run n g' c' = .ok o' := by
  obtain ⟨n, hn⟩ := h
  obtain ⟨m, hm⟩ := h'
  exact ⟨max n m, Yields.run_eq_of_le n hn (Nat.le_max_left n m),
    Yields.run_eq_of_le m hm (Nat.le_max_right n m)⟩

theorem Yields.onward (h : env.Yields g c o) : c.cursor.Onward o.config.cursor := by
  obtain ⟨n, hn⟩ := h
  exact (env.orderly_run n g c).of_eq_ok hn

theorem yields_sequence (ha : env.Yields a c o) (h : o.verdict = .matched)
    (hb : env.Yields b o.config o') : env.Yields (.sequence a b) c (o'.after o.records) := by
  obtain ⟨n, hn, hn'⟩ := ha.exists_common hb
  refine ⟨n + 1, ?_⟩
  rw [run, runLevel, hn]
  refine (Outcome.andThen_of_matched h).trans ?_
  rw [hn']
  rfl

theorem yields_sequence_of_not_matched (ha : env.Yields a c o) (h : o.verdict ≠ .matched)
    (b : Grammar σ) : env.Yields (.sequence a b) c o := by
  obtain ⟨n, hn⟩ := ha
  refine ⟨n + 1, ?_⟩
  rw [run, runLevel, hn]
  exact Outcome.andThen_of_not_matched h

/-- Where the first part is known to match, the sequence does what the second part does. -/
theorem Yields.exists_second (h : env.Yields (.sequence a b) c o') (ha : env.Yields a c o)
    (hmatched : o.verdict = .matched) :
    ∃ rest, env.Yields b o.config rest ∧ o' = rest.after o.records := by
  obtain ⟨n, hn⟩ := h
  cases n with
  | zero => cases hn
  | succ n =>
      rw [run, runLevel] at hn
      cases hrun : env.run n a c with
      | error stop =>
          rw [hrun] at hn
          cases hn
      | ok first =>
          obtain rfl := ha.unique ⟨n, hrun⟩
          rw [hrun] at hn
          have hsecond := (Outcome.andThen_of_matched hmatched).symm.trans hn
          cases hrest : env.run n b o.config with
          | error stop =>
              rw [hrest] at hsecond
              cases hsecond
          | ok rest =>
              rw [hrest] at hsecond
              exact ⟨rest, ⟨n, hrest⟩, (Except.ok.inj hsecond).symm⟩

theorem yields_choice (ha : env.Yields a c o) (h : o.verdict ≠ .mismatched) (b : Grammar σ) :
    env.Yields (.choice a b) c o := by
  obtain ⟨n, hn⟩ := ha
  refine ⟨n + 1, ?_⟩
  rw [run, runLevel, hn]
  exact orElse_of_not_mismatched h _ _ _

theorem yields_choice_of_mismatched (ha : env.Yields a c o) (h : o.verdict = .mismatched)
    (hstayed : o.config.cursor.offset = c.cursor.offset) (hb : env.Yields b o.config o') :
    env.Yields (.choice a b) c (o'.after o.records) := by
  obtain ⟨n, hn, hn'⟩ := ha.exists_common hb
  refine ⟨n + 1, ?_⟩
  rw [run, runLevel, hn]
  refine (orElse_of_mismatched h hstayed _ _).trans ?_
  rw [hn']
  rfl

theorem yields_option (hitem : env.Yields item c o) (h : o.verdict ≠ .mismatched) :
    env.Yields (.option item) c o := by
  obtain ⟨n, hn⟩ := hitem
  refine ⟨n + 1, ?_⟩
  rw [run, runLevel, hn]
  change env.orElse _ item _ o (fun c => .ok c.matched) = _
  exact orElse_of_not_mismatched h _ _ _

theorem yields_option_of_mismatched (hitem : env.Yields item c o) (h : o.verdict = .mismatched)
    (hstayed : o.config.cursor.offset = c.cursor.offset) :
    env.Yields (.option item) c (o.config.matched.after o.records) := by
  obtain ⟨n, hn⟩ := hitem
  refine ⟨n + 1, ?_⟩
  rw [run, runLevel, hn]
  change env.orElse _ item _ o (fun c => .ok c.matched) = _
  exact orElse_of_mismatched h hstayed _ _

section Repetition

variable {owed : Nat}

theorem yields_repetition_of_mismatched (hitem : env.Yields item c o)
    (h : o.verdict = .mismatched) (hstayed : o.config.cursor.offset = c.cursor.offset) :
    env.Yields (.repetition owed item) c
      ((if owed = 0 then o.config.matched else o.config.mismatched).after o.records) := by
  obtain ⟨n, hn⟩ := hitem
  refine ⟨n + 2, ?_⟩
  rw [run, runLevel]
  exact iterate_of_mismatched (Yields.run_eq_of_le n hn n.le_succ) h hstayed

theorem yields_repetition_of_empty (hitem : env.Yields item c o) (h : o.verdict = .matched)
    (hstayed : o.config.cursor.offset = c.cursor.offset) :
    env.Yields (.repetition owed item) c
      { o with verdict := if owed ≤ 1 then .matched else .mismatched } := by
  obtain ⟨n, hn⟩ := hitem
  refine ⟨n + 2, ?_⟩
  rw [run, runLevel]
  exact iterate_of_empty (Yields.run_eq_of_le n hn n.le_succ) h hstayed

/-- An iteration that moved the cursor, and then the iterations that are left. -/
theorem yields_repetition_of_moved (hitem : env.Yields item c o) (h : o.verdict = .matched)
    (hmoved : o.config.cursor.offset ≠ c.cursor.offset)
    (hrest : env.Yields (.repetition (owed - 1) item) o.config o') :
    env.Yields (.repetition owed item) c (o'.after o.records) := by
  obtain ⟨n, hn⟩ := hitem
  obtain ⟨m, hm⟩ := hrest
  cases m with
  | zero => cases hm
  | succ m =>
      let bound := max n m
      have hitem : env.run (bound + 1) item c = .ok o :=
        Yields.run_eq_of_le n hn ((Nat.le_max_left n m).trans (Nat.le_succ _))
      have hle : m ≤ bound + 1 := (Nat.le_max_right n m).trans (Nat.le_succ _)
      have hcontinued : ContinuedBy (env.iterate item (env.run m item) m (owed - 1) o.config)
          (env.iterate item (env.run (bound + 1) item) bound (owed - 1) o.config) :=
        env.continuedBy_iterate item (env.continuedBy_run hle item) (Nat.le_max_right n m) _ _
      refine ⟨bound + 2, ?_⟩
      rw [run, runLevel, iterate_of_moved hitem h hmoved, hcontinued.eq_ok hm]
      rfl

end Repetition

section Accept

variable {p : Predicate}

theorem run_accept (n : Nat) (h : p.accepts c.cursor.symbol? = true) :
    env.run (n + 1) (.accept p) c = .ok c.takeSymbol.matched :=
  congrArg Except.ok (if_pos h)

theorem run_accept_of_rejected (n : Nat) (h : ¬ p.accepts c.cursor.symbol? = true) :
    env.run (n + 1) (.accept p) c = .ok c.mismatched :=
  congrArg Except.ok (if_neg h)

end Accept

/-- What an attempt yields keeps the verdict, and the configuration of a match. -/
theorem exists_yields_attempt (h : env.Yields g c o) : ∃ records, env.Yields (.attempt g) c
    ⟨o.verdict, if o.verdict = .matched then o.config else c, records⟩ := by
  obtain ⟨n, hn⟩ := h
  obtain ⟨records, hattempt⟩ := env.exists_run_attempt hn
  exact ⟨records, n + 1, hattempt⟩

theorem yields_discard {slot : Option Value} (h : env.Yields item { c with slot := none } o)
    (hslot : c.slot = slot) : env.Yields (.discard item) c (o.withSlot slot) := by
  subst hslot
  obtain ⟨n, hn⟩ := h
  refine ⟨n + 1, ?_⟩
  rw [run, runLevel, hn]
  rfl

theorem yields_handle {slot : Slot} (hslot : env.store.handle? slot = some g)
    (h : env.Yields g c o) : env.Yields (.handle slot) c o := by
  obtain ⟨n, hn⟩ := h
  refine ⟨n + 1, ?_⟩
  rw [run, runLevel, hslot]
  exact hn

end Environment

end ParserAlgebra
