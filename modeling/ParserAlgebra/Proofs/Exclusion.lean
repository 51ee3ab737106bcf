import ParserAlgebra.Proofs.Results
import ParserAlgebra.Proofs.Speculation

/-!
# Matches with a forbidden value

A grammar that excludes a value runs its rule into a fresh slot. A match with another value leads
where the rule led, and its value replaces what the slot holds; a match with the value leaves no
trace; anything else is passed on as it is, with what was taken and done, but for the fresh slot.
-/

namespace ParserAlgebra.Environment

variable {σ : Type} {env : Environment σ} {kind : Kind} {p : Grammar σ} {forbidden : Value}
  {c : Config σ} {n : Nat} {o : Outcome σ}

section Run

variable (ho : env.run n p { c with slot := some kind.default } = .ok o)

include ho

/-- The rule runs under a checkpoint of its own, which is the latest one when it has come to an
end. -/
theorem run_except (forbidden : Value) : env.run (n + 1) (.except kind p forbidden) c =
      env.settleExcept p.mayAct forbidden c (o.reframe (c.cursor.place :: ·) id) ∧
    c.cursor.checkpoint.Onward (o.reframe (c.cursor.place :: ·) id).config.cursor ∧
    o.config.cursor.checkpoints = c.cursor.checkpoints := by
  have honward := (env.orderly_run n p { c with slot := some kind.default }).of_eq_ok ho
  refine ⟨?_, ⟨honward.input, ?_, honward.place⟩, honward.checkpoints⟩
  · have hrun := env.run_checkpoint n p { c with slot := some kind.default }
    rw [ho] at hrun
    rw [run, runLevel]
    dsimp only at hrun ⊢
    rw [hrun]
    rfl
  · exact congrArg (c.cursor.place :: ·) honward.checkpoints

theorem resultsIn_except_of_allowed (hmatched : o.verdict = .matched) {v : Value}
    (hv : o.config.slot = some v) (hallowed : v ≠ forbidden) :
    env.ResultsIn (.except kind p forbidden) c .matched
      ⟨o.config.cursor, c.slot.map fun _ => v, o.config.state⟩ := by
  obtain ⟨hrun, honward, hcheckpoints⟩ := run_except ho forbidden
  have hslot : o.config.slot ≠ some forbidden := by
    rw [hv]
    exact fun h => hallowed (Option.some.inj h)
  rw [env.settleExcept_of_not_forbidden honward hmatched hslot, ← hcheckpoints] at hrun
  have hkept : (if c.slot.isSome then o.config.slot else none) = c.slot.map fun _ => v := by
    rw [hv]
    cases c.slot with
    | none => rfl
    | some held => rfl
  refine ⟨n + 1, o.records, hrun.trans ?_⟩
  rw [← hkept, ← hmatched]
  rfl

theorem resultsIn_except_of_forbidden (hmatched : o.verdict = .matched)
    (hv : o.config.slot = some forbidden) :
    env.ResultsIn (.except kind p forbidden) c .mismatched c := by
  obtain ⟨hrun, honward, -⟩ := run_except ho forbidden
  rw [env.settleExcept_of_forbidden honward hmatched hv] at hrun
  have hback : c.takenBack p.mayAct o.config.state = c := takenBack_of_run ho rfl
  change _ = Except.ok (Outcome.mk _ (c.takenBack p.mayAct o.config.state) _) at hrun
  rw [hback] at hrun
  exact ⟨n + 1, _, hrun⟩

theorem resultsIn_except_of_not_matched (hmatched : o.verdict ≠ .matched) (forbidden : Value) :
    env.ResultsIn (.except kind p forbidden) c o.verdict { o.config with slot := c.slot } := by
  obtain ⟨hrun, honward, hcheckpoints⟩ := run_except ho forbidden
  rw [env.settleExcept_of_not_matched honward hmatched, ← hcheckpoints] at hrun
  exact ⟨n + 1, o.records, hrun⟩

end Run

/-- Told from a run of the rule from the same cursor and state into a fresh slot, where it leaves
the value `v`. The exclusion comes to an end only if that run does. -/
theorem resultsIn_except (env : Environment σ) (kind : Kind) (p : Grammar σ) (forbidden : Value)
    (c : Config σ) :
    (∀ o, env.Yields p { c with slot := some kind.default } o → ∃ v, o.config.slot = some v ∧
      (o.verdict = .matched → v ≠ forbidden → env.ResultsIn (.except kind p forbidden) c .matched
        ⟨o.config.cursor, c.slot.map fun _ => v, o.config.state⟩) ∧
      (o.verdict = .matched → v = forbidden →
        env.ResultsIn (.except kind p forbidden) c .mismatched c) ∧
      (o.verdict ≠ .matched → env.ResultsIn (.except kind p forbidden) c o.verdict
        ⟨o.config.cursor, c.slot, o.config.state⟩)) ∧
    ((∃ o, env.Yields (.except kind p forbidden) c o) →
      ∃ o, env.Yields p { c with slot := some kind.default } o) := by
  constructor
  · rintro o ⟨n, ho⟩
    obtain ⟨v, hv⟩ := Yields.exists_value ⟨n, ho⟩
    refine ⟨v, hv, fun hmatched hallowed => ?_, ?_, fun hmatched => ?_⟩
    · exact resultsIn_except_of_allowed ho hmatched hv hallowed
    · rintro hmatched rfl
      exact resultsIn_except_of_forbidden ho hmatched hv
    · exact resultsIn_except_of_not_matched ho hmatched forbidden
  · rintro ⟨o, _ | n, hn⟩
    · cases hn
    · obtain ⟨under, hunder, -⟩ := exists_of_bind_eq_ok hn
      have hrun := env.run_checkpoint n p { c with slot := some kind.default }
      obtain ⟨o, ho, -⟩ := exists_of_map_eq_ok (hrun.symm.trans hunder)
      exact ⟨o, n, ho⟩

end ParserAlgebra.Environment
