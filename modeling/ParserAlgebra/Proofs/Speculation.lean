import ParserAlgebra.Proofs.Framing
import ParserAlgebra.Proofs.Nesting
import ParserAlgebra.Proofs.Rendering

/-!
# Attempts leave no trace

An attempt gives the verdict of what it tries. After a match it is where a run of its own would have
led; otherwise, also after an error, the whole configuration is what it was. The state is restored
only if an action may have been called, which is enough: no other run changes it.
-/

namespace ParserAlgebra.Environment

variable {σ : Type} (env : Environment σ)

/-- A run under a checkpoint of its own is the run without it, with the checkpoint left to be
closed. -/
theorem run_checkpoint (n : Nat) (g : Grammar σ) (c : Config σ) :
    env.run n g { c with cursor := c.cursor.checkpoint } =
      (env.run n g c).map (·.reframe (c.cursor.place :: ·) id) :=
  env.run_reframe n g (.inl rfl) c

variable {env} in
/-- Taking back what a run did, the state only if an action may have been called, takes back all of
it. -/
theorem takenBack_of_run {n : Nat} {g : Grammar σ} {c d : Config σ} {o : Outcome σ}
    (ho : env.run n g d = .ok o) (hd : d.state = c.state) :
    c.takenBack g.mayAct o.config.state = c := by
  cases hacts : g.mayAct with
  | true => rfl
  | false =>
      have hkept : o.config.state = c.state := (env.state_eq_of_run hacts ho).trans hd
      exact congrArg (Config.mk c.cursor c.slot) hkept

/-- An attempt in terms of a run of what it tries from the same configuration. -/
theorem run_attempt (n : Nat) (g : Grammar σ) (c : Config σ) :
    env.run (n + 1) (.attempt g) c = (do
      let o ← env.run n g c
      if o.verdict = .matched then .ok o
      else (env.backtrackNote g c o).map fun note => ⟨o.verdict, c, o.records ++ note⟩) := by
  rw [run, runLevel, run_checkpoint]
  cases ho : env.run n g c with
  | error stop => rfl
  | ok o =>
      have honward : c.cursor.Onward o.config.cursor := (env.orderly_run n g c).of_eq_ok ho
      let under := o.reframe (c.cursor.place :: ·) id
      have hunder : c.cursor.checkpoint.Onward under.config.cursor := by
        refine ⟨honward.input, ?_, honward.place⟩
        exact congrArg (c.cursor.place :: ·) honward.checkpoints
      change env.settle g g.mayAct c under = if o.verdict = .matched then _ else _
      by_cases hmatched : o.verdict = .matched
      · rw [if_pos hmatched, env.settle_of_matched hunder hmatched, ← honward.checkpoints]
        rfl
      · have hstate : c.takenBack g.mayAct under.config.state = c :=
          takenBack_of_run (o := o) ho rfl
        rw [if_neg hmatched, env.settle_of_not_matched hunder hmatched, hstate]
        rfl

/-- What comes of an attempt when a run of what it tries has come to an end. -/
theorem exists_run_attempt {n : Nat} {g : Grammar σ} {c : Config σ} {o : Outcome σ}
    (ho : env.run n g c = .ok o) : ∃ records, env.run (n + 1) (.attempt g) c =
      .ok ⟨o.verdict, if o.verdict = .matched then o.config else c, records⟩ := by
  rw [run_attempt, ho]
  by_cases hmatched : o.verdict = .matched
  · refine ⟨o.records, ?_⟩
    rw [if_pos hmatched]
    exact if_pos hmatched
  · obtain ⟨note, hnote⟩ := env.exists_backtrackNote g c o
    refine ⟨o.records ++ note, ?_⟩
    rw [if_neg hmatched]
    refine (if_neg hmatched).trans ?_
    rw [hnote]
    rfl

/-- An attempt returns if what it tries returns, and with the same verdict. A match leads to the
same configuration; after anything else the configuration is the one before the attempt. -/
theorem yields_attempt_iff (g : Grammar σ) (c : Config σ) (verdict : Verdict) (config : Config σ) :
    (∃ records, env.Yields (.attempt g) c ⟨verdict, config, records⟩) ↔
      ∃ o, env.Yields g c o ∧ verdict = o.verdict ∧
        config = if o.verdict = .matched then o.config else c := by
  constructor
  · rintro ⟨records, n, hn⟩
    cases n with
    | zero => cases hn
    | succ n =>
        cases ho : env.run n g c with
        | error stop =>
            rw [run_attempt, ho] at hn
            cases hn
        | ok o =>
            obtain ⟨records', hattempt⟩ := env.exists_run_attempt ho
            rw [hattempt] at hn
            cases hn
            exact ⟨o, ⟨n, ho⟩, rfl, rfl⟩
  · rintro ⟨o, ⟨n, ho⟩, rfl, rfl⟩
    obtain ⟨records, hattempt⟩ := env.exists_run_attempt ho
    exact ⟨records, n + 1, hattempt⟩

end ParserAlgebra.Environment
