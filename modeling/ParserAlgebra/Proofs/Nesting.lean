import ParserAlgebra.Proofs.Interruption

/-!
# The bound on nesting

A run that comes to an end under some bound on nesting ends in the same way under every larger one.
So what a grammar yields from a configuration, if anything, does not depend on the bound.
-/

namespace ParserAlgebra

variable {σ : Type}

theorem Verdict.onlyFailed_false : Verdict.OnlyFailed fun _ => False :=
  fun _ h => h.elim

theorem Outcome.continuedBy_andThen (o : Outcome σ) {next next' : Step σ}
    (h : ∀ c, ContinuedBy (next c) (next' c)) :
    ContinuedBy (o.andThen next) (o.andThen next') :=
  o.sameRun_andThen (F := fun _ => False) h

namespace Environment

variable (env : Environment σ)

theorem continuedBy_orElse (message : String) (tried : Grammar σ) (start : Position)
    (o : Outcome σ) {next next' : Step σ} (h : ∀ c, ContinuedBy (next c) (next' c)) :
    ContinuedBy (env.orElse message tried start o next)
      (env.orElse message tried start o next') :=
  env.sameRun_orElse (F := fun _ => False) message tried start o h

theorem continuedBy_iterate (blamed : Grammar σ) {step step' : Step σ}
    (hstep : ∀ c, ContinuedBy (step c) (step' c)) {n m : Nat} (hnm : n ≤ m) (owed : Nat)
    (c : Config σ) :
    ContinuedBy (env.iterate blamed step n owed c) (env.iterate blamed step' m owed c) :=
  env.sameRun_iterate Verdict.onlyFailed_false blamed hstep hnm (.inr rfl) owed c

theorem continuedBy_runInto {step step' : Step σ} (hstep : ∀ c, ContinuedBy (step c) (step' c))
    (kind : Kind) (c : Config σ) : ContinuedBy (runInto step kind c) (runInto step' kind c) :=
  sameUnless_runInto (F := fun _ => False) hstep kind c

variable {run run' : Grammar σ → Step σ}

theorem continuedBy_runAll (hrun : ∀ g c, ContinuedBy (run g c) (run' g c))
    (parts : List (Kind × Grammar σ)) (c : Config σ) :
    ContinuedBy (runAll run parts c) (runAll run' parts c) :=
  sameUnless_runAll Verdict.onlyFailed_false hrun parts c

theorem continuedBy_runAny (hrun : ∀ g c, ContinuedBy (run g c) (run' g c)) (start : Position)
    (parts : List (Kind × Grammar σ)) (i : Nat) (c : Config σ) :
    ContinuedBy (env.runAny run start i parts c) (env.runAny run' start i parts c) :=
  env.sameUnless_runAny Verdict.onlyFailed_false hrun start parts i c

/-- A run is continued by the run of the same grammar under a larger bound. -/
theorem continuedBy_run {n m : Nat} (hnm : n ≤ m) (g : Grammar σ) (c : Config σ) :
    ContinuedBy (env.run n g c) (env.run m g c) := by
  induction n generalizing m g c with
  | zero => exact .nestingLimit _
  | succ n ih =>
      obtain ⟨m, rfl⟩ := Nat.exists_eq_succ_of_ne_zero (Nat.ne_zero_of_lt hnm)
      have hle : n ≤ m := Nat.le_of_succ_le_succ hnm
      exact env.sameRun_runLevel Verdict.onlyFailed_false (ih hle) (fun _ _ _ _ h => h.elim) hle
        (.inr rfl) g c

/-- A run of a grammar from a configuration comes to an end with an outcome, if rules and iterations
may nest deep enough. -/
def Yields (g : Grammar σ) (c : Config σ) (o : Outcome σ) : Prop :=
  ∃ n, env.run n g c = .ok o

variable {env} {g : Grammar σ} {c : Config σ} {o o' : Outcome σ}

theorem Yields.run_eq_of_le (n : Nat) (hn : env.run n g c = .ok o) {m : Nat} (hnm : n ≤ m) :
    env.run m g c = .ok o :=
  (env.continuedBy_run hnm g c).eq_ok hn

/-- A grammar yields one outcome at most. -/
theorem Yields.unique (h : env.Yields g c o) (h' : env.Yields g c o') : o = o' := by
  obtain ⟨n, hn⟩ := h
  obtain ⟨m, hm⟩ := h'
  have hn' := run_eq_of_le n hn (Nat.le_max_left n m)
  have hm' := run_eq_of_le m hm (Nat.le_max_right n m)
  exact Except.ok.inj (hn'.symm.trans hm')

end Environment

end ParserAlgebra
