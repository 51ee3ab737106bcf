import ParserAlgebra.Proofs.SlotDiscipline

/-!
# Slots stay where they are

A run changes what its slot holds, but it neither takes the slot away nor brings one along. So what
a rule produces in a fresh slot is a value, with whatever verdict the run ends.
-/

namespace ParserAlgebra

variable {σ : Type}

/-- A run that ends with a slot exactly if it began with one. -/
abbrev KeepsPresence (c : Config σ) (r : Except Stop (Outcome σ)) : Prop :=
  Ends True (fun o => o.config.slot.isSome = c.slot.isSome) r

namespace Config

theorem isSome_slot_takeSymbol (c : Config σ) : c.takeSymbol.slot.isSome = c.slot.isSome := by
  unfold takeSymbol
  split
  · rfl
  · exact Option.isSome_map

theorem isSome_slot_take (text : List Char) (c : Config σ) :
    (c.take text).slot.isSome = c.slot.isSome :=
  Option.isSome_map

end Config

variable {c d : Config σ} {o : Outcome σ} {next : Step σ}

theorem KeepsPresence.trans {r : Except Stop (Outcome σ)} (hdc : d.slot.isSome = c.slot.isSome)
    (h : KeepsPresence d r) : KeepsPresence c r :=
  Ends.imp h id fun _ ho => ho.trans hdc

theorem keepsPresence_andThen (ho : o.config.slot.isSome = c.slot.isSome)
    (hnext : KeepsPresence o.config (next o.config)) : KeepsPresence c (o.andThen next) := by
  unfold Outcome.andThen
  split
  · exact Ends.map (KeepsPresence.trans ho hnext)
  · exact ho

namespace Environment

variable (env : Environment σ)

theorem keepsPresence_raiseFor (kind : ErrorKind) (message : String) (g : Grammar σ)
    (start : Position) (c : Config σ) : KeepsPresence c (env.raiseFor kind message g start c) :=
  Ends.imp (env.ends_raiseFor kind message g start c) id fun _ ho =>
    congrArg (fun d : Config σ => d.slot.isSome) ho.2

theorem keepsPresence_raiseUndefined (c : Config σ) : KeepsPresence c (env.raiseUndefined c) :=
  Ends.bind_of_eq fun _ _ => rfl

theorem keepsPresence_orElse (ho : o.config.slot.isSome = c.slot.isSome)
    (hnext : KeepsPresence o.config (next o.config)) (message : String) (tried : Grammar σ)
    (start : Position) : KeepsPresence c (env.orElse message tried start o next) := by
  unfold orElse
  split
  · split
    · exact Ends.map (KeepsPresence.trans ho (env.keepsPresence_raiseFor _ _ _ _ o.config))
    · exact Ends.map (KeepsPresence.trans ho hnext)
  · exact ho

theorem keepsPresence_iterate {step : Step σ} (hstep : ∀ c, KeepsPresence c (step c))
    (blamed : Grammar σ) (n owed : Nat) (c : Config σ) :
    KeepsPresence c (env.iterate blamed step n owed c) := by
  induction n generalizing owed c with
  | zero => trivial
  | succ n ih =>
      rw [iterate]
      refine Ends.bind (hstep c) fun o ho => ?_
      split
      · split
        · exact ho
        · exact Ends.map (KeepsPresence.trans ho (ih _ o.config))
      · refine env.keepsPresence_orElse ho ?_ _ _ _
        by_cases howed : owed = 0
        · rw [if_pos howed]
          exact rfl
        · rw [if_neg howed]
          exact rfl

theorem keepsPresence_act (g : Grammar σ) (kind : Kind) (action : Action σ) (args : Arguments)
    (start : Position) (c : Config σ) : KeepsPresence c (env.act g kind action args start c) := by
  unfold act
  dsimp only
  split
  · exact Option.isSome_map
  · exact Ends.bind_of_eq fun _ _ => Ends.bind_of_eq fun _ _ => Option.isSome_map

/-- What a speculation takes back, it takes back to a configuration with the same slot. -/
theorem keepsPresence_speculation {step : Step σ} (horderly : ∀ c, Orderly c.cursor (step c))
    (hstep : ∀ c, KeepsPresence c (step c)) (g : Grammar σ) (restores : Bool) (c : Config σ) :
    KeepsPresence c
      (step { c with cursor := c.cursor.checkpoint } >>= env.settle g restores c) := by
  refine Ends.bind_of_eq fun o ho => ?_
  have honward := (horderly { c with cursor := c.cursor.checkpoint }).of_eq_ok ho
  have hkept := (hstep { c with cursor := c.cursor.checkpoint }).of_eq_ok ho
  by_cases hmatched : o.verdict = .matched
  · rw [env.settle_of_matched honward hmatched]
    exact hkept
  · rw [env.settle_of_not_matched honward hmatched]
    exact Ends.map (Ends.imp (env.ends_backtrackNote True g c o) id fun _ _ => rfl)

theorem keepsPresence_settleExcept (h : c.cursor.checkpoint.Onward o.config.cursor)
    (ho : o.config.slot.isSome = true) (mayAct : Bool) (forbidden : Value) :
    KeepsPresence c (env.settleExcept mayAct forbidden c o) := by
  by_cases hmatched : o.verdict = .matched
  · by_cases hslot : o.config.slot = some forbidden
    · rw [env.settleExcept_of_forbidden h hmatched hslot]
      exact rfl
    · rw [env.settleExcept_of_not_forbidden h hmatched hslot]
      change (if c.slot.isSome then o.config.slot else none).isSome = _
      cases c.slot with
      | none => rfl
      | some v => exact ho
  · rw [env.settleExcept_of_not_matched h hmatched]
    exact rfl

theorem keepsPresence_run (n : Nat) (g : Grammar σ) (c : Config σ) :
    KeepsPresence c (env.run n g c) := by
  induction n generalizing g c with
  | zero => trivial
  | succ n ih =>
      cases g with
      | accept p =>
          rw [run, runLevel]
          split
          · exact c.isSome_slot_takeSymbol
          · exact rfl
      | expect p =>
          rw [run, runLevel]
          split
          · exact c.isSome_slot_takeSymbol
          · exact env.keepsPresence_raiseFor _ _ _ _ c
      | literal s =>
          rw [run, runLevel]
          split
          · exact c.isSome_slot_take _
          · exact rfl
      | pattern source matcher =>
          rw [run, runLevel]
          split
          · exact c.isSome_slot_take _
          · exact rfl
      | succeed => exact rfl
      | fail => exact rfl
      | sequence a b =>
          rw [run, runLevel]
          exact Ends.bind (ih a c) fun o ho => keepsPresence_andThen ho (ih b o.config)
      | choice a b =>
          rw [run, runLevel]
          exact Ends.bind (ih a c) fun o ho => env.keepsPresence_orElse ho (ih b o.config) _ _ _
      | repetition atLeast item =>
          rw [run, runLevel]
          exact env.keepsPresence_iterate (ih item) item n atLeast c
      | option item =>
          rw [run, runLevel]
          refine Ends.bind (ih item c) fun o ho => env.keepsPresence_orElse ho ?_ _ _ _
          exact rfl
      | sepBy item separator =>
          rw [run, runLevel]
          refine Ends.bind (ih item c) fun o ho => keepsPresence_andThen ho ?_
          refine env.keepsPresence_iterate (fun c => ?_) _ n 0 o.config
          exact Ends.bind_of_eq fun o _ =>
            keepsPresence_andThen rfl (ih item (o.withSlot c.slot).config)
      | discard item =>
          rw [run, runLevel]
          exact Ends.bind_of_eq fun _ _ => rfl
      | except kind item forbidden =>
          rw [run, runLevel]
          let fresh : Config σ :=
            { c with cursor := c.cursor.checkpoint, slot := some kind.default }
          refine Ends.bind_of_eq fun o ho => ?_
          have honward := (env.orderly_run n item fresh).of_eq_ok ho
          exact env.keepsPresence_settleExcept honward ((ih item fresh).of_eq_ok ho) _ _
      | attempt item =>
          rw [run, runLevel]
          exact env.keepsPresence_speculation (env.orderly_run n item) (ih item) item _ c
      | attemptPure item =>
          rw [run, runLevel]
          exact env.keepsPresence_speculation (env.orderly_run n item) (ih item) item _ c
      | strict message item =>
          rw [run, runLevel]
          refine Ends.bind (ih item c) fun o ho => ?_
          split
          · exact Ends.map (KeepsPresence.trans ho (env.keepsPresence_raiseFor _ _ _ _ o.config))
          · exact ho
      | trace label item =>
          rw [run, runLevel]
          exact Ends.bind (ih item c) fun o ho => Ends.bind_of_eq fun _ _ => ho
      | token item =>
          rw [run, runLevel]
          exact Ends.bind (ih item c) fun o ho => keepsPresence_andThen ho rfl
      | shared item => exact ih item c
      | reference name item => exact ih item c
      | define name item => exact ih item c
      | rename name rank item => exact ih item c
      | all kind action parts =>
          rw [run, runLevel]
          refine Ends.bind (slot_runAll (env.run n) parts c) fun p hp => ?_
          exact keepsPresence_andThen (congrArg Option.isSome hp)
            (env.keepsPresence_act _ _ _ _ _ _)
      | any kind action parts =>
          rw [run, runLevel]
          refine Ends.bind (env.slot_runAny (env.run n) _ 0 parts c) fun p hp => ?_
          split
          · exact keepsPresence_andThen (congrArg Option.isSome hp)
              (env.keepsPresence_act _ _ _ _ _ _)
          · exact congrArg Option.isSome hp
      | handle slot =>
          rw [run, runLevel]
          split
          · exact ih _ c
          · exact env.keepsPresence_raiseUndefined c
      | fixed hold name rule =>
          rw [run, runLevel]
          split
          · exact ih _ c
          · exact env.keepsPresence_raiseUndefined c

variable {env} {g : Grammar σ}

/-- What a grammar leaves in a fresh slot is a value. -/
theorem Yields.exists_value {kind : Kind}
    (h : env.Yields g { c with slot := some kind.default } o) : ∃ v, o.config.slot = some v := by
  obtain ⟨n, hn⟩ := h
  exact Option.isSome_iff_exists.1 ((env.keepsPresence_run n g _).of_eq_ok hn)

end Environment

end ParserAlgebra
