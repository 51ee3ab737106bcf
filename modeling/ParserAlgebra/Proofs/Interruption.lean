import ParserAlgebra.Proofs.Rendering
import ParserAlgebra.Proofs.Upkeep

/-!
# Runs that are stopped on the way

A run stops where the run of a part is stopped, and an error that a part ends with is final. So a
level of a run is the same over two ways of running the parts that are the same, unless the first
one is stopped or the second one ends with an error; then that is so for the level too.
-/

namespace ParserAlgebra

variable {σ : Type}

namespace Outcome

variable {o : Outcome σ} {next : Step σ}

theorem andThen_of_matched (h : o.verdict = .matched) :
    o.andThen next = (next o.config).map (·.after o.records) := by
  rw [andThen, h]

theorem andThen_of_not_matched (h : o.verdict ≠ .matched) : o.andThen next = .ok o := by
  unfold andThen
  split
  · exact absurd ‹_› h
  · rfl

end Outcome

namespace Environment

variable (env : Environment σ)

section OrElse

variable {env} {o : Outcome σ} {next : Step σ} {start : Position}

theorem orElse_of_mismatched (h : o.verdict = .mismatched)
    (hstayed : o.config.cursor.offset = start.offset) (message : String) (tried : Grammar σ) :
    env.orElse message tried start o next = (next o.config).map (·.after o.records) := by
  rw [orElse, h]
  exact if_neg fun hmoved => hmoved hstayed

theorem orElse_of_not_mismatched (h : o.verdict ≠ .mismatched) (message : String)
    (tried : Grammar σ) (start : Position) : env.orElse message tried start o next = .ok o := by
  unfold orElse
  split
  · exact absurd ‹_› h
  · rfl

end OrElse

/-- The record of a speculation can always be made. -/
theorem exists_backtrackNote (g : Grammar σ) (c : Config σ) (o : Outcome σ) :
    ∃ note, env.backtrackNote g c o = .ok note := by
  obtain ⟨text, htext⟩ := env.store.exists_ebnf g
  unfold backtrackNote
  split
  · rw [htext]
    exact ⟨_, rfl⟩
  · exact ⟨[], rfl⟩

end Environment

/-- Runs that are the same, unless the first one is stopped or the second one ends with a verdict of
which `F` holds. -/
abbrev SameRun (stops : Stop → Prop) (F : Verdict → Prop) :
    Except Stop (Outcome σ) → Except Stop (Outcome σ) → Prop :=
  SameUnless stops fun o => F o.verdict

/-- Only errors are final. -/
def Verdict.OnlyFailed (F : Verdict → Prop) : Prop :=
  ∀ v, F v → ∃ e, v = .failed e

section SameRun

variable {stops : Stop → Prop} {F : Verdict → Prop} {o : Outcome σ} {next next' : Step σ}

namespace Outcome

theorem reaches_andThen (hF : Verdict.OnlyFailed F) (ho : F o.verdict) (next : Step σ) :
    Reaches (fun o => F o.verdict) (o.andThen next) := by
  obtain ⟨e, he⟩ := hF _ ho
  refine ⟨o, andThen_of_not_matched ?_, ho⟩
  simp [he]

theorem sameRun_andThen (o : Outcome σ) (h : ∀ c, SameRun stops F (next c) (next' c)) :
    SameRun stops F (o.andThen next) (o.andThen next') := by
  obtain ⟨verdict, config, records⟩ := o
  cases verdict with
  | matched => exact (h config).map fun _ hfinal => hfinal
  | mismatched => exact .same _
  | failed e => exact .same _

end Outcome

namespace Environment

variable (env : Environment σ)

theorem reaches_orElse (hF : Verdict.OnlyFailed F) (ho : F o.verdict) (message : String)
    (tried : Grammar σ) (start : Position) (next : Step σ) :
    Reaches (fun o => F o.verdict) (env.orElse message tried start o next) := by
  obtain ⟨e, he⟩ := hF _ ho
  refine ⟨o, orElse_of_not_mismatched ?_ _ _ _, ho⟩
  simp [he]

theorem sameRun_orElse (message : String) (tried : Grammar σ) (start : Position) (o : Outcome σ)
    (h : ∀ c, SameRun stops F (next c) (next' c)) :
    SameRun stops F (env.orElse message tried start o next)
      (env.orElse message tried start o next') := by
  obtain ⟨verdict, config, records⟩ := o
  cases verdict with
  | matched => exact .same _
  | mismatched =>
      unfold orElse
      dsimp only
      split
      · exact .same _
      · exact (h config).map fun _ hfinal => hfinal
  | failed e => exact .same _

/-- The first iteration may have less depth left, if it may be stopped for that. -/
theorem sameRun_iterate (hF : Verdict.OnlyFailed F) (blamed : Grammar σ) {step step' : Step σ}
    (hstep : ∀ c, SameRun stops F (step c) (step' c)) {n m : Nat} (hnm : n ≤ m)
    (hlimit : n = m ∨ stops .nestingLimit) (owed : Nat) (c : Config σ) :
    SameRun stops F (env.iterate blamed step n owed c) (env.iterate blamed step' m owed c) := by
  induction n generalizing m owed c with
  | zero =>
      rcases hlimit with rfl | hlimit
      · exact .same _
      · exact .stopped hlimit _
  | succ n ih =>
      obtain ⟨m, rfl⟩ := Nat.exists_eq_succ_of_ne_zero (Nat.ne_zero_of_lt hnm)
      rw [iterate, iterate]
      refine (hstep c).bind (fun o => ?_) fun o _ ho => ?_
      · split
        · split
          · exact .same _
          · have hrest := ih (Nat.le_of_succ_le_succ hnm) (hlimit.imp_left Nat.succ.inj)
              (owed - 1) o.config
            exact hrest.map fun _ hfinal => hfinal
        · exact .same _
      · obtain ⟨e, he⟩ := hF _ ho
        have horElse := env.reaches_orElse hF ho iterationConsumed blamed c.cursor.position
          fun c => .ok (if owed = 0 then c.matched else c.mismatched)
        simpa only [he] using horElse

/-- What is run into a fresh slot, in the second component of a result. -/
theorem sameUnless_runInto {step step' : Step σ}
    (hstep : ∀ c, SameRun stops F (step c) (step' c)) (kind : Kind) (c : Config σ) :
    SameUnless stops (fun p => F p.2.verdict) (runInto step kind c) (runInto step' kind c) :=
  (hstep _).bind (fun _ => .same _) fun _ _ ho => ⟨_, rfl, ho⟩

variable {run run' : Grammar σ → Step σ}

theorem sameUnless_runAll (hF : Verdict.OnlyFailed F)
    (hrun : ∀ g c, SameRun stops F (run g c) (run' g c)) (parts : List (Kind × Grammar σ))
    (c : Config σ) :
    SameUnless stops (fun p => F p.2.verdict) (runAll run parts c) (runAll run' parts c) := by
  induction parts generalizing c with
  | nil => exact .same _
  | cons part parts ih =>
      obtain ⟨kind, g⟩ := part
      rw [runAll, runAll]
      refine (sameUnless_runInto (hrun g) kind c).bind (fun p => ?_) fun p _ hp => ?_
      · obtain ⟨v, verdict, config, records⟩ := p
        cases verdict with
        | matched => exact (ih config).bind (fun _ => .same _) fun _ _ hq => ⟨_, rfl, hq⟩
        | mismatched => exact .same _
        | failed e => exact .same _
      · obtain ⟨v, verdict, config, records⟩ := p
        obtain ⟨e, rfl⟩ := hF _ hp
        exact ⟨_, rfl, hp⟩

theorem sameUnless_runAny (hF : Verdict.OnlyFailed F)
    (hrun : ∀ g c, SameRun stops F (run g c) (run' g c)) (start : Position)
    (parts : List (Kind × Grammar σ)) (i : Nat) (c : Config σ) :
    SameUnless stops (fun p => F p.2.verdict) (env.runAny run start i parts c)
      (env.runAny run' start i parts c) := by
  induction parts generalizing i c with
  | nil => exact .same _
  | cons part parts ih =>
      obtain ⟨kind, g⟩ := part
      rw [runAny, runAny]
      refine (sameUnless_runInto (hrun g) kind c).bind (fun p => ?_) fun p _ hp => ?_
      · obtain ⟨v, verdict, config, records⟩ := p
        cases verdict with
        | matched => exact .same _
        | mismatched =>
            dsimp only
            split
            · exact .same _
            · exact (ih (i + 1) config).bind (fun _ => .same _) fun _ _ hq => ⟨_, rfl, hq⟩
        | failed e => exact .same _
      · obtain ⟨v, verdict, config, records⟩ := p
        obtain ⟨e, rfl⟩ := hF _ hp
        exact ⟨_, rfl, hp⟩

section Settle

variable {env} {c : Config σ}

theorem reaches_settle (hF : Verdict.OnlyFailed F) (ho : F o.verdict)
    (h : c.cursor.checkpoint.Onward o.config.cursor) (g : Grammar σ) (restores : Bool) :
    Reaches (fun o => F o.verdict) (env.settle g restores c o) := by
  obtain ⟨e, he⟩ := hF _ ho
  obtain ⟨note, hnote⟩ := env.exists_backtrackNote g c o
  rw [env.settle_of_not_matched h (by simp [he]), hnote]
  exact ⟨_, rfl, ho⟩

theorem reaches_settleExcept (hF : Verdict.OnlyFailed F) (ho : F o.verdict)
    (h : c.cursor.checkpoint.Onward o.config.cursor) (mayAct : Bool) (forbidden : Value) :
    Reaches (fun o => F o.verdict) (env.settleExcept mayAct forbidden c o) := by
  obtain ⟨e, he⟩ := hF _ ho
  rw [env.settleExcept_of_not_matched h (by simp [he])]
  exact ⟨_, rfl, ho⟩

end Settle

/-- One level of two runs whose parts are run in the same way, unless those of the first one are
stopped or those of the second one end with an error that is final. -/
theorem sameRun_runLevel (hF : Verdict.OnlyFailed F)
    (hrun : ∀ g c, SameRun stops F (run g c) (run' g c))
    (hcursor : ∀ g c o, run' g c = .ok o → F o.verdict → c.cursor.Onward o.config.cursor)
    {n m : Nat} (hnm : n ≤ m) (hlimit : n = m ∨ stops .nestingLimit) (g : Grammar σ)
    (c : Config σ) :
    SameRun stops F (env.runLevel run n g c) (env.runLevel run' m g c) := by
  have hafter (g : Grammar σ) (c : Config σ) {f : Outcome σ → Except Stop (Outcome σ)}
      (hf : ∀ o, run' g c = .ok o → F o.verdict → Reaches (fun o => F o.verdict) (f o)) :
      SameRun stops F (run g c >>= f) (run' g c >>= f) :=
    (hrun g c).bind (fun _ => .same _) hf
  cases g with
  | accept p => exact .same _
  | expect p => exact .same _
  | literal s => exact .same _
  | pattern source matcher => exact .same _
  | succeed => exact .same _
  | fail => exact .same _
  | sequence a b =>
      refine (hrun a c).bind (fun o => o.sameRun_andThen (hrun b)) fun o _ ho => ?_
      exact Outcome.reaches_andThen hF ho _
  | choice a b =>
      refine (hrun a c).bind (fun o => env.sameRun_orElse _ _ _ o (hrun b)) fun o _ ho => ?_
      exact env.reaches_orElse hF ho _ _ _ _
  | repetition atLeast item =>
      exact env.sameRun_iterate hF item (hrun item) hnm hlimit atLeast c
  | option item => exact hafter item c fun o _ ho => env.reaches_orElse hF ho _ _ _ _
  | sepBy item separator =>
      refine (hrun item c).bind (fun o => o.sameRun_andThen ?_) fun o _ ho => ?_
      · refine env.sameRun_iterate hF _ (fun c => ?_) hnm hlimit 0
        refine (hrun separator _).bind (fun o => ?_) fun o _ ho => ?_
        · exact (o.withSlot c.slot).sameRun_andThen (hrun item)
        · exact Outcome.reaches_andThen (o := o.withSlot c.slot) hF ho _
      · exact Outcome.reaches_andThen hF ho _
  | discard item => exact hafter item _ fun o _ ho => ⟨_, rfl, ho⟩
  | except kind item forbidden =>
      refine hafter item _ fun o ho hfinal => ?_
      exact reaches_settleExcept hF hfinal (hcursor _ _ o ho hfinal) _ _
  | attempt item =>
      refine hafter item _ fun o ho hfinal => ?_
      exact reaches_settle hF hfinal (hcursor _ _ o ho hfinal) _ _
  | attemptPure item =>
      refine hafter item _ fun o ho hfinal => ?_
      exact reaches_settle hF hfinal (hcursor _ _ o ho hfinal) _ _
  | strict message item =>
      refine hafter item c fun o _ ho => ?_
      obtain ⟨e, he⟩ := hF _ ho
      refine ⟨o, ?_, ho⟩
      simp only [he]
      rfl
  | trace label item =>
      refine hafter item c fun o _ ho => ?_
      obtain ⟨e, he⟩ := hF _ ho
      rw [he] at ho
      unfold traceRecords
      simp only [he]
      exact ⟨_, rfl, ho⟩
  | token item => exact hafter item c fun o _ ho => Outcome.reaches_andThen hF ho _
  | shared item => exact hrun item c
  | reference name item => exact hrun item c
  | define name item => exact hrun item c
  | rename name rank item => exact hrun item c
  | all kind action parts =>
      refine (sameUnless_runAll hF hrun parts c).bind (fun _ => .same _) fun p _ hp => ?_
      exact Outcome.reaches_andThen hF hp _
  | any kind action parts =>
      refine (env.sameUnless_runAny hF hrun _ parts 0 c).bind (fun _ => .same _) fun p _ hp => ?_
      obtain ⟨found, o⟩ := p
      cases found with
      | none => exact ⟨o, rfl, hp⟩
      | some found => exact Outcome.reaches_andThen hF hp _
  | handle slot =>
      rw [runLevel, runLevel]
      split
      · exact hrun _ c
      · exact .same _
  | fixed hold name rule =>
      rw [runLevel, runLevel]
      split
      · exact hrun _ c
      · exact .same _

end Environment

end SameRun

end ParserAlgebra
