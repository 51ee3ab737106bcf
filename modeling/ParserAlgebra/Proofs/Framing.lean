import ParserAlgebra.Proofs.Involvement
import ParserAlgebra.Proofs.Upkeep

/-!
# What runs do not look at

The checkpoints that are open when a run begins have no influence on it, and neither has the state
on a grammar that calls no action, by itself or through rules: a configuration in which they are
replaced leads to the same outcome, with the same replacements made in it. One induction,
`uniform_run`, says both.
-/

namespace ParserAlgebra

variable {σ α β : Type}

/-- A configuration with its checkpoints and its state replaced. -/
def Config.reframe (stack : List Place → List Place) (update : σ → σ) (c : Config σ) : Config σ :=
  { c with
    cursor := c.cursor.withCheckpoints (stack c.cursor.checkpoints)
    state := update c.state }

/-- An outcome with the checkpoints and the state replaced. -/
def Outcome.reframe (stack : List Place → List Place) (update : σ → σ) (o : Outcome σ) :
    Outcome σ :=
  { o with config := o.config.reframe stack update }

/-- A step whose outcome changes along with the checkpoints and the state, and not otherwise. -/
def Step.Uniform (stack : List Place → List Place) (update : σ → σ) (step : Step σ) : Prop :=
  ∀ c, step (c.reframe stack update) = (step c).map (·.reframe stack update)

/-- The replacement of checkpoints below the latest one, which stays. -/
def belowLatest (stack : List Place → List Place) : List Place → List Place
  | [] => []
  | p :: ps => p :: stack ps

theorem bind_map_eq {r : Except Stop α} {f : α → α} {g : β → β} {next next' : α → Except Stop β}
    (h : ∀ a, r = .ok a → next' (f a) = (next a).map g) :
    (r.map f >>= next') = (r >>= next).map g := by
  cases r with
  | ok a => exact h a rfl
  | error stop => rfl

variable {stack : List Place → List Place} {update : σ → σ}

theorem Config.takeSymbol_reframe (c : Config σ) :
    (c.reframe stack update).takeSymbol = c.takeSymbol.reframe stack update := by
  unfold Config.takeSymbol
  have hsymbol : (c.reframe stack update).cursor.symbol? = c.cursor.symbol? := rfl
  rw [hsymbol]
  cases c.cursor.symbol? <;> rfl

theorem Outcome.andThen_reframe {next : Step σ} (hnext : next.Uniform stack update)
    (o : Outcome σ) :
    (o.reframe stack update).andThen next = (o.andThen next).map (·.reframe stack update) := by
  obtain ⟨verdict, config, records⟩ := o
  cases verdict with
  | matched =>
      change (next (config.reframe stack update)).map _ = _
      rw [hnext]
      change _ = ((next config).map _).map _
      cases next config <;> rfl
  | mismatched => rfl
  | failed e => rfl

theorem Cursor.Onward.reframe {c : Config σ} {o : Outcome σ}
    (h : c.cursor.checkpoint.Onward o.config.cursor) (stack : List Place → List Place)
    (update : σ → σ) :
    (c.reframe stack update).cursor.checkpoint.Onward
      (o.reframe (belowLatest stack) update).config.cursor := by
  refine ⟨h.input, ?_, h.place⟩
  change belowLatest stack o.config.cursor.checkpoints = _
  rw [h.checkpoints]
  rfl

/-- Whether a grammar calls an action of its own. -/
def Grammar.CallsAction : Grammar σ → Prop
  | .all _ _ _ | .any _ _ _ => True
  | _ => False

/-- A grammar that involves no action, be it in its parts or in the rules that it refers to. -/
def Store.Actless (store : Store σ) : Grammar σ → Prop :=
  store.Throughout fun q => ¬q.CallsAction

theorem Grammar.mayAct_component {store : Store σ} {g q : Grammar σ} (hg : g.mayAct = false)
    (hq : q ∈ store.components g) : q.mayAct = false := by
  cases g with
  | accept _ | expect _ | literal _ | pattern _ _ | succeed | fail => cases hq
  | sequence a b | choice a b | sepBy a b =>
      obtain ⟨ha, hb⟩ := Bool.or_eq_false_iff.1 hg
      have hq' : q = a ∨ q = b := by
        simpa [Store.components, writtenParts, or_comm, or_left_comm] using hq
      exact hq'.elim (· ▸ ha) (· ▸ hb)
  | all _ _ _ | any _ _ _ | handle _ | fixed _ _ _ => cases hg
  | _ =>
      obtain rfl := List.mem_singleton.1 hq
      exact hg

/-- A tree without actions, handles and fixed points involves nothing outside it. -/
theorem Store.actless_of_not_mayAct {g : Grammar σ} (store : Store σ) (hg : g.mayAct = false) :
    store.Actless g := by
  intro q hq
  have hq' : q.mayAct = false := by
    induction hq with
    | refl => exact hg
    | tail _ hcomponent ih => exact Grammar.mayAct_component ih hcomponent
  cases q with
  | all _ _ _ | any _ _ _ => cases hq'
  | _ => exact not_false

namespace Environment

variable (env : Environment σ)

theorem uniform_raise (kind : ErrorKind) (message : String) (expectation : Expectation)
    (start reported : Position) :
    (env.raise kind message expectation start reported).Uniform stack update := by
  intro c
  have hlocate : ParseError.locate kind message expectation start reported
      (c.reframe stack update).cursor =
        ParseError.locate kind message expectation start reported c.cursor := rfl
  rw [raise, hlocate, raise]
  cases ParseError.locate kind message expectation start reported c.cursor <;> rfl

theorem uniform_raiseFor (kind : ErrorKind) (message : String) (g : Grammar σ)
    (start : Position) : (env.raiseFor kind message g start).Uniform stack update := by
  intro c
  unfold raiseFor
  cases env.expectationOf g with
  | ok expectation => exact env.uniform_raise kind message expectation start c.cursor.position c
  | error stop => rfl

theorem uniform_raiseUndefined : env.raiseUndefined.Uniform stack update := fun c =>
  env.uniform_raise _ _ _ c.cursor.position c.cursor.position c

theorem orElse_reframe {next : Step σ} (hnext : next.Uniform stack update) (message : String)
    (tried : Grammar σ) (start : Position) (o : Outcome σ) :
    env.orElse message tried start (o.reframe stack update) next =
      (env.orElse message tried start o next).map (·.reframe stack update) := by
  obtain ⟨verdict, config, records⟩ := o
  cases verdict with
  | matched => rfl
  | mismatched =>
      change (if config.cursor.offset ≠ start.offset then
          (env.raiseFor .consumed message tried start (config.reframe stack update)).map _
        else (next (config.reframe stack update)).map _) = _
      rw [env.uniform_raiseFor, hnext, orElse]
      dsimp only
      split
      · cases env.raiseFor .consumed message tried start config <;> rfl
      · cases next config <;> rfl
  | failed e => rfl

theorem uniform_iterate {step : Step σ} (hstep : step.Uniform stack update)
    (blamed : Grammar σ) (n owed : Nat) :
    (env.iterate blamed step n owed).Uniform stack update := by
  induction n generalizing owed with
  | zero => exact fun c => rfl
  | succ n ih =>
      intro c
      rw [iterate, hstep, iterate]
      refine bind_map_eq fun o _ => ?_
      have hstop : Step.Uniform stack update fun c : Config σ =>
          .ok (if owed = 0 then c.matched else c.mismatched) := by
        intro c
        by_cases howed : owed = 0 <;> simp only [howed] <;> rfl
      have horElse := env.orElse_reframe hstop iterationConsumed blamed c.cursor.position o
      obtain ⟨verdict, config, records⟩ := o
      cases verdict with
      | matched =>
          change (if config.cursor.offset = c.cursor.offset then _ else
            (env.iterate blamed step n (owed - 1) (config.reframe stack update)).map _) = _
          rw [ih]
          dsimp only
          split
          · rfl
          · cases env.iterate blamed step n (owed - 1) config <;> rfl
      | mismatched => exact horElse
      | failed e => exact horElse

/-- The value of a part and an outcome, with the checkpoints and the state replaced. -/
def reframeSecond (stack : List Place → List Place) (update : σ → σ) (p : α × Outcome σ) :
    α × Outcome σ :=
  (p.1, p.2.reframe stack update)

theorem runInto_reframe {step : Step σ} (hstep : step.Uniform stack update) (kind : Kind)
    (c : Config σ) :
    runInto step kind (c.reframe stack update) =
      (runInto step kind c).map (reframeSecond stack update) := by
  unfold runInto
  rw [show { c.reframe stack update with slot := some kind.default } =
    Config.reframe stack update { c with slot := some kind.default } from rfl, hstep]
  exact bind_map_eq fun o _ => rfl

theorem runAll_reframe {run : Grammar σ → Step σ} (hrun : ∀ g, (run g).Uniform stack update)
    (parts : List (Kind × Grammar σ)) (c : Config σ) :
    runAll run parts (c.reframe stack update) =
      (runAll run parts c).map (reframeSecond stack update) := by
  induction parts generalizing c with
  | nil => rfl
  | cons part parts ih =>
      obtain ⟨kind, g⟩ := part
      rw [runAll, runInto_reframe (hrun g), runAll]
      refine bind_map_eq fun p _ => ?_
      obtain ⟨v, verdict, config, records⟩ := p
      cases verdict with
      | matched =>
          change (runAll run parts (config.reframe stack update) >>= _) = _
          rw [ih]
          exact bind_map_eq fun q _ => rfl
      | mismatched => rfl
      | failed e => rfl

theorem runAny_reframe {run : Grammar σ → Step σ} (hrun : ∀ g, (run g).Uniform stack update)
    (start : Position) (parts : List (Kind × Grammar σ)) (i : Nat) (c : Config σ) :
    env.runAny run start i parts (c.reframe stack update) =
      (env.runAny run start i parts c).map (reframeSecond stack update) := by
  induction parts generalizing i c with
  | nil => rfl
  | cons part parts ih =>
      obtain ⟨kind, g⟩ := part
      rw [runAny, runInto_reframe (hrun g), runAny]
      refine bind_map_eq fun p _ => ?_
      obtain ⟨v, verdict, config, records⟩ := p
      cases verdict with
      | matched => rfl
      | mismatched =>
          change (if config.cursor.offset ≠ start.offset then
              (env.raiseFor .consumed branchConsumed g start (config.reframe stack update) >>= _)
            else (env.runAny run start (i + 1) parts (config.reframe stack update) >>= _)) = _
          rw [env.uniform_raiseFor, ih]
          dsimp only
          split
          · cases env.raiseFor .consumed branchConsumed g start config <;> rfl
          · cases env.runAny run start (i + 1) parts config <;> rfl
      | failed e => rfl

theorem uniform_act (g : Grammar σ) (kind : Kind) (action : Action σ) (args : Arguments)
    (start : Position) : (env.act g kind action args start).Uniform stack id := by
  intro c
  cases hfailure : (action args (c.slot.getD kind.default) c.state).failure with
  | none =>
      have hreframed : (action args ((c.reframe stack id).slot.getD kind.default)
          (c.reframe stack id).state).failure = none := hfailure
      simp only [act, hfailure, hreframed]
      rfl
  | some failure =>
      have hreframed : (action args ((c.reframe stack id).slot.getD kind.default)
          (c.reframe stack id).state).failure = some failure := hfailure
      simp only [act, hfailure, hreframed]
      cases env.expectationOf g with
      | ok expectation =>
          have hraise : Step.Uniform stack id
              (env.raise .action failure.message expectation start start) :=
            env.uniform_raise .action failure.message expectation start start
          let effect := action args (c.slot.getD kind.default) c.state
          exact hraise ⟨c.cursor, c.slot.map fun _ => effect.slot, effect.state⟩
      | error stop => rfl

variable {c : Config σ} {o : Outcome σ}

theorem settle_reframe (h : c.cursor.checkpoint.Onward o.config.cursor) (g : Grammar σ)
    (restores : Bool) :
    env.settle g restores (c.reframe stack update) (o.reframe (belowLatest stack) update) =
      (env.settle g restores c o).map (·.reframe stack update) := by
  have hreframed := h.reframe stack update
  by_cases hmatched : o.verdict = .matched
  · rw [env.settle_of_matched h hmatched, env.settle_of_matched hreframed hmatched]
    rfl
  · have hnote : env.backtrackNote g (c.reframe stack update)
        (o.reframe (belowLatest stack) update) = env.backtrackNote g c o := rfl
    rw [env.settle_of_not_matched h hmatched, env.settle_of_not_matched hreframed hmatched, hnote]
    cases restores <;> cases env.backtrackNote g c o <;> rfl

theorem settleExcept_reframe (h : c.cursor.checkpoint.Onward o.config.cursor) (mayAct : Bool)
    (forbidden : Value) :
    env.settleExcept mayAct forbidden (c.reframe stack update)
        (o.reframe (belowLatest stack) update) =
      (env.settleExcept mayAct forbidden c o).map (·.reframe stack update) := by
  have hreframed := h.reframe stack update
  by_cases hmatched : o.verdict = .matched
  · by_cases hslot : o.config.slot = some forbidden
    · rw [env.settleExcept_of_forbidden h hmatched hslot,
        env.settleExcept_of_forbidden hreframed hmatched hslot]
      cases mayAct <;> rfl
    · rw [env.settleExcept_of_not_forbidden h hmatched hslot,
        env.settleExcept_of_not_forbidden hreframed hmatched hslot]
      rfl
  · rw [env.settleExcept_of_not_matched h hmatched,
      env.settleExcept_of_not_matched hreframed hmatched]
    rfl

/-- Under a checkpoint of its own, a step sees the replaced checkpoints one further down. -/
theorem bind_checkpoint_reframe {step : Step σ} (hstep : step.Uniform (belowLatest stack) update)
    (horderly : ∀ c, Orderly c.cursor (step c)) (slot : Option Value) (c : Config σ)
    {next next' : Outcome σ → Except Stop (Outcome σ)}
    (hnext : ∀ o, c.cursor.checkpoint.Onward o.config.cursor →
      next' (o.reframe (belowLatest stack) update) = (next o).map (·.reframe stack update)) :
    (step ⟨(c.reframe stack update).cursor.checkpoint, slot, update c.state⟩ >>= next') =
      (step ⟨c.cursor.checkpoint, slot, c.state⟩ >>= next).map (·.reframe stack update) := by
  have hcheckpoint : (⟨(c.reframe stack update).cursor.checkpoint, slot, update c.state⟩ :
      Config σ) = Config.reframe (belowLatest stack) update ⟨c.cursor.checkpoint, slot, c.state⟩ :=
    rfl
  rw [hcheckpoint, hstep]
  exact bind_map_eq fun o ho => hnext o ((horderly _).of_eq_ok ho)

theorem traceRecords_reframe (label : String) (start : Position) (o : Outcome σ) :
    env.traceRecords label start (o.reframe stack update) = env.traceRecords label start o := by
  rfl

theorem uniform_accept (n : Nat) (p : Predicate) :
    (env.run (n + 1) (.accept p)).Uniform stack update := by
  intro c
  have hsymbol : (c.reframe stack update).cursor.symbol? = c.cursor.symbol? := rfl
  rw [run, runLevel, run, runLevel, hsymbol, c.takeSymbol_reframe]
  cases p.accepts c.cursor.symbol? <;> rfl

theorem uniform_expect (n : Nat) (p : Predicate) :
    (env.run (n + 1) (.expect p)).Uniform stack update := by
  intro c
  have hsymbol : (c.reframe stack update).cursor.symbol? = c.cursor.symbol? := rfl
  have hposition : (c.reframe stack update).cursor.position = c.cursor.position := rfl
  rw [run, runLevel, run, runLevel, hsymbol, hposition, c.takeSymbol_reframe]
  cases p.accepts c.cursor.symbol? with
  | false => exact env.uniform_raiseFor _ _ _ _ c
  | true => rfl

theorem uniform_literal (n : Nat) (s : String) :
    (env.run (n + 1) (.literal s)).Uniform stack update := by
  intro c
  have hahead : (c.reframe stack update).cursor.ahead = c.cursor.ahead := rfl
  rw [run, runLevel, run, runLevel, hahead]
  cases s.toList.isPrefixOf c.cursor.ahead <;> rfl

theorem uniform_pattern (n : Nat) (source : String) (matcher : Regex.Matcher) :
    (env.run (n + 1) (.pattern source matcher)).Uniform stack update := by
  intro c
  have hahead : (c.reframe stack update).cursor.ahead = c.cursor.ahead := rfl
  have hbefore : (c.reframe stack update).cursor.before? = c.cursor.before? := rfl
  rw [run, runLevel, run, runLevel, hahead, hbefore]
  cases matcher.matchAhead? c.cursor.before? c.cursor.ahead <;> rfl

/-- Replacing checkpoints, and the state if no action is called, changes a run in nothing else. -/
theorem uniform_run (n : Nat) (g : Grammar σ) (hg : update = id ∨ env.store.Actless g) :
    (env.run n g).Uniform stack update := by
  induction n generalizing g stack with
  | zero => exact fun c => rfl
  | succ n ih =>
      intro c
      have hpart {q : Grammar σ} (hq : q ∈ env.store.components g) {stack} :
          (env.run n q).Uniform stack update := ih q (hg.imp_right (·.component hq))
      have hcalls (h : g.CallsAction) : update = id := hg.resolve_right fun hg => hg.self h
      cases g with
      | accept p => exact env.uniform_accept n p c
      | expect p => exact env.uniform_expect n p c
      | literal s => exact env.uniform_literal n s c
      | pattern source matcher => exact env.uniform_pattern n source matcher c
      | succeed => rfl
      | fail => rfl
      | sequence a b =>
          rw [run, runLevel, hpart (.head _), run, runLevel]
          exact bind_map_eq fun o _ => o.andThen_reframe (hpart (.tail _ (.head _)))
      | choice a b =>
          rw [run, runLevel, hpart (.head _), run, runLevel]
          exact bind_map_eq fun o _ => env.orElse_reframe (hpart (.tail _ (.head _))) _ _ _ o
      | repetition atLeast item => rw [run, runLevel, env.uniform_iterate (hpart (.head _)), run, runLevel]
      | option item =>
          rw [run, runLevel, hpart (.head _), run, runLevel]
          exact bind_map_eq fun o _ => env.orElse_reframe (fun c => rfl) _ _ _ o
      | sepBy item separator =>
          rw [run, runLevel, hpart (.head _), run, runLevel]
          refine bind_map_eq fun o _ => o.andThen_reframe ?_
          refine env.uniform_iterate (fun c => ?_) _ n 0
          change (env.run n separator (Config.reframe stack update { c with slot := none }) >>=
            _) = _
          rw [hpart (.tail _ (.head _))]
          exact bind_map_eq fun o _ => (o.withSlot c.slot).andThen_reframe (hpart (.head _))
      | discard item =>
          change (env.run n item (Config.reframe stack update { c with slot := none }) >>= _) = _
          rw [hpart (.head _), run, runLevel]
          exact bind_map_eq fun o _ => rfl
      | except kind item forbidden =>
          rw [run, runLevel, run, runLevel]
          exact bind_checkpoint_reframe (hpart (.head _)) (env.orderly_run n item) _ c fun o ho =>
            env.settleExcept_reframe ho _ forbidden
      | attempt item =>
          rw [run, runLevel, run, runLevel]
          exact bind_checkpoint_reframe (hpart (.head _)) (env.orderly_run n item) _ c fun o ho =>
            env.settle_reframe ho item _
      | attemptPure item =>
          rw [run, runLevel, run, runLevel]
          exact bind_checkpoint_reframe (hpart (.head _)) (env.orderly_run n item) _ c fun o ho =>
            env.settle_reframe ho item _
      | strict message item =>
          rw [run, runLevel, hpart (.head _), run, runLevel]
          refine bind_map_eq fun o _ => ?_
          obtain ⟨verdict, config, records⟩ := o
          cases verdict with
          | matched => rfl
          | mismatched =>
              change (env.raiseFor .strict message item c.cursor.position
                (config.reframe stack update)).map _ = _
              rw [env.uniform_raiseFor]
              dsimp only
              cases env.raiseFor .strict message item c.cursor.position config <;> rfl
          | failed e => rfl
      | trace label item =>
          rw [run, runLevel, hpart (.head _), run, runLevel]
          refine bind_map_eq fun o _ => ?_
          change (env.traceRecords label c.cursor.position (o.reframe stack update) >>= _) = _
          rw [env.traceRecords_reframe]
          cases env.traceRecords label c.cursor.position o <;> rfl
      | token item =>
          rw [run, runLevel, hpart (.head _), run, runLevel]
          exact bind_map_eq fun o _ => o.andThen_reframe fun c => rfl
      | shared item => exact hpart (.head _) c
      | reference name item => exact hpart (.head _) c
      | define name item => exact hpart (.head _) c
      | rename name rank item => exact hpart (.head _) c
      | all kind action parts =>
          obtain rfl : update = id := hcalls trivial
          rw [run, runLevel, runAll_reframe fun g => ih g (.inl rfl), run, runLevel]
          exact bind_map_eq fun p _ => p.2.andThen_reframe (env.uniform_act _ kind action _ _)
      | any kind action parts =>
          obtain rfl : update = id := hcalls trivial
          rw [run, runLevel, env.runAny_reframe fun g => ih g (.inl rfl), run, runLevel]
          refine bind_map_eq fun p _ => ?_
          obtain ⟨found, o⟩ := p
          cases found with
          | none => rfl
          | some iv => exact o.andThen_reframe (env.uniform_act _ kind action _ _)
      | handle slot =>
          rw [run, runLevel, run, runLevel]
          cases hrule : env.store.handle? slot with
          | none => exact env.uniform_raiseUndefined c
          | some rule => exact hpart (Option.mem_toList.2 hrule) c
      | fixed hold name rule =>
          rw [run, runLevel, run, runLevel]
          cases hrule : env.store.fixed? rule with
          | none => exact env.uniform_raiseUndefined c
          | some rule => exact hpart (Option.mem_toList.2 hrule) c

theorem run_reframe (n : Nat) (g : Grammar σ) (hg : update = id ∨ g.mayAct = false) :
    (env.run n g).Uniform stack update :=
  env.uniform_run n g (hg.imp_right env.store.actless_of_not_mayAct)

/-- A grammar that involves no action keeps the state it is given. -/
theorem state_eq_of_actless {n : Nat} {g : Grammar σ} (hg : env.store.Actless g)
    (ho : env.run n g c = .ok o) : o.config.state = c.state := by
  have hreframe : (env.run n g).Uniform id fun _ => c.state := env.uniform_run n g (.inr hg)
  -- The state that was given, put into the outcome, changes nothing in it.
  have hsame : env.run n g c =
      (env.run n g c).map fun o => { o with config := { o.config with state := c.state } } :=
    hreframe c
  rw [ho] at hsame
  exact congrArg (·.config.state) (Except.ok.inj hsame)

theorem state_eq_of_run {n : Nat} {g : Grammar σ} (hg : g.mayAct = false)
    (ho : env.run n g c = .ok o) : o.config.state = c.state :=
  env.state_eq_of_actless (env.store.actless_of_not_mayAct hg) ho

/-- A grammar that calls no action keeps the state it is given and does not look at it: from another
state, all else in the outcome is the same. -/
theorem run_eq_of_not_mayAct (n : Nat) (g : Grammar σ) (hg : g.mayAct = false) (cursor : Cursor)
    (slot : Option Value) (s t : σ) :
    (∀ o, env.run n g ⟨cursor, slot, s⟩ = .ok o → o.config.state = s) ∧
      env.run n g ⟨cursor, slot, t⟩ = (env.run n g ⟨cursor, slot, s⟩).map fun o =>
        { o with config := { o.config with state := t } } := by
  have hreframe : (env.run n g).Uniform id fun _ => t := env.run_reframe n g (.inr hg)
  exact ⟨fun o ho => env.state_eq_of_run hg ho, hreframe ⟨cursor, slot, s⟩⟩

theorem run_eq_of_not_mayAct_choice :
    let g : Grammar Nat :=
      .choice (.attempt (.sequence (.accept (.symbol 'a')) (.accept (.symbol 'b'))))
        (.many (.accept (.symbol 'a')))
    let env : Environment Nat := ⟨.empty, .off⟩
    let cursor : Cursor := .ofInput ['a', 'a', 'é']
    ∃ o, env.run 5 g ⟨cursor, some (.text ""), 3⟩ = .ok o ∧ o.config.state = 3 ∧
      env.run 5 g ⟨cursor, some (.text ""), 7⟩ =
        .ok { o with config := { o.config with state := 7 } } := by
  intro g env cursor
  obtain ⟨hkept, hother⟩ := env.run_eq_of_not_mayAct 5 g rfl cursor (some (.text "")) 3 7
  exact ⟨_, rfl, hkept _ rfl, hother⟩

end Environment

end ParserAlgebra
