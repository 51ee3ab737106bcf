import ParserAlgebra.Proofs.Nesting
import ParserAlgebra.Proofs.Upkeep

/-!
# Grammars that mismatch in place

A choice goes on to its second alternative, and an iteration comes to its end, only where a mismatch
has left the cursor in its place. Two notions tell from a grammar what its mismatches are like: an
infallible grammar has none, a guarded one has them in place only. For the rules of a store both are
assumed, and the assumptions may depend on each other in circles: all that is asked of them is that
the body of each rule has, under the assumptions, what is assumed of the rule.
-/

namespace ParserAlgebra

/-- A rule of a store. -/
inductive RuleName where
  | slot (slot : Slot)
  | fixed (rule : RuleId)
  deriving DecidableEq

/-- The body of a rule, if it is there. -/
def Store.body? {σ : Type} (store : Store σ) : RuleName → Option (Grammar σ)
  | .slot slot => store.handle? slot
  | .fixed rule => store.fixed? rule

/-- What is assumed of the rules of a store: that they are infallible, or guarded. -/
structure Discipline where
  infallible : RuleName → Prop
  guarded : RuleName → Prop

namespace Discipline

variable {σ : Type}

/-- The grammars that never mismatch, under the assumptions made of rules. -/
inductive Infallible (d : Discipline) : Grammar σ → Prop
  | expect (p : Predicate) : d.Infallible (.expect p)
  | succeed : d.Infallible .succeed
  | many (item : Grammar σ) : d.Infallible (.many item)
  | option (item : Grammar σ) : d.Infallible (.option item)
  | strict (message : String) (item : Grammar σ) : d.Infallible (.strict message item)
  | sequence {a b : Grammar σ} (ha : d.Infallible a) (hb : d.Infallible b) :
      d.Infallible (.sequence a b)
  | choiceFirst {a : Grammar σ} (ha : d.Infallible a) (b : Grammar σ) :
      d.Infallible (.choice a b)
  | choiceSecond (a : Grammar σ) {b : Grammar σ} (hb : d.Infallible b) :
      d.Infallible (.choice a b)
  | manyOne {item : Grammar σ} (hitem : d.Infallible item) : d.Infallible (.manyOne item)
  | sepBy {item : Grammar σ} (hitem : d.Infallible item) (separator : Grammar σ) :
      d.Infallible (.sepBy item separator)
  | attempt {item : Grammar σ} (hitem : d.Infallible item) : d.Infallible (.attempt item)
  | attemptPure {item : Grammar σ} (hitem : d.Infallible item) :
      d.Infallible (.attemptPure item)
  | discard {item : Grammar σ} (hitem : d.Infallible item) : d.Infallible (.discard item)
  | trace (label : String) {item : Grammar σ} (hitem : d.Infallible item) :
      d.Infallible (.trace label item)
  | token {item : Grammar σ} (hitem : d.Infallible item) : d.Infallible (.token item)
  | shared {item : Grammar σ} (hitem : d.Infallible item) : d.Infallible (.shared item)
  | reference (name : String) {item : Grammar σ} (hitem : d.Infallible item) :
      d.Infallible (.reference name item)
  | define (name : String) {item : Grammar σ} (hitem : d.Infallible item) :
      d.Infallible (.define name item)
  | rename (name : String) (rank : Rank) {item : Grammar σ} (hitem : d.Infallible item) :
      d.Infallible (.rename name rank item)
  | all (kind : Kind) (action : Action σ) {parts : List (Kind × Grammar σ)}
      (hparts : ∀ part ∈ parts, d.Infallible part.2) : d.Infallible (.all kind action parts)
  | any (kind : Kind) (action : Action σ) {parts : List (Kind × Grammar σ)}
      {part : Kind × Grammar σ} (hmem : part ∈ parts) (hpart : d.Infallible part.2) :
      d.Infallible (.any kind action parts)
  | handle {slot : Slot} (hslot : d.infallible (.slot slot)) : d.Infallible (.handle slot)
  | fixed (hold : Hold) (name : String) {rule : RuleId} (hrule : d.infallible (.fixed rule)) :
      d.Infallible (.fixed hold name rule)

/-- The grammars that mismatch in place only, under the assumptions made of rules. -/
inductive Guarded (d : Discipline) : Grammar σ → Prop
  | infallible {g : Grammar σ} (hg : d.Infallible g) : d.Guarded g
  | accept (p : Predicate) : d.Guarded (.accept p)
  | literal (text : String) : d.Guarded (.literal text)
  | pattern (source : String) (matcher : Regex.Matcher) : d.Guarded (.pattern source matcher)
  | fail : d.Guarded .fail
  | manyOne (item : Grammar σ) : d.Guarded (.manyOne item)
  | any (kind : Kind) (action : Action σ) (parts : List (Kind × Grammar σ)) :
      d.Guarded (.any kind action parts)
  | attempt (item : Grammar σ) : d.Guarded (.attempt item)
  | attemptPure (item : Grammar σ) : d.Guarded (.attemptPure item)
  | sequence {a b : Grammar σ} (ha : d.Guarded a) (hb : d.Infallible b) :
      d.Guarded (.sequence a b)
  | all (kind : Kind) (action : Action σ) {part : Kind × Grammar σ}
      {parts : List (Kind × Grammar σ)} (hpart : d.Guarded part.2)
      (hparts : ∀ part ∈ parts, d.Infallible part.2) :
      d.Guarded (.all kind action (part :: parts))
  | choice (a : Grammar σ) {b : Grammar σ} (hb : d.Guarded b) : d.Guarded (.choice a b)
  | sepBy {item : Grammar σ} (hitem : d.Guarded item) (separator : Grammar σ) :
      d.Guarded (.sepBy item separator)
  | except (kind : Kind) {item : Grammar σ} (hitem : d.Guarded item) (forbidden : Value) :
      d.Guarded (.except kind item forbidden)
  | discard {item : Grammar σ} (hitem : d.Guarded item) : d.Guarded (.discard item)
  | trace (label : String) {item : Grammar σ} (hitem : d.Guarded item) :
      d.Guarded (.trace label item)
  | token {item : Grammar σ} (hitem : d.Guarded item) : d.Guarded (.token item)
  | shared {item : Grammar σ} (hitem : d.Guarded item) : d.Guarded (.shared item)
  | reference (name : String) {item : Grammar σ} (hitem : d.Guarded item) :
      d.Guarded (.reference name item)
  | define (name : String) {item : Grammar σ} (hitem : d.Guarded item) :
      d.Guarded (.define name item)
  | rename (name : String) (rank : Rank) {item : Grammar σ} (hitem : d.Guarded item) :
      d.Guarded (.rename name rank item)
  | handle {slot : Slot} (hslot : d.guarded (.slot slot)) : d.Guarded (.handle slot)
  | fixed (hold : Hold) (name : String) {rule : RuleId} (hrule : d.guarded (.fixed rule)) :
      d.Guarded (.fixed hold name rule)

/-- What is assumed of each rule holds of its body, under the same assumptions. -/
structure Consistent (d : Discipline) (store : Store σ) : Prop where
  infallible : ∀ name g, store.body? name = some g → d.infallible name → d.Infallible g
  guarded : ∀ name g, store.body? name = some g → d.guarded name → d.Guarded g

/-- The whitespace before the first token may be empty. -/
theorem infallible_firstToken (d : Discipline) : d.Infallible (.firstToken : Grammar σ) :=
  .discard (.many _)

end Discipline

variable {σ : Type}

/-- A run that does not end with a mismatch. -/
abbrev NeverMismatches (r : Except Stop (Outcome σ)) : Prop :=
  Ends True (fun o => o.verdict ≠ .mismatched) r

/-- A run that ends with a mismatch only where a given cursor stands. -/
abbrev MismatchesAt (cursor : Cursor) (r : Except Stop (Outcome σ)) : Prop :=
  Ends True (fun o => o.verdict = .mismatched → o.config.cursor = cursor) r

theorem NeverMismatches.mismatchesAt {r : Except Stop (Outcome σ)} (h : NeverMismatches r)
    (cursor : Cursor) : MismatchesAt cursor r :=
  Ends.imp h id fun _ ho hmismatched => absurd hmismatched ho

namespace Outcome

variable {o : Outcome σ} {next : Step σ}

theorem neverMismatches_andThen (ho : o.verdict ≠ .mismatched)
    (hnext : NeverMismatches (next o.config)) : NeverMismatches (o.andThen next) := by
  obtain ⟨verdict, config, records⟩ := o
  cases verdict with
  | matched => exact Ends.map hnext
  | mismatched => exact absurd rfl ho
  | failed e => exact ho

/-- If what follows a match never mismatches, mismatches are where they were. -/
theorem mismatchesAt_andThen {cursor : Cursor}
    (ho : o.verdict = .mismatched → o.config.cursor = cursor)
    (hnext : NeverMismatches (next o.config)) : MismatchesAt cursor (o.andThen next) := by
  obtain ⟨verdict, config, records⟩ := o
  cases verdict with
  | matched =>
      have hnever : NeverMismatches ((next config).map (·.after records)) := Ends.map hnext
      exact hnever.mismatchesAt cursor
  | mismatched => exact ho
  | failed e => exact ho

end Outcome

namespace Environment

variable (env : Environment σ)

theorem neverMismatches_raise (kind : ErrorKind) (message : String) (expectation : Expectation)
    (start reported : Position) (c : Config σ) :
    NeverMismatches (env.raise kind message expectation start reported c) := by
  refine Ends.bind_of_eq fun e _ => ?_
  exact Verdict.noConfusion

theorem neverMismatches_raiseFor (kind : ErrorKind) (message : String) (g : Grammar σ)
    (start : Position) (c : Config σ) :
    NeverMismatches (env.raiseFor kind message g start c) :=
  Ends.bind_of_eq fun expectation _ => env.neverMismatches_raise kind message expectation _ _ c

theorem neverMismatches_raiseUndefined (c : Config σ) : NeverMismatches (env.raiseUndefined c) :=
  env.neverMismatches_raise _ _ _ _ _ c

theorem neverMismatches_act (g : Grammar σ) (kind : Kind) (action : Action σ) (args : Arguments)
    (start : Position) (c : Config σ) : NeverMismatches (env.act g kind action args start c) := by
  unfold act
  dsimp only
  split
  · exact Verdict.noConfusion
  · exact Ends.bind_of_eq fun expectation _ => env.neverMismatches_raise _ _ expectation _ _ _

theorem neverMismatches_orElse {o : Outcome σ} {next : Step σ}
    (hnext : o.verdict = .mismatched → NeverMismatches (next o.config)) (message : String)
    (tried : Grammar σ) (start : Position) :
    NeverMismatches (env.orElse message tried start o next) := by
  obtain ⟨verdict, config, records⟩ := o
  cases verdict with
  | matched => exact Verdict.noConfusion
  | mismatched =>
      unfold orElse
      dsimp only
      split
      · exact Ends.map (env.neverMismatches_raiseFor .consumed message tried start config)
      · exact Ends.map (hnext rfl)
  | failed e => exact Verdict.noConfusion

/-- Where a branch is given up for the next one, the cursor is where the branch began. -/
theorem mismatchesAt_orElse {c : Cursor} {o : Outcome σ} {next : Step σ}
    (ho : c.Onward o.config.cursor) (hnext : MismatchesAt o.config.cursor (next o.config))
    (message : String) (tried : Grammar σ) :
    MismatchesAt c (env.orElse message tried c.position o next) := by
  obtain ⟨verdict, config, records⟩ := o
  cases verdict with
  | matched => exact fun h => Verdict.noConfusion h
  | mismatched =>
      unfold orElse
      dsimp only
      split
      · have hnever : NeverMismatches ((env.raiseFor .consumed message tried c.position config).map
            (·.after records)) :=
          Ends.map (env.neverMismatches_raiseFor .consumed message tried c.position config)
        exact hnever.mismatchesAt c
      · have hstayed : config.cursor = c := ho.eq_of_offset_eq (not_not.1 ‹_›)
        rw [← hstayed]
        exact Ends.map hnext
  | failed e => exact fun h => Verdict.noConfusion h

section Iterate

variable {step : Step σ} (blamed : Grammar σ)

/-- An iteration that owes no match does not mismatch. -/
theorem neverMismatches_iterate_zero (n : Nat) (c : Config σ) :
    NeverMismatches (env.iterate blamed step n 0 c) := by
  induction n generalizing c with
  | zero => trivial
  | succ n ih =>
      rw [iterate]
      refine Ends.bind_of_eq fun o _ => ?_
      split
      · split
        · exact Verdict.noConfusion
        · exact Ends.map (ih o.config)
      · exact env.neverMismatches_orElse (fun _ => Verdict.noConfusion) _ _ _

/-- One that owes a single match mismatches, if at all, before it has taken anything. -/
theorem mismatchesAt_iterate_one (hstep : ∀ c, Orderly c.cursor (step c)) (n : Nat)
    (c : Config σ) : MismatchesAt c.cursor (env.iterate blamed step n 1 c) := by
  cases n with
  | zero => trivial
  | succ n =>
      rw [iterate]
      refine Ends.bind_of_eq fun o ho => ?_
      have honward : c.cursor.Onward o.config.cursor := (hstep c).of_eq_ok ho
      split
      · split
        · exact fun h => Verdict.noConfusion h
        · have hnever : NeverMismatches
              ((env.iterate blamed step n 0 o.config).map (·.after o.records)) :=
            Ends.map (env.neverMismatches_iterate_zero blamed n o.config)
          exact hnever.mismatchesAt c.cursor
      · have hstop : MismatchesAt o.config.cursor
            ((fun c : Config σ => .ok (if 1 = 0 then c.matched else c.mismatched)) o.config) :=
          fun _ => rfl
        exact env.mismatchesAt_orElse honward hstop _ _

theorem neverMismatches_iterate_one (hstep : ∀ c, NeverMismatches (step c)) (n : Nat)
    (c : Config σ) : NeverMismatches (env.iterate blamed step n 1 c) := by
  cases n with
  | zero => trivial
  | succ n =>
      rw [iterate]
      refine Ends.bind_of_eq fun o ho => ?_
      have hnever : o.verdict ≠ .mismatched := (hstep c).of_eq_ok ho
      split
      · split
        · exact Verdict.noConfusion
        · exact Ends.map (env.neverMismatches_iterate_zero blamed n o.config)
      · exact env.neverMismatches_orElse (fun h => absurd h hnever) _ _ _

end Iterate

section Parts

variable {run : Grammar σ → Step σ}

theorem neverMismatches_runInto {step : Step σ} (hstep : ∀ c, NeverMismatches (step c))
    (kind : Kind) (c : Config σ) :
    Ends True (fun p => p.2.verdict ≠ .mismatched) (runInto step kind c) :=
  Ends.bind (hstep { c with slot := some kind.default }) fun _ ho => ho

theorem mismatchesAt_runInto {step : Step σ} (hstep : ∀ c, MismatchesAt c.cursor (step c))
    (kind : Kind) (c : Config σ) :
    Ends True (fun p => p.2.verdict = .mismatched → p.2.config.cursor = c.cursor)
      (runInto step kind c) :=
  Ends.bind (hstep { c with slot := some kind.default }) fun _ ho => ho

theorem neverMismatches_runAll {parts : List (Kind × Grammar σ)}
    (hparts : ∀ part ∈ parts, ∀ c, NeverMismatches (run part.2 c)) (c : Config σ) :
    Ends True (fun p => p.2.verdict ≠ .mismatched) (runAll run parts c) := by
  induction parts generalizing c with
  | nil => exact Verdict.noConfusion
  | cons part parts ih =>
      rw [List.forall_mem_cons] at hparts
      obtain ⟨hpart, hparts⟩ := hparts
      obtain ⟨kind, g⟩ := part
      rw [runAll]
      refine Ends.bind (neverMismatches_runInto hpart kind c) fun p hp => ?_
      obtain ⟨v, verdict, config, records⟩ := p
      cases verdict with
      | matched => exact Ends.bind (ih hparts config) fun _ hq => hq
      | mismatched => exact absurd rfl hp
      | failed e => exact hp

/-- Only the first of some parts may mismatch. -/
theorem mismatchesAt_runAll {part : Kind × Grammar σ} {parts : List (Kind × Grammar σ)}
    (hpart : ∀ c, MismatchesAt c.cursor (run part.2 c))
    (hparts : ∀ part ∈ parts, ∀ c, NeverMismatches (run part.2 c)) (c : Config σ) :
    Ends True (fun p => p.2.verdict = .mismatched → p.2.config.cursor = c.cursor)
      (runAll run (part :: parts) c) := by
  obtain ⟨kind, g⟩ := part
  rw [runAll]
  refine Ends.bind (mismatchesAt_runInto hpart kind c) fun p hp => ?_
  obtain ⟨v, verdict, config, records⟩ := p
  cases verdict with
  | matched =>
      refine Ends.bind (neverMismatches_runAll hparts config) fun q hq => ?_
      exact fun hmismatched => absurd hmismatched hq
  | mismatched => exact hp
  | failed e => exact hp

theorem neverMismatches_runAny {start : Position} {parts : List (Kind × Grammar σ)}
    {part : Kind × Grammar σ} (hmem : part ∈ parts)
    (hpart : ∀ c, NeverMismatches (run part.2 c)) (i : Nat) (c : Config σ) :
    Ends True (fun p => p.2.verdict ≠ .mismatched) (env.runAny run start i parts c) := by
  induction parts generalizing i c with
  | nil => exact absurd hmem List.not_mem_nil
  | cons other parts ih =>
      obtain ⟨kind, g⟩ := other
      rw [runAny]
      refine Ends.bind_of_eq fun p hp => ?_
      obtain ⟨v, verdict, config, records⟩ := p
      cases verdict with
      | matched => exact Verdict.noConfusion
      | mismatched =>
          dsimp only
          split
          · exact Ends.bind (env.neverMismatches_raiseFor _ _ g start config) fun _ ho => ho
          · rcases List.mem_cons.1 hmem with rfl | hmem
            · -- A part that never mismatches is not passed over.
              exact absurd rfl ((neverMismatches_runInto hpart kind c).of_eq_ok hp)
            · exact Ends.bind (ih hmem (i + 1) config) fun _ hq => hq
      | failed e => exact Verdict.noConfusion

/-- Each alternative is tried from the place where the first one was tried. -/
theorem mismatchesAt_runAny (hrun : ∀ g c, Orderly c.cursor (run g c))
    (parts : List (Kind × Grammar σ)) (i : Nat) (c : Config σ) :
    Ends True (fun p => p.2.verdict = .mismatched → p.2.config.cursor = c.cursor)
      (env.runAny run c.cursor.position i parts c) := by
  induction parts generalizing i c with
  | nil => exact fun _ => rfl
  | cons part parts ih =>
      obtain ⟨kind, g⟩ := part
      rw [runAny]
      refine Ends.bind_of_eq fun p hp => ?_
      have honward : c.cursor.Onward p.2.config.cursor :=
        (orderly_runInto (hrun g) kind c).of_eq_ok hp
      obtain ⟨v, verdict, config, records⟩ := p
      cases verdict with
      | matched => exact fun h => Verdict.noConfusion h
      | mismatched =>
          dsimp only
          split
          · have hraise := env.neverMismatches_raiseFor .consumed branchConsumed g
              c.cursor.position config
            exact Ends.bind hraise fun o ho hmismatched => absurd hmismatched ho
          · have hstayed : config.cursor = c.cursor := honward.eq_of_offset_eq (not_not.1 ‹_›)
            rw [← hstayed]
            exact Ends.bind (ih (i + 1) config) fun _ hq => hq
      | failed e => exact fun h => Verdict.noConfusion h

end Parts

section Speculation

variable {step : Step σ} (horderly : ∀ c, Orderly c.cursor (step c))

/-- A speculation ends with the verdict of what it tried, and with a mismatch where it began. -/
theorem ends_settle {c : Config σ} {o : Outcome σ}
    (h : c.cursor.checkpoint.Onward o.config.cursor) (g : Grammar σ) (restores : Bool) :
    Ends True (fun o' => o'.verdict = o.verdict ∧
      (o'.verdict = .mismatched → o'.config.cursor = c.cursor)) (env.settle g restores c o) := by
  by_cases hmatched : o.verdict = .matched
  · rw [env.settle_of_matched h hmatched]
    refine ⟨rfl, fun hmismatched => ?_⟩
    cases hmatched.symm.trans hmismatched
  · rw [env.settle_of_not_matched h hmatched]
    exact Ends.map (Ends.imp (env.ends_backtrackNote True g c o) id fun _ _ => ⟨rfl, fun _ => rfl⟩)

include horderly

theorem neverMismatches_speculation (hstep : ∀ c, NeverMismatches (step c)) (g : Grammar σ)
    (restores : Bool) (c : Config σ) :
    NeverMismatches
      (step { c with cursor := c.cursor.checkpoint } >>= env.settle g restores c) := by
  refine Ends.bind_of_eq fun o ho => ?_
  have honward := (horderly _).of_eq_ok ho
  have hnever := (hstep _).of_eq_ok ho
  exact Ends.imp (env.ends_settle honward g restores) id fun o' ho' => ho'.1 ▸ hnever

theorem mismatchesAt_speculation (g : Grammar σ) (restores : Bool) (c : Config σ) :
    MismatchesAt c.cursor
      (step { c with cursor := c.cursor.checkpoint } >>= env.settle g restores c) := by
  refine Ends.bind_of_eq fun o ho => ?_
  have honward := (horderly _).of_eq_ok ho
  exact Ends.imp (env.ends_settle honward g restores) id fun o' ho' => ho'.2

end Speculation

theorem mismatchesAt_settleExcept {c : Config σ} {o : Outcome σ}
    (h : c.cursor.checkpoint.Onward o.config.cursor)
    (ho : o.verdict = .mismatched → o.config.cursor = c.cursor.checkpoint) (mayAct : Bool)
    (forbidden : Value) : MismatchesAt c.cursor (env.settleExcept mayAct forbidden c o) := by
  by_cases hmatched : o.verdict = .matched
  · by_cases hslot : o.config.slot = some forbidden
    · rw [env.settleExcept_of_forbidden h hmatched hslot]
      exact fun _ => rfl
    · rw [env.settleExcept_of_not_forbidden h hmatched hslot]
      intro hmismatched
      cases hmatched.symm.trans hmismatched
  · rw [env.settleExcept_of_not_matched h hmatched]
    intro hmismatched
    change o.config.cursor.withCheckpoints c.cursor.checkpoints = c.cursor
    rw [ho hmismatched]
    rfl

variable {env} {d : Discipline}

/-- The runs of an infallible grammar do not mismatch. The induction is on the bound of the run, so
it passes through the bodies of rules, of which the same is assumed. -/
theorem neverMismatches_run (hd : d.Consistent env.store) (n : Nat) {g : Grammar σ}
    (hg : d.Infallible g) (c : Config σ) : NeverMismatches (env.run n g c) := by
  induction n generalizing g c with
  | zero => trivial
  | succ n ih =>
      cases hg with
      | expect p =>
          rw [run, runLevel]
          split
          · exact Verdict.noConfusion
          · exact env.neverMismatches_raiseFor _ _ _ _ c
      | succeed => exact Verdict.noConfusion
      | many item =>
          rw [run, runLevel]
          exact env.neverMismatches_iterate_zero item n c
      | option item =>
          rw [run, runLevel]
          refine Ends.bind_of_eq fun o _ => ?_
          exact env.neverMismatches_orElse (fun _ => Verdict.noConfusion) _ _ _
      | strict message item =>
          rw [run, runLevel]
          refine Ends.bind_of_eq fun o _ => ?_
          split
          · exact Ends.map (env.neverMismatches_raiseFor _ _ _ _ o.config)
          · exact ‹_›
      | @sequence a b ha hb =>
          rw [run, runLevel]
          refine Ends.bind (ih ha c) fun o ho => ?_
          exact o.neverMismatches_andThen ho (ih hb o.config)
      | @choiceFirst a ha b =>
          rw [run, runLevel]
          refine Ends.bind (ih ha c) fun o ho => ?_
          exact env.neverMismatches_orElse (fun hmismatched => absurd hmismatched ho) _ _ _
      | @choiceSecond a b hb =>
          rw [run, runLevel]
          refine Ends.bind_of_eq fun o _ => ?_
          exact env.neverMismatches_orElse (fun _ => ih hb o.config) _ _ _
      | @manyOne item hitem =>
          rw [run, runLevel]
          exact env.neverMismatches_iterate_one item (ih hitem) n c
      | @sepBy item hitem separator =>
          rw [run, runLevel]
          refine Ends.bind (ih hitem c) fun o ho => ?_
          exact o.neverMismatches_andThen ho (env.neverMismatches_iterate_zero _ n o.config)
      | @attempt item hitem =>
          rw [run, runLevel]
          exact env.neverMismatches_speculation (env.orderly_run n item) (ih hitem) item _ c
      | @attemptPure item hitem =>
          rw [run, runLevel]
          exact env.neverMismatches_speculation (env.orderly_run n item) (ih hitem) item _ c
      | @discard item hitem =>
          rw [run, runLevel]
          exact Ends.bind (ih hitem _) fun o ho => ho
      | @trace label item hitem =>
          rw [run, runLevel]
          refine Ends.bind (ih hitem c) fun o ho => ?_
          exact Ends.bind_of_eq fun _ _ => ho
      | @token item hitem =>
          rw [run, runLevel]
          refine Ends.bind (ih hitem c) fun o ho => ?_
          exact o.neverMismatches_andThen ho Verdict.noConfusion
      | shared hitem => exact ih hitem c
      | reference name hitem => exact ih hitem c
      | define name hitem => exact ih hitem c
      | rename name rank hitem => exact ih hitem c
      | @all kind action parts hparts =>
          rw [run, runLevel]
          have hvalues := neverMismatches_runAll (fun part h => ih (hparts part h)) c
          refine Ends.bind hvalues fun p hp => ?_
          exact p.2.neverMismatches_andThen hp (env.neverMismatches_act _ kind action _ _ _)
      | @any kind action parts part hmem hpart =>
          rw [run, runLevel]
          refine Ends.bind (env.neverMismatches_runAny hmem (ih hpart) 0 c) fun p hp => ?_
          split
          · exact Outcome.neverMismatches_andThen hp (env.neverMismatches_act _ kind action _ _ _)
          · exact hp
      | @handle slot hslot =>
          rw [run, runLevel]
          split
          · exact ih (hd.infallible (.slot slot) _ ‹_› hslot) c
          · exact env.neverMismatches_raiseUndefined c
      | @fixed hold name rule hrule =>
          rw [run, runLevel]
          split
          · exact ih (hd.infallible (.fixed rule) _ ‹_› hrule) c
          · exact env.neverMismatches_raiseUndefined c

/-- The runs of a guarded grammar mismatch in place. -/
theorem mismatchesAt_run (hd : d.Consistent env.store) (n : Nat) {g : Grammar σ}
    (hg : d.Guarded g) (c : Config σ) : MismatchesAt c.cursor (env.run n g c) := by
  induction n generalizing g c with
  | zero => trivial
  | succ n ih =>
      have hnever {g : Grammar σ} (hg : d.Infallible g) (c : Config σ) :
          NeverMismatches (env.run n g c) := neverMismatches_run hd n hg c
      cases hg with
      | infallible hg => exact (neverMismatches_run hd (n + 1) hg c).mismatchesAt c.cursor
      | accept p =>
          rw [run, runLevel]
          split
          · exact fun h => Verdict.noConfusion h
          · exact fun _ => rfl
      | literal text =>
          rw [run, runLevel]
          split
          · exact fun h => Verdict.noConfusion h
          · exact fun _ => rfl
      | pattern source matcher =>
          rw [run, runLevel]
          split
          · exact fun h => Verdict.noConfusion h
          · exact fun _ => rfl
      | fail => exact fun _ => rfl
      | manyOne item =>
          rw [run, runLevel]
          exact env.mismatchesAt_iterate_one item (env.orderly_run n item) n c
      | any kind action parts =>
          rw [run, runLevel]
          refine Ends.bind (env.mismatchesAt_runAny (env.orderly_run n) parts 0 c) fun p hp => ?_
          split
          · exact Outcome.mismatchesAt_andThen hp (env.neverMismatches_act _ kind action _ _ _)
          · exact hp
      | attempt item =>
          rw [run, runLevel]
          exact env.mismatchesAt_speculation (env.orderly_run n item) item _ c
      | attemptPure item =>
          rw [run, runLevel]
          exact env.mismatchesAt_speculation (env.orderly_run n item) item _ c
      | @sequence a b ha hb =>
          rw [run, runLevel]
          refine Ends.bind (ih ha c) fun o ho => ?_
          exact o.mismatchesAt_andThen ho (hnever hb o.config)
      | @all kind action part parts hpart hparts =>
          rw [run, runLevel]
          have hvalues := mismatchesAt_runAll (ih hpart) (fun part h => hnever (hparts part h)) c
          refine Ends.bind hvalues fun p hp => ?_
          exact p.2.mismatchesAt_andThen hp (env.neverMismatches_act _ kind action _ _ _)
      | @choice a b hb =>
          rw [run, runLevel]
          refine Ends.bind_of_eq fun o ho => ?_
          have honward : c.cursor.Onward o.config.cursor := (env.orderly_run n a c).of_eq_ok ho
          exact env.mismatchesAt_orElse honward (ih hb o.config) _ _
      | @sepBy item hitem separator =>
          rw [run, runLevel]
          refine Ends.bind (ih hitem c) fun o ho => ?_
          exact o.mismatchesAt_andThen ho (env.neverMismatches_iterate_zero _ n o.config)
      | @except kind item hitem forbidden =>
          rw [run, runLevel]
          refine Ends.bind_of_eq fun o ho => ?_
          have honward := (env.orderly_run n item _).of_eq_ok ho
          exact env.mismatchesAt_settleExcept honward ((ih hitem _).of_eq_ok ho) _ forbidden
      | @discard item hitem =>
          rw [run, runLevel]
          exact Ends.bind (ih hitem _) fun o ho => ho
      | @trace label item hitem =>
          rw [run, runLevel]
          refine Ends.bind (ih hitem c) fun o ho => ?_
          exact Ends.bind_of_eq fun _ _ => ho
      | @token item hitem =>
          rw [run, runLevel]
          refine Ends.bind (ih hitem c) fun o ho => ?_
          exact o.mismatchesAt_andThen ho Verdict.noConfusion
      | shared hitem => exact ih hitem c
      | reference name hitem => exact ih hitem c
      | define name hitem => exact ih hitem c
      | rename name rank hitem => exact ih hitem c
      | @handle slot hslot =>
          rw [run, runLevel]
          split
          · exact ih (hd.guarded (.slot slot) _ ‹_› hslot) c
          · exact (env.neverMismatches_raiseUndefined c).mismatchesAt c.cursor
      | @fixed hold name rule hrule =>
          rw [run, runLevel]
          split
          · exact ih (hd.guarded (.fixed rule) _ ‹_› hrule) c
          · exact (env.neverMismatches_raiseUndefined c).mismatchesAt c.cursor

/-- Whatever is consistently assumed of the rules of the store, an infallible grammar never
mismatches, and a guarded grammar that mismatches leaves the cursor where it was. -/
theorem mismatch_of_consistent (hd : d.Consistent env.store) (g : Grammar σ) (c : Config σ)
    (o : Outcome σ) (ho : env.Yields g c o) :
    (d.Infallible g → o.verdict ≠ .mismatched) ∧
      (d.Guarded g → o.verdict = .mismatched → o.config.cursor = c.cursor) := by
  obtain ⟨n, hn⟩ := ho
  constructor
  · intro hg
    exact (neverMismatches_run hd n hg c).of_eq_ok hn
  · intro hg
    exact (mismatchesAt_run hd n hg c).of_eq_ok hn

/-- A rule that is infallible because it is assumed to be: an `a`, and then a full stop or the same
rule once more. -/
theorem mismatch_of_consistent_selfReference :
    let rule : Grammar Nat :=
      .sequence (.expect (.symbol 'a')) (.choice (.accept (.symbol '.')) (.handle ⟨0, 0⟩))
    let env : Environment Nat := ⟨⟨⟨[some [some (.rule rule)]]⟩, []⟩, .off⟩
    let d : Discipline := ⟨(· = .slot ⟨0, 0⟩), fun _ => False⟩
    let g : Grammar Nat := .sequence (.accept (.symbol 'b')) (.handle ⟨0, 0⟩)
    let c (input : List Char) : Config Nat := ⟨.ofInput input, none, 0⟩
    d.Consistent env.store ∧ d.Guarded g ∧
      (∃ o, env.Yields (.handle ⟨0, 0⟩) (c ['a', 'a', '.']) o ∧ o.verdict ≠ .mismatched) ∧
        ∃ o, env.Yields g (c ['a', 'a', '.']) o ∧ o.verdict = .mismatched ∧
          o.config.cursor = .ofInput ['a', 'a', '.'] := by
  intro rule env d g c
  have hhandle : d.Infallible (.handle ⟨0, 0⟩ : Grammar Nat) := .handle rfl
  have hd : d.Consistent env.store := by
    constructor
    · rintro name body hbody rfl
      obtain rfl : rule = body := Option.some.inj hbody
      exact .sequence (.expect _) (.choiceSecond _ hhandle)
    · exact fun _ _ _ hguarded => hguarded.elim
  have hg : d.Guarded g := .sequence (.accept _) hhandle
  refine ⟨hd, hg, ⟨_, ⟨9, rfl⟩, ?_⟩, ⟨_, ⟨9, rfl⟩, rfl, ?_⟩⟩
  · exact (mismatch_of_consistent hd _ (c ['a', 'a', '.']) _ ⟨9, rfl⟩).1 hhandle
  · exact (mismatch_of_consistent hd g (c ['a', 'a', '.']) _ ⟨9, rfl⟩).2 hg rfl

end Environment

end ParserAlgebra
