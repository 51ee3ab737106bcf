import ParserAlgebra.Proofs.Correspondence
import ParserAlgebra.Proofs.Framing

/-!
# Grammars that are built alike

What a run of a grammar does depends on runs of its components and on its actions. So two grammars
that are put together by the same operator, of components whose runs follow each other, have runs
that follow each other. This is said once, for all ways of comparing two runs: with the same bound
or with a larger one, on the same input or on another one, into equal slots or into others.

From it comes the induction over runs. A judgement of pairs of grammars is right if each pair rests
on judgements of components, possibly after nodes have been taken off that pass on what is under
them; rules may refer to each other in circles.
-/

namespace ParserAlgebra

variable {σ : Type}

/-- A judgement of pairs of grammars whose runs keep a relation between their slots. -/
abbrev Judgement (σ : Type) :=
  SlotRelation → Grammar σ → Grammar σ → Prop

/-- The calls of its action that a grammar may make, if the values of its parts are among the
contents of slots of their kinds. -/
inductive Grammar.Calls (H : Contents) : Grammar σ → Kind → Action σ → Arguments → Prop
  | all {kind : Kind} {action : Action σ} {parts : List (Kind × Grammar σ)} {values : List Value}
      (hvalues : List.Forall₂ (fun v part => H.holds part.1 v) values parts) :
      Calls H (.all kind action parts) kind action ⟨values, none⟩
  | any {kind : Kind} {action : Action σ} {parts : List (Kind × Grammar σ)} {i : Nat}
      {part : Kind × Grammar σ} {v : Value} (hpart : parts[i]? = some part)
      (hvalue : H.holds part.1 v) : Calls H (.any kind action parts) kind action ⟨[v], some i⟩

/-- A correspondence of cursors that have the same text ahead. -/
structure Correspondence.Faithful (K : Correspondence) : Prop where
  ahead : ∀ {c d}, K.cursor c d → c.ahead = d.ahead
  advance : ∀ {c d}, K.cursor c d → K.cursor c.advance d.advance
  advanceTo : ∀ {c d}, K.cursor c d → ∀ text,
    K.cursor (c.advanceTo (c.offset + Text.byteLength text))
      (d.advanceTo (d.offset + Text.byteLength text))

/-- A relation between slots that are given the same text. -/
def SlotRelation.TakesText (S : SlotRelation) : Prop :=
  ∀ slot slot' text, S slot slot' → S (slot.map (·.pushText text)) (slot'.map (·.pushText text))

/-- Whether a grammar looks at the input itself. -/
def Grammar.Reads : Grammar σ → Prop
  | .accept _ | .expect _ | .literal _ | .pattern _ _ => True
  | _ => False

theorem SlotRelation.TakesText.eq : SlotRelation.TakesText Eq := by
  rintro slot _ text rfl
  rfl

/-- A slot stays related to another one where both take the contents of an inner slot, if they are
there at all. -/
def SlotRelation.Takes (S : SlotRelation) (H : Contents) (kind : Kind) : Prop :=
  ∀ slot slot' inner, S slot slot' → (∀ v ∈ inner, H.holds kind v) →
    S (if slot.isSome then inner else none) (if slot'.isSome then inner else none)

theorem SlotRelation.Takes.eq (H : Contents) (kind : Kind) : SlotRelation.Takes Eq H kind := by
  rintro slot _ inner rfl _
  rfl

/-- Parts of the same kind that are judged for slots that are equal. -/
structure Judgement.Parts (J : Judgement σ) (H : Contents) (part part' : Kind × Grammar σ) :
    Prop where
  kind : part.1 = part'.1
  judged : J (H.Same part.1) part.2 part'.2

/-- Two grammars of the same operator, with components that are judged in pairs. Those that are run
into slots of their own have to keep these slots equal. -/
inductive Store.Supports (store : Store σ) (H : Contents) (J : Judgement σ) (S : SlotRelation) :
    Grammar σ → Grammar σ → Prop
  | succeed : store.Supports H J S .succeed .succeed
  | fail : store.Supports H J S .fail .fail
  | sequence {a a' b b' : Grammar σ} (ha : J S a a') (hb : J S b b') :
      store.Supports H J S (.sequence a b) (.sequence a' b')
  | choice {a a' b b' : Grammar σ} (ha : J S a a') (hb : J S b b') :
      store.Supports H J S (.choice a b) (.choice a' b')
  | repetition (atLeast : Nat) {g g' : Grammar σ} (h : J S g g') :
      store.Supports H J S (.repetition atLeast g) (.repetition atLeast g')
  | option {g g' : Grammar σ} (h : J S g g') : store.Supports H J S (.option g) (.option g')
  | sepBy {item item' separator separator' : Grammar σ} (hitem : J S item item') (kind : Kind)
      (hseparator : J (H.Same kind) separator separator') :
      store.Supports H J S (.sepBy item separator) (.sepBy item' separator')
  | discard (kind : Kind) {g g' : Grammar σ} (h : J (H.Same kind) g g') :
      store.Supports H J S (.discard g) (.discard g')
  | except (kind : Kind) {g g' : Grammar σ} (h : J (H.Same kind) g g') (forbidden : Value)
      (htakes : S.Takes H kind) :
      store.Supports H J S (.except kind g forbidden) (.except kind g' forbidden)
  | attempt {g g' : Grammar σ} (h : J S g g') : store.Supports H J S (.attempt g) (.attempt g')
  | attemptPure {g g' : Grammar σ} (h : J S g g') :
      store.Supports H J S (.attemptPure g) (.attemptPure g')
  | strict (message : String) {g g' : Grammar σ} (h : J S g g') :
      store.Supports H J S (.strict message g) (.strict message g')
  | trace (label : String) {g g' : Grammar σ} (h : J S g g') :
      store.Supports H J S (.trace label g) (.trace label g')
  | token {g g' : Grammar σ} (h : J S g g') : store.Supports H J S (.token g) (.token g')
  | shared {g g' : Grammar σ} (h : J S g g') : store.Supports H J S (.shared g) (.shared g')
  | reference (name : String) {g g' : Grammar σ} (h : J S g g') :
      store.Supports H J S (.reference name g) (.reference name g')
  | define (name : String) {g g' : Grammar σ} (h : J S g g') :
      store.Supports H J S (.define name g) (.define name g')
  | rename (name : String) (rank : Rank) {g g' : Grammar σ} (h : J S g g') :
      store.Supports H J S (.rename name rank g) (.rename name rank g')
  | all (kind : Kind) (action : Action σ) {parts parts' : List (Kind × Grammar σ)}
      (hparts : List.Forall₂ (J.Parts H) parts parts')
      (haction : ∀ args, (Grammar.all kind action parts).Calls H kind action args →
        action.Respects S kind args) :
      store.Supports H J S (.all kind action parts) (.all kind action parts')
  | any (kind : Kind) (action : Action σ) {parts parts' : List (Kind × Grammar σ)}
      (hparts : List.Forall₂ (J.Parts H) parts parts')
      (haction : ∀ args, (Grammar.any kind action parts).Calls H kind action args →
        action.Respects S kind args) :
      store.Supports H J S (.any kind action parts) (.any kind action parts')
  | handle {slot slot' : Slot}
      (hrule : Option.Rel (J S) (store.handle? slot) (store.handle? slot')) :
      store.Supports H J S (.handle slot) (.handle slot')
  | fixed (hold hold' : Hold) (name : String) {rule rule' : RuleId}
      (hrule : Option.Rel (J S) (store.fixed? rule) (store.fixed? rule')) :
      store.Supports H J S (.fixed hold name rule) (.fixed hold' name rule')

namespace Environment

open Correspondence Comparison

variable {env : Environment σ} {K : Correspondence} {V : Comparison} {H : Contents}
  {J : Judgement σ} {S : SlotRelation} {g g' a : Grammar σ} {c d : Config σ} {o p : Outcome σ}
  {n : Nat}

/-- If one of two grammars calls no action, then neither of two runs that end in the same state has
changed it. -/
theorem mayAct_eq_or_state_eq {m : Nat} (ho : env.run n g c = .ok o) (hp : env.run m g' d = .ok p)
    (hbegan : c.state = d.state) (hended : o.config.state = p.config.state) :
    g.mayAct = g'.mayAct ∨ o.config.state = c.state := by
  cases hleft : g.mayAct with
  | false => exact .inr (env.state_eq_of_run hleft ho)
  | true =>
      cases hright : g'.mayAct with
      | false => exact .inr (hended.trans ((env.state_eq_of_run hright hp).trans hbegan.symm))
      | true => exact .inl rfl

theorem stepFollows_zero : K.StepFollows V 0 S (env.run 0 g) fun m => env.run m g' :=
  fun c d _ => .zero Filter.tendsto_id fun m hm => by subst hm; rfl

/-- Steps that are runs of grammars are orderly. -/
theorem orderlySteps_run (h : K.StepFollows V n S (env.run n g) fun m => env.run m g') :
    OrderlySteps K V n S (env.run n g) fun m => env.run m g' :=
  ⟨h, env.orderly_run n g, fun m => env.orderly_run m g'⟩

/-- One level of a run, given the runs of the components one level below. -/
theorem follows_run_succ (hblames : ∀ S g g', J S g g' → K.Blames env g g')
    (hrun : ∀ S g g', J S g g' → K.StepFollows V n S (env.run n g) fun m => env.run m g')
    (hwhole : K.Blames env g g') (h : env.store.Supports H J S g g') :
    K.StepFollows V (n + 1) S (env.run (n + 1) g) fun m => env.run m g' := by
  intro c d hcd
  have halong := Alongside.refl hcd
  have hsteps {S : SlotRelation} {g g' : Grammar σ} (h : J S g g') :=
    orderlySteps_run (hrun S g g' h)
  have hparts {parts parts' : List (Kind × Grammar σ)}
      (h : List.Forall₂ (J.Parts H) parts parts') :
      List.Forall₂ (PartFollows env K V n H (env.run n) env.run) parts parts' :=
    h.imp fun part part' hpart => ⟨hpart.kind, hsteps hpart.judged, hblames _ _ _ hpart.judged⟩
  apply Follows.succ
  cases h with
  | succeed => exact .ok hcd.matched
  | fail => exact .ok hcd.mismatched
  | sequence ha hb =>
      simp only [run, runLevel]
      exact (hrun _ _ _ ha c d hcd).bind fun o p _ _ _ hop =>
        follows_andThen hop fun _ => hrun _ _ _ hb _ _ hop.config
  | choice ha hb =>
      simp only [run, runLevel]
      refine (hrun _ _ _ ha c d hcd).bind fun o p _ ho hp hop => ?_
      exact follows_orElse ((hsteps ha).alongside halong ho hp hop) hop (hblames _ _ _ ha)
        (hrun _ _ _ hb _ _ hop.config) _
  | repetition atLeast h =>
      simp only [run, runLevel]
      exact follows_iterate (hsteps h) (hblames _ _ _ h) Filter.tendsto_id atLeast c d hcd
  | option h =>
      simp only [run, runLevel]
      refine (hrun _ _ _ h c d hcd).bind fun o p _ ho hp hop => ?_
      exact follows_orElse ((hsteps h).alongside halong ho hp hop) hop (hblames _ _ _ h)
        (.ok hop.config.matched) _
  | @sepBy item item' separator separator' hitem kind hseparator =>
      simp only [run, runLevel]
      refine (hrun _ _ _ hitem c d hcd).bind fun o p _ _ _ hop => follows_andThen hop fun _ => ?_
      refine follows_iterate ⟨fun c d hcd => ?_, env.orderly_separated n item separator,
        fun m => env.orderly_separated m item' separator'⟩ hwhole Filter.tendsto_id 0 _ _ hop.config
      -- The separators have no slot, so theirs are equal whatever the items are run into.
      have hfresh := hcd.withSlots (H.same_none kind)
      refine (hrun _ _ _ hseparator _ _ hfresh).bind fun o p _ _ _ hop => ?_
      have hback : K.Outcomes S (o.withSlot c.slot) (p.withSlot d.slot) := hop.withSlots hcd.slot
      exact follows_andThen hback fun _ => hrun _ _ _ hitem _ _ hback.config
  | discard kind h =>
      simp only [run, runLevel]
      have hfresh := hcd.withSlots (H.same_none kind)
      exact (hrun _ _ _ h _ _ hfresh).bind fun o p _ _ _ hop => .ok (hop.withSlots hcd.slot)
  | except kind h forbidden htakes =>
      simp only [run, runLevel]
      have hfresh := hcd.checkpoint.withSlots (H.same_default kind)
      refine (hrun _ _ _ h _ _ hfresh).bind fun o p _ ho hp hop => .of_endsAlike ?_
      have halong := (hsteps h).alongside (.refl hfresh) ho hp hop
      have hmayAct := mayAct_eq_or_state_eq ho hp hcd.state hop.config.state
      obtain ⟨hsame, hholds⟩ := hop.config.slot
      refine endsAlike_settleExcept (fun _ _ h => h.1) hcd hop halong.onward halong.onward' hmayAct
        forbidden ?_
      rw [← hsame]
      exact htakes _ _ _ hcd.slot hholds
  | attempt h =>
      simp only [run, runLevel]
      refine (hrun _ _ _ h _ _ hcd.checkpoint).bind fun o p _ ho hp hop => .of_endsAlike ?_
      have halong := (hsteps h).alongside (.refl hcd.checkpoint) ho hp hop
      have hmayAct := mayAct_eq_or_state_eq ho hp hcd.state hop.config.state
      exact endsAlike_settle hcd hop halong.onward halong.onward' (hblames _ _ _ h) hmayAct
  | attemptPure h =>
      simp only [run, runLevel]
      refine (hrun _ _ _ h _ _ hcd.checkpoint).bind fun o p _ ho hp hop => .of_endsAlike ?_
      have halong := (hsteps h).alongside (.refl hcd.checkpoint) ho hp hop
      exact endsAlike_settle hcd hop halong.onward halong.onward' (hblames _ _ _ h) (.inl rfl)
  | strict message h =>
      simp only [run, runLevel]
      refine (hrun _ _ _ h c d hcd).bind fun o p _ ho hp hop => .of_endsAlike ?_
      exact endsAlike_strict ((hsteps h).alongside halong ho hp hop) hop (hblames _ _ _ h) message
  | trace label h =>
      simp only [run, runLevel]
      refine (hrun _ _ _ h c d hcd).bind fun o p _ ho hp hop => .of_endsAlike ?_
      have hended := (hsteps h).alongside halong ho hp hop
      refine (endsAlike_traceRecords hended hop label).bind fun l l' _ _ hl => .ok ?_
      exact ⟨hop.verdict, hop.config, fun hlogs => congrArg₂ _ (hop.records hlogs) (hl hlogs)⟩
  | token h =>
      simp only [run, runLevel]
      refine (hrun _ _ _ h c d hcd).bind fun o p _ _ _ hop => follows_andThen hop fun _ => .ok ?_
      exact ⟨.matched, ⟨K.skipBlanks hop.config.cursor, hop.config.slot, hop.config.state⟩,
        fun _ => rfl⟩
  | shared h | reference _ h | define _ h | rename _ _ h => exact hrun _ _ _ h c d hcd
  | @all kind action parts parts' h haction =>
      simp only [run, runLevel]
      refine (follows_runAll (hparts h) hcd).bind fun a b m ha hb hab => ?_
      obtain ⟨vs, o⟩ := a
      obtain ⟨vs', p⟩ := b
      obtain ⟨hvalues, hholds, hop⟩ := hab
      obtain rfl : vs = vs' := hvalues
      have hended : Alongside K S c d o.config p.config :=
        ⟨hcd.cursor, hop.config, (orderly_runAll (env.orderly_run n) parts c).of_eq_ok ha,
          (orderly_runAll (env.orderly_run m) parts' d).of_eq_ok hb⟩
      exact follows_andThen hop fun hmatched =>
        .of_endsAlike (endsAlike_act hended hwhole (haction _ (.all (hholds hmatched))))
  | @any kind action parts parts' h haction =>
      simp only [run, runLevel]
      refine (follows_runAny (hparts h) List.drop_zero halong).bind fun a b m ha hb hab => ?_
      obtain ⟨found, o⟩ := a
      obtain ⟨found', p⟩ := b
      obtain ⟨hfound, hholds, hop⟩ := hab
      obtain rfl : found = found' := hfound
      have hended : Alongside K S c d o.config p.config :=
        ⟨hcd.cursor, hop.config,
          (env.orderly_runAny (env.orderly_run n) parts 0 (.refl _)).of_eq_ok ha,
          (env.orderly_runAny (env.orderly_run m) parts' 0 (.refl _)).of_eq_ok hb⟩
      cases found with
      | none => exact .ok hop
      | some iv =>
          obtain ⟨i, v⟩ := iv
          obtain ⟨part, hpart, hvalue⟩ := hholds i v rfl
          exact follows_andThen hop fun _ =>
            .of_endsAlike (endsAlike_act hended hwhole (haction _ (.any hpart hvalue)))
  | @handle slot slot' hrule =>
      simp only [run, runLevel]
      cases hleft : env.store.handle? slot <;> cases hright : env.store.handle? slot' <;>
        rw [hleft, hright] at hrule <;> cases hrule
      · exact .of_endsAlike (endsAlike_raiseUndefined hcd)
      · exact hrun _ _ _ ‹_› c d hcd
  | @fixed hold hold' name rule rule' hrule =>
      simp only [run, runLevel]
      cases hleft : env.store.fixed? rule <;> cases hright : env.store.fixed? rule' <;>
        rw [hleft, hright] at hrule <;> cases hrule
      · exact .of_endsAlike (endsAlike_raiseUndefined hcd)
      · exact hrun _ _ _ ‹_› c d hcd

section Reads

variable (hK : K.Faithful) (hS : S.TakesText)

include hK hS

theorem configs_takeSymbol (h : K.Configs S c d) : K.Configs S c.takeSymbol d.takeSymbol := by
  have hsymbol : c.cursor.symbol? = d.cursor.symbol? := congrArg List.head? (hK.ahead h.cursor)
  unfold Config.takeSymbol
  rw [hsymbol]
  split
  · exact h
  · exact ⟨hK.advance h.cursor, hS _ _ _ h.slot, h.state⟩

theorem configs_take (h : K.Configs S c d) (text : List Char) :
    K.Configs S (c.take text) (d.take text) :=
  ⟨hK.advanceTo h.cursor text, hS _ _ _ h.slot, h.state⟩

/-- Grammars that look at the input themselves see the same. A regular expression also sees what
stands before. -/
theorem follows_of_reads {g : Grammar σ} (hg : g.Reads)
    (hpattern : ∀ source matcher, g = .pattern source matcher →
      ∀ c d, K.cursor c d → c.before? = d.before?) (n : Nat) :
    K.StepFollows V n S (env.run n g) fun m => env.run m g := by
  intro c d h
  cases n with
  | zero => exact stepFollows_zero c d h
  | succ n =>
      have hahead := hK.ahead h.cursor
      have hsymbol : c.cursor.symbol? = d.cursor.symbol? := congrArg List.head? hahead
      apply Follows.succ
      cases g with
      | accept p =>
          simp only [run, runLevel, hsymbol]
          split
          · exact .ok (configs_takeSymbol hK hS h).matched
          · exact .ok h.mismatched
      | expect p =>
          simp only [run, runLevel, hsymbol]
          split
          · exact .ok (configs_takeSymbol hK hS h).matched
          · refine .of_endsAlike (endsAlike_raiseFor (.refl h) (.refl K env _) .expected ?_ _)
            simp
      | literal s =>
          simp only [run, runLevel, hahead]
          split
          · exact .ok (configs_take hK hS h s.toList).matched
          · exact .ok h.mismatched
      | pattern source matcher =>
          simp only [run, runLevel, hahead, hpattern source matcher rfl _ _ h.cursor]
          cases matcher.matchAhead? d.cursor.before? d.cursor.ahead with
          | some text => exact .ok (configs_take hK hS h text).matched
          | none => exact .ok h.mismatched
      | _ => exact hg.elim

end Reads

/-- Where no bound is too large, a grammar that does what another one does, nesting one deeper. It
may make other records if they are not compared, and stop of its own if that is let pass. -/
structure PassesOn (env : Environment σ) (logs : Prop) (V : Comparison) (g a : Grammar σ) :
    Prop where
  bounds : ∀ n m, V.bounds n = V.bounds m
  run : ∀ c, ∃ f : Outcome σ → Except Stop (Outcome σ),
    (∀ n, env.run (n + 1) g c = env.run n a c >>= f) ∧
      ∀ o, (∃ p, f o = .ok p ∧ p.verdict = o.verdict ∧ p.config = o.config ∧
          (logs → p.records = o.records)) ∨
        ∃ stop, f o = .error stop ∧ V.excuses stop ∧ V.permits stop

theorem PassesOn.of_run_succ {logs : Prop} (hbounds : ∀ n m, V.bounds n = V.bounds m)
    (h : ∀ n c, env.run (n + 1) g c = env.run n a c) : env.PassesOn logs V g a := by
  refine ⟨hbounds, fun c => ⟨pure, fun n => ?_, fun o => .inl ⟨o, rfl, rfl, rfl, fun _ => rfl⟩⟩⟩
  rw [h, bind_pure]

theorem PassesOn.stepFollows_left {step' : Nat → Step σ} (hcover : env.PassesOn K.logs V g a)
    (h : K.StepFollows V n S (env.run n a) step') :
    K.StepFollows V (n + 1) S (env.run (n + 1) g) step' := by
  intro c d hcd
  obtain ⟨f, hrun, hf⟩ := hcover.run c
  rw [hrun n]
  refine .of_bounds_eq (hcover.bounds n (n + 1)) ((h c d hcd).bind_left fun o p hop => ?_)
  rcases hf o with ⟨o', ho', hverdict, hconfig, hrecords⟩ | ⟨stop, hstop, hexcused, -⟩
  · refine .inl ⟨o', ho', hverdict ▸ hop.verdict, hconfig ▸ hop.config, fun hlogs => ?_⟩
    rw [hrecords hlogs, hop.records hlogs]
  · exact .inr ⟨stop, hstop, hexcused⟩

theorem PassesOn.stepFollows_right {step : Step σ} (hcover : env.PassesOn K.logs V g a)
    (h : K.StepFollows V n S step fun m => env.run m a) :
    K.StepFollows V n S step fun m => env.run m g := by
  intro c d hcd
  obtain ⟨f, hrun, hf⟩ := hcover.run d
  refine .of_bounds_eq (hcover.bounds (n + 1) n) (.succ ?_)
  simp only [hrun]
  refine (h c d hcd).bind_right fun o p hop => ?_
  rcases hf p with ⟨p', hp', hverdict, hconfig, hrecords⟩ | ⟨stop, hstop, -, hpermitted⟩
  · refine .inl ⟨p', hp', hverdict ▸ hop.verdict, hconfig ▸ hop.config, fun hlogs => ?_⟩
    rw [hrecords hlogs, hop.records hlogs]
  · exact .inr ⟨stop, hstop, hpermitted⟩

/-- What a judgement of two grammars may rest on: their runs, or judgements of their components.
Before that, nodes that pass on what is under them may be taken off, so many on either side. Taking
one off on the left makes the run shorter, so a judgement may be called on again behind it. -/
inductive RestsOn (env : Environment σ) (K : Correspondence) (V : Comparison) (H : Contents)
    (J : Judgement σ) (S : SlotRelation) : Grammar σ → Grammar σ → Prop
  | follows {g g' : Grammar σ} (h : ∀ n, K.StepFollows V n S (env.run n g) fun m => env.run m g') :
      env.RestsOn K V H J S g g'
  | supports {g g' : Grammar σ} (hblames : K.Blames env g g') (h : env.store.Supports H J S g g') :
      env.RestsOn K V H J S g g'
  | left {g g' a : Grammar σ} (hcover : env.PassesOn K.logs V g a)
      (h : env.RestsOn K V H J S a g') : env.RestsOn K V H J S g g'
  | right {g g' a : Grammar σ} (hcover : env.PassesOn K.logs V g' a)
      (h : env.RestsOn K V H J S g a) : env.RestsOn K V H J S g g'
  | judged {g g' a : Grammar σ} (hcover : env.PassesOn K.logs V g a) (h : J S a g') :
      env.RestsOn K V H J S g g'

/-- What a judgement rests on makes it right at a depth if judgements are right at smaller ones. -/
theorem RestsOn.stepFollows (h : env.RestsOn K V H J S g g')
    (hblames : ∀ S g g', J S g g' → K.Blames env g g') (n : Nat)
    (hJ : ∀ k < n, ∀ S g g', J S g g' →
      K.StepFollows V k S (env.run k g) fun m => env.run m g') :
    K.StepFollows V n S (env.run n g) fun m => env.run m g' := by
  induction h generalizing n with
  | follows h => exact h n
  | right hcover _ ih => exact hcover.stepFollows_right (ih n hJ)
  | supports hwhole h =>
      cases n with
      | zero => exact stepFollows_zero
      | succ n => exact follows_run_succ hblames (hJ n n.lt_succ_self) hwhole h
  | left hcover _ ih =>
      cases n with
      | zero => exact stepFollows_zero
      | succ n =>
          have hshallower := ih n fun k hk => hJ k (hk.trans n.lt_succ_self)
          exact hcover.stepFollows_left hshallower
  | judged hcover h =>
      cases n with
      | zero => exact stepFollows_zero
      | succ n => exact hcover.stepFollows_left (hJ n n.lt_succ_self _ _ _ h)

/-- By induction on how deep a run may nest: a judgement is right if it rests, wherever it is not
about the runs themselves, on judgements of the components. -/
theorem follows_run (hblames : ∀ S g g', J S g g' → K.Blames env g g')
    (hJ : ∀ S g g', J S g g' → env.RestsOn K V H J S g g') (n : Nat) (h : J S g g') :
    K.StepFollows V n S (env.run n g) fun m => env.run m g' := by
  induction n using Nat.strong_induction_on generalizing S g g' with
  | _ n ih => exact (hJ S g g' h).stepFollows hblames n fun k hk S g g' h => ih k hk h

end Environment

end ParserAlgebra
