import ParserAlgebra.Proofs.Comparison
import ParserAlgebra.Proofs.Rendering
import ParserAlgebra.Proofs.Upkeep

/-!
# Runs that are put together alike

Two runs, of one grammar on different inputs or into different slots, or of two grammars that are
built alike, can be told apart by the cursors, by what errors say and by what is left in the slots.
A correspondence says when two cursors, two errors and what is expected in them are alike; it has to
be kept by what combinators do with cursors, and errors made at such cursors have to be alike. Then
each way of putting steps together makes steps that follow each other out of steps that do, however
the two are compared and whatever relation there is between their slots.
-/

namespace ParserAlgebra

variable {σ α β α' β' : Type}

/-- The same verdict, or errors that are related. -/
inductive Verdict.Alike (R : ParseError → ParseError → Prop) : Verdict → Verdict → Prop
  | matched : Alike R .matched .matched
  | mismatched : Alike R .mismatched .mismatched
  | failed {e e' : ParseError} (he : R e e') : Alike R (.failed e) (.failed e')

namespace Verdict.Alike

variable {R : ParseError → ParseError → Prop} {v w : Verdict}

theorem matched_iff (h : v.Alike R w) : v = .matched ↔ w = .matched := by
  cases h <;> simp

theorem exists_of_failed {e' : ParseError} (h : v.Alike R (.failed e')) :
    ∃ e, v = .failed e ∧ R e e' := by
  cases h with
  | failed he => exact ⟨_, rfl, he⟩

theorem eq (h : v.Alike Eq w) : v = w := by
  cases h with
  | matched => rfl
  | mismatched => rfl
  | failed he => rw [he]

end Verdict.Alike

/-- A relation between the slots of two runs. -/
abbrev SlotRelation :=
  Option Value → Option Value → Prop

/-- What slots of a kind may come to hold that begin with the initial value of the kind. -/
structure Contents where
  holds : Kind → Value → Prop
  default : ∀ kind, holds kind kind.default

namespace Contents

/-- The same slot in both runs, and what it holds. -/
def Same (H : Contents) (kind : Kind) : SlotRelation := fun slot slot' =>
  slot = slot' ∧ ∀ v ∈ slot, H.holds kind v

theorem same_default (H : Contents) (kind : Kind) :
    H.Same kind (some kind.default) (some kind.default) := by
  refine ⟨rfl, fun v hv => ?_⟩
  rw [← Option.some.inj hv]
  exact H.default kind

theorem same_none (H : Contents) (kind : Kind) : H.Same kind none none :=
  ⟨rfl, by simp⟩

/-- Slots of which nothing is said but that they are the same. -/
def anything : Contents where
  holds _ _ := True
  default _ := trivial

@[simp] theorem same_anything (kind : Kind) : anything.Same kind = Eq := by
  funext slot slot'
  exact propext ⟨fun h => h.1, fun h => ⟨h, fun _ _ => trivial⟩⟩

end Contents

/-- Two effects of an action that differ in what they leave in the slot only. -/
structure Effect.Alike (e e' : Effect σ) : Prop where
  failure : e.failure.map Failure.message = e'.failure.map Failure.message
  state : e.state = e'.state

/-- An action that leaves related slots where it finds related slots, and does nothing else by which
they could be told apart. -/
def Action.Respects (S : SlotRelation) (kind : Kind) (args : Arguments) (action : Action σ) :
    Prop :=
  ∀ slot slot' state, S slot slot' →
    let effect := action args (slot.getD kind.default) state
    let effect' := action args (slot'.getD kind.default) state
    effect.Alike effect' ∧ S (slot.map fun _ => effect.slot) (slot'.map fun _ => effect'.slot)

theorem Action.respects_eq (kind : Kind) (args : Arguments) (action : Action σ) :
    action.Respects Eq kind args := by
  rintro slot _ state rfl
  exact ⟨⟨rfl, rfl⟩, rfl⟩

/-- When two cursors, two errors and what is expected in them are alike. From cursors that are
alike, others that are alike have both moved or have both not moved, and errors that are made there
are alike. -/
structure Correspondence where
  cursor : Cursor → Cursor → Prop
  error : ParseError → ParseError → Prop
  expectation : Expectation → Expectation → Prop
  /-- Whether the records have to be the same. -/
  logs : Prop
  expectation_refl : ∀ x, expectation x x
  checkpoint : ∀ {c d}, cursor c d → cursor c.checkpoint d.checkpoint
  commit : ∀ {c d c' d'}, cursor c d → cursor c' d' →
    cursor (c'.withCheckpoints c.checkpoints) (d'.withCheckpoints d.checkpoints)
  skipBlanks : ∀ {c d}, cursor c d →
    cursor (c.skipWhile Unicode.isBlank) (d.skipWhile Unicode.isBlank)
  moved : ∀ {c d c' d'}, cursor c d → cursor c' d' → c.Onward c' → d.Onward d' →
    (c'.offset = c.offset ↔ d'.offset = d.offset)
  slice : ∀ {c d c' d'}, cursor c d → cursor c' d' → c.Onward c' → d.Onward d' →
    EndsAlike (fun _ _ => True) ((c'.slice (c'.spanFrom c.position)).mapError .fault)
      ((d'.slice (d'.spanFrom d.position)).mapError .fault)
  locate : ∀ {c d c' d'}, cursor c d → cursor c' d' → c.Onward c' → d.Onward d' →
    ∀ kind message {x x'}, expectation x x' → EndsAlike error
      ((ParseError.locate kind message x c.position
        (if kind = .action then c.position else c'.position) c').mapError .fault)
      ((ParseError.locate kind message x' d.position
        (if kind = .action then d.position else d'.position) d').mapError .fault)
  cursor_eq : logs → ∀ {c d}, cursor c d → c = d
  error_texts : logs → ∀ {e e'}, error e e' → e.headline = e'.headline ∧ e.summary = e'.summary

namespace Correspondence

variable (K : Correspondence)

/-- Configurations with cursors that are alike, related slots and the same state. -/
structure Configs (S : SlotRelation) (c d : Config σ) : Prop where
  cursor : K.cursor c.cursor d.cursor
  slot : S c.slot d.slot
  state : c.state = d.state

structure Outcomes (S : SlotRelation) (o p : Outcome σ) : Prop where
  verdict : o.verdict.Alike K.error p.verdict
  config : K.Configs S o.config p.config
  records : K.logs → o.records = p.records

/-- Two steps that, begun in step, end in step. -/
def InStep (S : SlotRelation) (step step' : Step σ) : Prop :=
  ∀ c d, K.Configs S c d → EndsAlike (K.Outcomes S) (step c) (step' d)

/-- A step and another one, with a bound of its own, that follows it from where both began alike. -/
def StepFollows (V : Comparison) (n : Nat) (S : SlotRelation) (step : Step σ)
    (step' : Nat → Step σ) : Prop :=
  ∀ c d, K.Configs S c d → V.Follows n (K.Outcomes S) (step c) fun m => step' m d

/-- Grammars that can be named for each other in errors and in records. -/
structure Blames (env : Environment σ) (g g' : Grammar σ) : Prop where
  expectation : EndsAlike K.expectation (env.expectationOf g) (env.expectationOf g')
  ebnf : K.logs → env.store.ebnf g = env.store.ebnf g'

variable {K} {V : Comparison} {n : Nat} {S S' : SlotRelation} {c d : Config σ} {o p : Outcome σ}

theorem stepFollows_lockstep_iff {step : Step σ} {step' : Nat → Step σ} :
    K.StepFollows .lockstep n S step step' ↔ K.InStep S step (step' n) :=
  forall₃_congr fun _ _ _ => Comparison.Follows.lockstep_iff

theorem Blames.refl (K : Correspondence) (env : Environment σ) (g : Grammar σ) :
    K.Blames env g g :=
  ⟨.of_eq fun x _ => K.expectation_refl x, fun _ => rfl⟩

namespace Configs

theorem withSlots (h : K.Configs S c d) {slot slot' : Option Value} (hslot : S' slot slot') :
    K.Configs S' { c with slot := slot } { d with slot := slot' } :=
  ⟨h.cursor, hslot, h.state⟩

theorem checkpoint (h : K.Configs S c d) :
    K.Configs S { c with cursor := c.cursor.checkpoint } { d with cursor := d.cursor.checkpoint } :=
  ⟨K.checkpoint h.cursor, h.slot, h.state⟩

theorem matched (h : K.Configs S c d) : K.Outcomes S c.matched d.matched :=
  ⟨.matched, h, fun _ => rfl⟩

theorem mismatched (h : K.Configs S c d) : K.Outcomes S c.mismatched d.mismatched :=
  ⟨.mismatched, h, fun _ => rfl⟩

/-- Both go back to where they began, with the state from before or with the one they left. Whether
they do may differ if the state has not been changed. -/
theorem takenBack (h : K.Configs S c d) {s t : σ} (hstate : s = t) {restores restores' : Bool}
    (hrestores : restores = restores' ∨ s = c.state) :
    K.Configs S (c.takenBack restores s) (d.takenBack restores' t) := by
  refine ⟨h.cursor, h.slot, ?_⟩
  change (if restores then c.state else s) = if restores' then d.state else t
  rw [← hstate, ← h.state]
  rcases hrestores with rfl | rfl
  · rfl
  · rw [ite_self, ite_self]

end Configs

namespace Outcomes

theorem after (h : K.Outcomes S o p) {earlier earlier' : List LogRecord}
    (hearlier : K.logs → earlier = earlier') :
    K.Outcomes S (o.after earlier) (p.after earlier') :=
  ⟨h.verdict, h.config, fun hlogs => congrArg₂ _ (hearlier hlogs) (h.records hlogs)⟩

theorem withSlots (h : K.Outcomes S o p) {slot slot' : Option Value} (hslot : S' slot slot') :
    K.Outcomes S' (o.withSlot slot) (p.withSlot slot') :=
  ⟨h.verdict, h.config.withSlots hslot, h.records⟩

theorem withCheckpoints (h : K.Outcomes S o p) (hbegan : K.cursor c.cursor d.cursor) :
    K.Outcomes S (o.withCheckpoints c.cursor.checkpoints)
      (p.withCheckpoints d.cursor.checkpoints) :=
  ⟨h.verdict, ⟨K.commit hbegan h.config.cursor, h.config.slot, h.config.state⟩, h.records⟩

end Outcomes

/-- Two runs that began and have come onward in step. -/
structure Alongside (K : Correspondence) (S : SlotRelation)
    (c d c' d' : Config σ) : Prop where
  began : K.cursor c.cursor d.cursor
  reached : K.Configs S c' d'
  onward : c.cursor.Onward c'.cursor
  onward' : d.cursor.Onward d'.cursor

theorem Alongside.refl (h : K.Configs S c d) : Alongside K S c d c d :=
  ⟨h.cursor, h, .refl _, .refl _⟩

/-- Two runs have come away from where they began, or neither has. -/
theorem Alongside.stayed_iff {c' d' : Config σ} (h : Alongside K S c d c' d') :
    c'.cursor.offset = c.cursor.offset ↔ d'.cursor.offset = d.cursor.offset :=
  K.moved h.began h.reached.cursor h.onward h.onward'

end Correspondence

namespace Environment

open Correspondence Comparison

variable {env : Environment σ} {K : Correspondence} {V : Comparison} {n : Nat} {S : SlotRelation}
  {g g' : Grammar σ} {c d c' d' : Config σ} {o p : Outcome σ} {next : Step σ}
  {next' : Nat → Step σ}

section Raising

theorem endsAlike_raise (h : Alongside K S c d c' d') {kind : ErrorKind} (message : String)
    {x x' : Expectation} (hx : K.expectation x x') {reported reported' : Position}
    (hreported : reported = if kind = .action then c.cursor.position else c'.cursor.position)
    (hreported' : reported' = if kind = .action then d.cursor.position else d'.cursor.position) :
    EndsAlike (K.Outcomes S) (env.raise kind message x c.cursor.position reported c')
      (env.raise kind message x' d.cursor.position reported' d') := by
  subst hreported hreported'
  have hlocate := K.locate h.began h.reached.cursor h.onward h.onward' kind message hx
  refine hlocate.bind fun e e' _ _ he => .ok ⟨.failed he, h.reached, fun hlogs => ?_⟩
  rw [(K.error_texts hlogs he).2]

theorem endsAlike_raiseFor (h : Alongside K S c d c' d') (hblames : K.Blames env g g')
    (kind : ErrorKind) (hkind : kind ≠ .action) (message : String) :
    EndsAlike (K.Outcomes S) (env.raiseFor kind message g c.cursor.position c')
      (env.raiseFor kind message g' d.cursor.position d') :=
  hblames.expectation.bind fun _ _ _ _ hx =>
    endsAlike_raise h message hx (if_neg hkind).symm (if_neg hkind).symm

theorem endsAlike_raiseUndefined (h : K.Configs S c d) :
    EndsAlike (K.Outcomes S) (env.raiseUndefined c) (env.raiseUndefined d) :=
  endsAlike_raise (.refl h) _ (K.expectation_refl _) rfl rfl

/-- Errors raised behind what was logged before. -/
theorem endsAlike_raiseFor_after (h : Alongside K S c d o.config p.config)
    (hrecords : K.logs → o.records = p.records) (hblames : K.Blames env g g') (kind : ErrorKind)
    (hkind : kind ≠ .action) (message : String) :
    EndsAlike (K.Outcomes S)
      ((env.raiseFor kind message g c.cursor.position o.config).map (·.after o.records))
      ((env.raiseFor kind message g' d.cursor.position p.config).map (·.after p.records)) :=
  .map <| (endsAlike_raiseFor h hblames kind hkind message).imp fun _ _ _ _ h => h.after hrecords

end Raising

theorem follows_andThen (h : K.Outcomes S o p)
    (hnext : o.verdict = .matched →
      V.Follows n (K.Outcomes S) (next o.config) fun m => next' m p.config) :
    V.Follows n (K.Outcomes S) (o.andThen next) fun m => p.andThen (next' m) := by
  obtain ⟨verdict, config, records⟩ := o
  obtain ⟨verdict', config', records'⟩ := p
  have hverdict : verdict.Alike K.error verdict' := h.verdict
  cases hverdict with
  | matched => exact (hnext rfl).map fun _ _ hab => hab.after h.records
  | mismatched => exact .ok h
  | failed he => exact .ok h

/-- Both branches are given up in place, or both have moved and are blamed. -/
theorem follows_orElse (h : Alongside K S c d o.config p.config) (hop : K.Outcomes S o p)
    (hblames : K.Blames env g g')
    (hnext : V.Follows n (K.Outcomes S) (next o.config) fun m => next' m p.config)
    (message : String) :
    V.Follows n (K.Outcomes S) (env.orElse message g c.cursor.position o next)
      fun m => env.orElse message g' d.cursor.position p (next' m) := by
  have hstayed := h.stayed_iff
  have hraise := endsAlike_raiseFor_after h hop.records hblames .consumed nofun message
  obtain ⟨verdict, config, records⟩ := o
  obtain ⟨verdict', config', records'⟩ := p
  have hverdict : verdict.Alike K.error verdict' := hop.verdict
  cases hverdict with
  | matched => exact .ok hop
  | failed he => exact .ok hop
  | mismatched =>
      change config.cursor.offset = c.cursor.position.offset ↔
        config'.cursor.offset = d.cursor.position.offset at hstayed
      unfold orElse
      dsimp only
      simp only [ne_eq, hstayed]
      split
      · exact .of_endsAlike hraise
      · exact hnext.map fun _ _ hab => hab.after hop.records

/-- Two steps of which each leads its cursor onward, and the second one follows the first one. -/
structure OrderlySteps (K : Correspondence) (V : Comparison) (n : Nat) (S : SlotRelation)
    (step : Step σ) (step' : Nat → Step σ) : Prop where
  follows : K.StepFollows V n S step step'
  orderly : ∀ c, Orderly c.cursor (step c)
  orderly' : ∀ m c, Orderly c.cursor (step' m c)

/-- What two runs have come to they have come to side by side. -/
theorem OrderlySteps.alongside {step : Step σ} {step' : Nat → Step σ}
    (h : OrderlySteps K V n S step step') (hbegan : Alongside K S c d c' d') {m : Nat}
    (ho : step c' = .ok o) (hp : step' m d' = .ok p) (hop : K.Outcomes S o p) :
    Alongside K S c d o.config p.config :=
  ⟨hbegan.began, hop.config, hbegan.onward.trans ((h.orderly c').of_eq_ok ho),
    hbegan.onward'.trans ((h.orderly' m d').of_eq_ok hp)⟩

/-- The iterations of the second run may have a bound that falls behind the one of its steps. -/
theorem follows_iterate {step : Step σ} {step' : Nat → Step σ}
    (hsteps : OrderlySteps K V n S step step') (hblames : K.Blames env g g') {k : Nat}
    {count : Nat → Nat} (hcount : Filter.Tendsto count (V.bounds n) (V.bounds k)) (owed : Nat) :
    K.StepFollows V n S (env.iterate g step k owed)
      fun m => env.iterate g' (step' m) (count m) owed := by
  induction k generalizing count owed with
  | zero =>
      refine fun c d _ => .zero hcount fun m hm => ?_
      beta_reduce
      rw [hm]
      rfl
  | succ k ih =>
      intro c d h
      obtain ⟨count', hsucc, hcount'⟩ := V.exists_count hcount
      have hround : ∀ᶠ m in V.bounds n, env.iterate g' (step' m) (count m) owed d =
          env.iterate g' (step' m) (count' m + 1) owed d :=
        hsucc.mono fun m hm => by rw [hm]
      refine .congr hround ?_
      simp only [iterate]
      refine (hsteps.follows c d h).bind fun o p m ho hp hop => ?_
      have halong := hsteps.alongside (.refl h) ho hp hop
      have hstayed := halong.stayed_iff
      have hstop : V.Follows n (K.Outcomes S)
          (env.orElse iterationConsumed g c.cursor.position o fun c =>
            .ok (if owed = 0 then c.matched else c.mismatched))
          (fun _ => env.orElse iterationConsumed g' d.cursor.position p fun d =>
            .ok (if owed = 0 then d.matched else d.mismatched)) := by
        refine follows_orElse halong hop hblames (.ok ?_) _
        split
        · exact hop.config.matched
        · exact hop.config.mismatched
      obtain ⟨verdict, config, records⟩ := o
      obtain ⟨verdict', config', records'⟩ := p
      have hverdict : verdict.Alike K.error verdict' := hop.verdict
      cases hverdict with
      | matched =>
          dsimp only at hstayed ⊢
          simp only [hstayed]
          split
          · refine .ok ⟨?_, hop.config, hop.records⟩
            dsimp only
            split
            · exact .matched
            · exact .mismatched
          · exact (ih hcount' _ _ _ hop.config).map fun _ _ hab => hab.after hop.records
      | mismatched => exact hstop
      | failed he => exact hstop

section Parts

variable {run : Grammar σ → Step σ} {run' : Nat → Grammar σ → Step σ} {H : Contents}
  {parts parts' : List (Kind × Grammar σ)}

/-- Parts that are run into slots of the same kind, from which the same values come. -/
structure PartFollows (env : Environment σ) (K : Correspondence) (V : Comparison) (n : Nat)
    (H : Contents) (run : Grammar σ → Step σ) (run' : Nat → Grammar σ → Step σ)
    (part part' : Kind × Grammar σ) : Prop where
  kind : part.1 = part'.1
  steps : OrderlySteps K V n (H.Same part.1) (run part.2) fun m => run' m part'.2
  blames : K.Blames env part.2 part'.2

/-- Slots are fresh while the parts are run, so both runs get the same values out of them. -/
theorem follows_runInto {step : Step σ} {step' : Nat → Step σ} {kind : Kind}
    (hstep : K.StepFollows V n (H.Same kind) step step') (h : K.Configs S c d) :
    V.Follows n (fun a b => a.1 = b.1 ∧ H.holds kind a.1 ∧ K.Outcomes S a.2 b.2)
      (runInto step kind c) fun m => runInto (step' m) kind d := by
  refine (hstep _ _ (h.withSlots (H.same_default kind))).bind fun o p _ _ _ hop => ?_
  obtain ⟨hslot, hholds⟩ := hop.config.slot
  refine .ok ⟨?_, ?_, hop.withSlots h.slot⟩
  · change o.config.slot.getD kind.default = p.config.slot.getD kind.default
    rw [hslot]
  · change H.holds kind (o.config.slot.getD kind.default)
    cases hvalue : o.config.slot with
    | none => exact H.default kind
    | some v => exact hholds v hvalue

theorem follows_runAll (hparts : List.Forall₂ (PartFollows env K V n H run run') parts parts')
    (h : K.Configs S c d) :
    V.Follows n (fun a b => a.1 = b.1 ∧ (a.2.verdict = .matched →
        List.Forall₂ (fun v part => H.holds part.1 v) a.1 parts) ∧ K.Outcomes S a.2 b.2)
      (runAll run parts c) fun m => runAll (run' m) parts' d := by
  induction hparts generalizing c d with
  | nil => exact .ok ⟨rfl, fun _ => .nil, h.matched⟩
  | @cons part part' parts parts' hpart _ ih =>
      obtain ⟨kind, g⟩ := part
      obtain ⟨_, g'⟩ := part'
      obtain rfl : kind = _ := hpart.kind
      refine (follows_runInto hpart.steps.follows h).bind fun a b _ _ _ hab => ?_
      obtain ⟨v, verdict, config, records⟩ := a
      obtain ⟨v', verdict', config', records'⟩ := b
      obtain ⟨hvalue, hholds, hop⟩ := hab
      have hverdict : verdict.Alike K.error verdict' := hop.verdict
      cases hverdict with
      | matched =>
          refine (ih hop.config).bind fun a' b' _ _ _ hab' => ?_
          obtain ⟨hvalues, hall, hop'⟩ := hab'
          exact .ok ⟨congrArg₂ List.cons hvalue hvalues,
            fun hmatched => .cons hholds (hall hmatched), hop'.after hop.records⟩
      | mismatched => exact .ok ⟨rfl, fun h => Verdict.noConfusion h, hop⟩
      | failed he => exact .ok ⟨rfl, fun h => Verdict.noConfusion h, hop⟩

/-- The parts still to be tried are those of `whole` from the `i`-th on. -/
theorem follows_runAny {whole : List (Kind × Grammar σ)}
    (hparts : List.Forall₂ (PartFollows env K V n H run run') parts parts') {i : Nat}
    (hwhole : whole.drop i = parts) (h : Alongside K S c d c' d') :
    V.Follows n (fun a b => a.1 = b.1 ∧ (∀ j v, a.1 = some (j, v) →
        ∃ part, whole[j]? = some part ∧ H.holds part.1 v) ∧ K.Outcomes S a.2 b.2)
      (env.runAny run c.cursor.position i parts c')
      fun m => env.runAny (run' m) d.cursor.position i parts' d' := by
  induction hparts generalizing i c' d' with
  | nil => exact .ok ⟨rfl, fun j v hfound => by simp at hfound, h.reached.mismatched⟩
  | @cons part part' parts parts' hpart _ ih =>
      have hget : whole[i]? = some part := by
        rw [← Nat.add_zero i, ← List.getElem?_drop, hwhole, List.getElem?_cons_zero]
      have hrest : whole.drop (i + 1) = parts := by
        rw [← List.tail_drop, hwhole, List.tail_cons]
      obtain ⟨kind, g⟩ := part
      obtain ⟨_, g'⟩ := part'
      obtain rfl : kind = _ := hpart.kind
      refine (follows_runInto hpart.steps.follows h.reached).bind fun a b m ha hb hab => ?_
      have honward := (orderly_runInto hpart.steps.orderly kind c').of_eq_ok ha
      have honward' := (orderly_runInto (hpart.steps.orderly' m) kind d').of_eq_ok hb
      obtain ⟨v, verdict, config, records⟩ := a
      obtain ⟨v', verdict', config', records'⟩ := b
      obtain ⟨hvalue, hholds, hop⟩ := hab
      have halong : Alongside K S c d config config' :=
        ⟨h.began, hop.config, h.onward.trans honward, h.onward'.trans honward'⟩
      have hnone (j : Nat) (w : Value) (hfound : (none : Option (Nat × Value)) = some (j, w)) :
          ∃ part, whole[j]? = some part ∧ H.holds part.1 w := by cases hfound
      have hverdict : verdict.Alike K.error verdict' := hop.verdict
      cases hverdict with
      | matched =>
          refine .ok ⟨congrArg (fun v => some (i, v)) hvalue, fun j w hfound => ?_, hop⟩
          obtain ⟨rfl, rfl⟩ := Prod.mk.inj (Option.some.inj hfound)
          exact ⟨(kind, g), hget, hholds⟩
      | failed he => exact .ok ⟨rfl, hnone, hop⟩
      | mismatched =>
          have hstayed : config.cursor.offset = c.cursor.position.offset ↔
            config'.cursor.offset = d.cursor.position.offset := halong.stayed_iff
          dsimp only
          simp only [ne_eq, hstayed]
          split
          · have hraise := endsAlike_raiseFor halong hpart.blames .consumed nofun branchConsumed
            exact .of_endsAlike <| hraise.bind fun _ _ _ _ hab =>
              .ok ⟨rfl, hnone, hab.after hop.records⟩
          · refine (ih hrest halong).bind fun a' b' _ _ _ hab' => ?_
            obtain ⟨hfound, hholds', hop'⟩ := hab'
            exact .ok ⟨hfound, hholds', hop'.after hop.records⟩

end Parts

theorem endsAlike_act (h : Alongside K S c d c' d') (hblames : K.Blames env g g')
    {action : Action σ} {args : Arguments} {kind : Kind} (haction : action.Respects S kind args) :
    EndsAlike (K.Outcomes S) (env.act g kind action args c.cursor.position c')
      (env.act g' kind action args d.cursor.position d') := by
  obtain ⟨heffect, hslot⟩ := haction _ _ c'.state h.reached.slot
  unfold act
  dsimp only
  rw [← h.reached.state]
  generalize action args (c'.slot.getD kind.default) c'.state = e at heffect hslot ⊢
  generalize action args (d'.slot.getD kind.default) c'.state = e' at heffect hslot ⊢
  have halong : Alongside K S c d
      { c' with slot := c'.slot.map fun _ => e.slot, state := e.state }
      { d' with slot := d'.slot.map fun _ => e'.slot, state := e'.state } :=
    ⟨h.began, ⟨h.reached.cursor, hslot, heffect.state⟩, h.onward, h.onward'⟩
  have hfailure := heffect.failure
  cases he : e.failure with
  | none =>
      have he' : e'.failure = none := by simpa [he] using hfailure.symm
      rw [he']
      exact .ok halong.reached.matched
  | some failure =>
      obtain ⟨failure', he', hmessage⟩ : ∃ failure', e'.failure = some failure' ∧
          failure'.message = failure.message := by
        simpa [he, Option.map_eq_some_iff] using hfailure.symm
      rw [he']
      refine hblames.expectation.bind fun x x' _ _ hx => ?_
      rw [hmessage]
      exact endsAlike_raise halong _ hx rfl rfl

/-- What is logged may differ, but not whether the grammar can be written. -/
theorem endsAlike_backtrackNote (h : K.Configs S c d) (hop : K.Outcomes S o p)
    (hblames : K.Blames env g g') :
    EndsAlike (fun note note' => K.logs → note = note') (env.backtrackNote g c o)
      (env.backtrackNote g' d p) := by
  obtain ⟨text, htext⟩ := env.store.exists_ebnf g
  obtain ⟨text', htext'⟩ := env.store.exists_ebnf g'
  unfold backtrackNote
  rw [htext, htext']
  split
  · refine .ok fun hlogs => ?_
    have hsame : text = text' :=
      Option.some.inj (htext.symm.trans ((hblames.ebnf hlogs).trans htext'))
    rw [K.cursor_eq hlogs h.cursor, K.cursor_eq hlogs hop.config.cursor, hsame]
  · exact .ok fun _ => rfl

theorem endsAlike_settle (h : K.Configs S c d) (hop : K.Outcomes S o p)
    (honward : c.cursor.checkpoint.Onward o.config.cursor)
    (honward' : d.cursor.checkpoint.Onward p.config.cursor) (hblames : K.Blames env g g')
    {restores restores' : Bool} (hrestores : restores = restores' ∨ o.config.state = c.state) :
    EndsAlike (K.Outcomes S) (env.settle g restores c o) (env.settle g' restores' d p) := by
  by_cases hmatched : o.verdict = .matched
  · rw [env.settle_of_matched honward hmatched,
      env.settle_of_matched honward' (hop.verdict.matched_iff.1 hmatched)]
    exact .ok (hop.withCheckpoints h.cursor)
  · have hmatched' : p.verdict ≠ .matched := fun hp => hmatched (hop.verdict.matched_iff.2 hp)
    rw [env.settle_of_not_matched honward hmatched, env.settle_of_not_matched honward' hmatched']
    refine .map <| (endsAlike_backtrackNote h hop hblames).imp fun note note' _ _ hnote => ?_
    exact ⟨hop.verdict, h.takenBack hop.config.state hrestores,
      fun hlogs => congrArg₂ _ (hop.records hlogs) (hnote hlogs)⟩

theorem endsAlike_settleExcept {S' : SlotRelation}
    (hequal : ∀ slot slot', S' slot slot' → slot = slot') (h : K.Configs S c d)
    (hop : K.Outcomes S' o p)
    (honward : c.cursor.checkpoint.Onward o.config.cursor)
    (honward' : d.cursor.checkpoint.Onward p.config.cursor) {mayAct mayAct' : Bool}
    (hmayAct : mayAct = mayAct' ∨ o.config.state = c.state) (forbidden : Value)
    (hslot : S (if c.slot.isSome then o.config.slot else none)
      (if d.slot.isSome then p.config.slot else none)) :
    EndsAlike (K.Outcomes S) (env.settleExcept mayAct forbidden c o)
      (env.settleExcept mayAct' forbidden d p) := by
  have hsame := hequal _ _ hop.config.slot
  by_cases hmatched : o.verdict = .matched
  · have hmatched' := hop.verdict.matched_iff.1 hmatched
    by_cases hforbidden : o.config.slot = some forbidden
    · rw [env.settleExcept_of_forbidden honward hmatched hforbidden,
        env.settleExcept_of_forbidden honward' hmatched' (hsame ▸ hforbidden)]
      refine .ok ⟨.mismatched, h.takenBack hop.config.state hmayAct, fun hlogs => ?_⟩
      have hoffset := congrArg Cursor.offset (K.cursor_eq hlogs hop.config.cursor)
      dsimp only
      rw [hop.records hlogs, hoffset]
    · rw [env.settleExcept_of_not_forbidden honward hmatched hforbidden,
        env.settleExcept_of_not_forbidden honward' hmatched' (hsame ▸ hforbidden)]
      exact .ok ((hop.withCheckpoints h.cursor).withSlots hslot)
  · have hmatched' : p.verdict ≠ .matched := fun hp => hmatched (hop.verdict.matched_iff.2 hp)
    rw [env.settleExcept_of_not_matched honward hmatched,
      env.settleExcept_of_not_matched honward' hmatched']
    exact .ok ((hop.withCheckpoints h.cursor).withSlots h.slot)

theorem endsAlike_strict (h : Alongside K S c d o.config p.config) (hop : K.Outcomes S o p)
    (hblames : K.Blames env g g') (message : String) :
    EndsAlike (K.Outcomes S)
      (match o.verdict with
        | .mismatched =>
          (env.raiseFor .strict message g c.cursor.position o.config).map (·.after o.records)
        | _ => pure o)
      (match p.verdict with
        | .mismatched =>
          (env.raiseFor .strict message g' d.cursor.position p.config).map (·.after p.records)
        | _ => pure p) := by
  have hraise := endsAlike_raiseFor_after h hop.records hblames .strict nofun message
  obtain ⟨verdict, config, records⟩ := o
  obtain ⟨verdict', config', records'⟩ := p
  have hverdict : verdict.Alike K.error verdict' := hop.verdict
  cases hverdict with
  | matched => exact .ok hop
  | mismatched => exact hraise
  | failed he => exact .ok hop

theorem endsAlike_traceRecords (h : Alongside K S c d o.config p.config) (hop : K.Outcomes S o p)
    (label : String) :
    EndsAlike (fun records records' => K.logs → records = records')
      (env.traceRecords label c.cursor.position o)
      (env.traceRecords label d.cursor.position p) := by
  have hposition (hlogs : K.logs) : c.cursor.position = d.cursor.position :=
    congrArg Cursor.position (K.cursor_eq hlogs h.began)
  obtain ⟨verdict, config, records⟩ := o
  obtain ⟨verdict', config', records'⟩ := p
  have hverdict : verdict.Alike K.error verdict' := hop.verdict
  unfold traceRecords
  cases hverdict with
  | matched =>
      dsimp only
      split
      · have hslice := K.slice h.began h.reached.cursor h.onward h.onward'
        refine hslice.bind fun text text' htext htext' _ => .ok fun hlogs => ?_
        dsimp only at htext htext'
        rw [hposition hlogs, K.cursor_eq hlogs h.reached.cursor, htext'] at htext
        rw [hposition hlogs, Except.ok.inj htext]
      · exact .ok fun _ => rfl
  | mismatched => exact .ok fun hlogs => by rw [hposition hlogs]
  | failed he => exact .ok fun hlogs => by rw [(K.error_texts hlogs he).1]

end Environment

end ParserAlgebra
