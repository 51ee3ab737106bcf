import Mathlib.Data.Fintype.EquivFin
import Mathlib.Data.Fintype.Sets
import ParserAlgebra.Proofs.Halting

/-!
# Left recursion

A rule left-calls another one if a run of its body may enter the other one before it has passed a
symbol. Where it may is seen from the grammar: whatever stands behind parts that are possibly empty.
If no rule left-calls itself, in one step or in several, every run comes to an end: the text ahead
gets shorter, or the rules entered come later in the order of calls, or the grammars get smaller.
-/

namespace ParserAlgebra

variable {σ : Type}

namespace Grammar

/-- The parts that a grammar is put together from. -/
def directParts : Grammar σ → List (Grammar σ)
  | .sequence a b | .choice a b | .sepBy a b => [a, b]
  | .repetition _ g | .option g | .discard g | .except _ g _ | .attempt g | .attemptPure g
  | .strict _ g | .trace _ g | .token g | .shared g | .reference _ g | .define _ g
  | .rename _ _ g => [g]
  | .all _ _ parts | .any _ _ parts => parts.map (·.2)
  | _ => []

theorem size_lt_of_mem_directParts {g q : Grammar σ} (h : q ∈ g.directParts) : q.size < g.size := by
  cases g with
  | accept _ | expect _ | literal _ | pattern _ _ | succeed | fail | handle _ | fixed _ _ _ =>
      cases h
  | sequence a b | choice a b | sepBy a b =>
      rw [size]
      rcases List.mem_cons.1 h with rfl | h
      · omega
      · rw [List.mem_singleton.1 h]
        omega
  | repetition _ item | option item | discard item | except _ item _ | attempt item
  | attemptPure item | strict _ item | trace _ item | token item | shared item | reference _ item
  | define _ item | rename _ _ item =>
      rw [List.mem_singleton.1 h, size]
      exact Nat.lt_succ_self _
  | all _ _ parts | any _ _ parts =>
      obtain ⟨part, hpart, rfl⟩ := List.mem_map.1 h
      rw [size]
      exact Nat.lt_succ_of_le (size_le_sizes hpart)

/-- Induction on grammars, with one case for all ways of putting them together. -/
theorem inductionOnParts {P : Grammar σ → Prop} (step : ∀ g, (∀ q ∈ g.directParts, P q) → P g)
    (g : Grammar σ) : P g :=
  (measure size).wf.induction g fun g ih => step g fun q hq => ih q (size_lt_of_mem_directParts hq)

/-- The only part of a grammar that runs it once and adds no text of its own. -/
def wrapped? : Grammar σ → Option (Grammar σ)
  | .discard g | .except _ g _ | .attempt g | .attemptPure g | .strict _ g | .trace _ g | .token g
  | .shared g | .reference _ g | .define _ g | .rename _ _ g => some g
  | _ => none

/-- The grammars that may match without passing a symbol, if the rules that may are `empty`. -/
inductive PossiblyEmpty (empty : RuleName → Prop) : Grammar σ → Prop
  | accept {p : Predicate} (hp : p.accepts none = true) : PossiblyEmpty empty (.accept p)
  | expect {p : Predicate} (hp : p.accepts none = true) : PossiblyEmpty empty (.expect p)
  | literal {text : String} (htext : text.toList = []) : PossiblyEmpty empty (.literal text)
  | pattern {source : String} {matcher : Regex.Matcher} :
      PossiblyEmpty empty (.pattern source matcher)
  | succeed : PossiblyEmpty empty .succeed
  | sequence {a b : Grammar σ} (ha : PossiblyEmpty empty a) (hb : PossiblyEmpty empty b) :
      PossiblyEmpty empty (.sequence a b)
  | choiceFirst {a b : Grammar σ} (ha : PossiblyEmpty empty a) : PossiblyEmpty empty (.choice a b)
  | choiceSecond {a b : Grammar σ} (hb : PossiblyEmpty empty b) : PossiblyEmpty empty (.choice a b)
  | repetition {atLeast : Nat} {item : Grammar σ} (hatLeast : atLeast ≠ 1) :
      PossiblyEmpty empty (.repetition atLeast item)
  | manyOne {item : Grammar σ} (hitem : PossiblyEmpty empty item) :
      PossiblyEmpty empty (.manyOne item)
  | option {item : Grammar σ} : PossiblyEmpty empty (.option item)
  | sepBy {item separator : Grammar σ} (hitem : PossiblyEmpty empty item) :
      PossiblyEmpty empty (.sepBy item separator)
  | wrapper {g item : Grammar σ} (hg : g.wrapped? = some item) (hitem : PossiblyEmpty empty item) :
      PossiblyEmpty empty g
  | all {kind : Kind} {action : Action σ} {parts : List (Kind × Grammar σ)}
      (hparts : ∀ part ∈ parts, PossiblyEmpty empty part.2) :
      PossiblyEmpty empty (.all kind action parts)
  | any {kind : Kind} {action : Action σ} {parts : List (Kind × Grammar σ)}
      {part : Kind × Grammar σ} (hmem : part ∈ parts) (hpart : PossiblyEmpty empty part.2) :
      PossiblyEmpty empty (.any kind action parts)
  | handle {slot : Slot} (hslot : empty (.slot slot)) : PossiblyEmpty empty (.handle slot)
  | fixed {hold : Hold} {name : String} {rule : RuleId} (hrule : empty (.fixed rule)) :
      PossiblyEmpty empty (.fixed hold name rule)

/-- A run of the grammar may enter the rule before it has passed a symbol, if the rules that may
match without passing one are `empty`. -/
inductive Enters (empty : RuleName → Prop) : Grammar σ → RuleName → Prop
  | handle {slot : Slot} : Enters empty (.handle slot) (.slot slot)
  | fixed {hold : Hold} {name : String} {rule : RuleId} :
      Enters empty (.fixed hold name rule) (.fixed rule)
  | sequenceFirst {a b : Grammar σ} {rule : RuleName} (ha : Enters empty a rule) :
      Enters empty (.sequence a b) rule
  | sequenceSecond {a b : Grammar σ} {rule : RuleName} (ha : a.PossiblyEmpty empty)
      (hb : Enters empty b rule) : Enters empty (.sequence a b) rule
  | choiceFirst {a b : Grammar σ} {rule : RuleName} (ha : Enters empty a rule) :
      Enters empty (.choice a b) rule
  | choiceSecond {a b : Grammar σ} {rule : RuleName} (hb : Enters empty b rule) :
      Enters empty (.choice a b) rule
  | repetition {atLeast : Nat} {item : Grammar σ} {rule : RuleName}
      (hitem : Enters empty item rule) : Enters empty (.repetition atLeast item) rule
  | option {item : Grammar σ} {rule : RuleName} (hitem : Enters empty item rule) :
      Enters empty (.option item) rule
  | sepByItem {item separator : Grammar σ} {rule : RuleName} (hitem : Enters empty item rule) :
      Enters empty (.sepBy item separator) rule
  | sepBySeparator {item separator : Grammar σ} {rule : RuleName} (hitem : item.PossiblyEmpty empty)
      (hseparator : Enters empty separator rule) : Enters empty (.sepBy item separator) rule
  | wrapper {g item : Grammar σ} {rule : RuleName} (hg : g.wrapped? = some item)
      (hitem : Enters empty item rule) : Enters empty g rule
  | all {kind : Kind} {action : Action σ} {front back : List (Kind × Grammar σ)}
      {part : Kind × Grammar σ} {rule : RuleName} (hfront : ∀ q ∈ front, q.2.PossiblyEmpty empty)
      (hpart : Enters empty part.2 rule) :
      Enters empty (.all kind action (front ++ part :: back)) rule
  | any {kind : Kind} {action : Action σ} {parts : List (Kind × Grammar σ)}
      {part : Kind × Grammar σ} {rule : RuleName} (hmem : part ∈ parts)
      (hpart : Enters empty part.2 rule) : Enters empty (.any kind action parts) rule

section Inversion

variable {empty : RuleName → Prop} {a b : Grammar σ} {p : Predicate} {slot : Slot} {rule : RuleName}

theorem possiblyEmpty_accept_iff :
    (accept p : Grammar σ).PossiblyEmpty empty ↔ p.accepts none = true := by
  refine ⟨fun h => ?_, .accept⟩
  cases h with
  | accept hp => exact hp
  | wrapper hg _ => cases hg

theorem possiblyEmpty_handle_iff :
    (handle slot : Grammar σ).PossiblyEmpty empty ↔ empty (.slot slot) := by
  refine ⟨fun h => ?_, .handle⟩
  cases h with
  | handle hslot => exact hslot
  | wrapper hg _ => cases hg

theorem possiblyEmpty_sequence_iff :
    (sequence a b).PossiblyEmpty empty ↔ a.PossiblyEmpty empty ∧ b.PossiblyEmpty empty := by
  refine ⟨fun h => ?_, fun ⟨ha, hb⟩ => .sequence ha hb⟩
  cases h with
  | sequence ha hb => exact ⟨ha, hb⟩
  | wrapper hg _ => cases hg

theorem possiblyEmpty_choice_iff :
    (choice a b).PossiblyEmpty empty ↔ a.PossiblyEmpty empty ∨ b.PossiblyEmpty empty := by
  refine ⟨fun h => ?_, fun h => h.elim .choiceFirst .choiceSecond⟩
  cases h with
  | choiceFirst ha => exact .inl ha
  | choiceSecond hb => exact .inr hb
  | wrapper hg _ => cases hg

theorem not_enters_accept : ¬ (accept p : Grammar σ).Enters empty rule := by
  intro h
  cases h with
  | wrapper hg _ => cases hg

theorem enters_handle_iff : (handle slot : Grammar σ).Enters empty rule ↔ rule = .slot slot := by
  constructor
  · intro h
    cases h with
    | handle => rfl
    | wrapper hg _ => cases hg
  · rintro rfl
    exact .handle

theorem enters_sequence_iff : (sequence a b).Enters empty rule ↔
    a.Enters empty rule ∨ a.PossiblyEmpty empty ∧ b.Enters empty rule := by
  refine ⟨fun h => ?_, fun h => h.elim .sequenceFirst fun ⟨ha, hb⟩ => .sequenceSecond ha hb⟩
  cases h with
  | sequenceFirst ha => exact .inl ha
  | sequenceSecond ha hb => exact .inr ⟨ha, hb⟩
  | wrapper hg _ => cases hg

theorem enters_choice_iff :
    (choice a b).Enters empty rule ↔ a.Enters empty rule ∨ b.Enters empty rule := by
  refine ⟨fun h => ?_, fun h => h.elim .choiceFirst .choiceSecond⟩
  cases h with
  | choiceFirst ha => exact .inl ha
  | choiceSecond hb => exact .inr hb
  | wrapper hg _ => cases hg

end Inversion

end Grammar

namespace Store

/-- The body of one rule may enter the other rule before it has passed a symbol. -/
def LeftCalls (store : Store σ) (empty : RuleName → Prop) (rule rule' : RuleName) : Prop :=
  ∃ body, store.body? rule = some body ∧ body.Enters empty rule'

/-- The rules that are possibly empty include those with possibly empty bodies. -/
def Includes (store : Store σ) (empty : RuleName → Prop) : Prop :=
  ∀ rule body, store.body? rule = some body → body.PossiblyEmpty empty → empty rule

/-- All rules of the store, among others that are missing. -/
def ruleNames (store : Store σ) : List RuleName :=
  store.ruleSlots.map .slot ++ (List.range store.rules.length).map .fixed

theorem mem_ruleNames {store : Store σ} {rule : RuleName} {body : Grammar σ}
    (h : store.body? rule = some body) : rule ∈ store.ruleNames := by
  cases rule with
  | slot slot => exact List.mem_append_left _ (List.mem_map_of_mem (mem_ruleSlots h))
  | fixed rule =>
      have hindex := Option.join_eq_some_iff.1 h
      obtain ⟨hlt, -⟩ := List.getElem?_eq_some_iff.1 hindex
      exact List.mem_append_right _ (List.mem_map_of_mem (List.mem_range.2 hlt))

/-- Only the rules that are there have bodies, and there are finitely many of them, so left calls
cannot go on for ever without coming back. -/
theorem wellFounded_leftCalls {store : Store σ} {empty : RuleName → Prop}
    (hacyclic : ∀ rule, ¬ Relation.TransGen (store.LeftCalls empty) rule rule) :
    WellFounded fun rule' rule : {rule // rule ∈ store.ruleNames} =>
      store.LeftCalls empty rule.1 rule'.1 := by
  let later (rule' rule : {rule // rule ∈ store.ruleNames}) : Prop :=
    Relation.TransGen (store.LeftCalls empty) rule.1 rule'.1
  have : IsTrans _ later := ⟨fun _ _ _ h h' => Relation.TransGen.trans h' h⟩
  have : Std.Irrefl later := ⟨fun rule => hacyclic rule.1⟩
  exact Subrelation.wf Relation.TransGen.single (Finite.wellFounded_of_trans_of_irrefl later)

end Store

/-- What is assumed of rules if those that are not `empty` move the cursor. -/
def SlotDiscipline.ofEmpty (empty : RuleName → Prop) : SlotDiscipline where
  infallible _ := False
  guarded _ := False
  moving rule := ¬ empty rule
  keeping _ _ := False

namespace SlotDiscipline

variable {empty : RuleName → Prop}

/-- A grammar is possibly empty, or its matches move the cursor. -/
theorem moving_of_not_possiblyEmpty (g : Grammar σ) (h : ¬ g.PossiblyEmpty empty) :
    (ofEmpty empty).Moving g := by
  induction g using Grammar.inductionOnParts with
  | step g ih =>
      have hwrapped {item : Grammar σ} (hg : g.wrapped? = some item)
          (hitem : item ∈ g.directParts) :
          (ofEmpty empty).Moving item := ih item hitem fun hempty => h (.wrapper hg hempty)
      cases g with
      | accept p => exact .accept (by simpa using fun hp => h (.accept hp))
      | expect p => exact .expect (by simpa using fun hp => h (.expect hp))
      | literal text => exact .literal fun htext => h (.literal htext)
      | pattern source matcher => exact absurd .pattern h
      | succeed => exact absurd .succeed h
      | fail => exact .fail
      | sequence a b =>
          by_cases ha : a.PossiblyEmpty empty
          · exact .sequenceSecond a (ih b (.tail _ (.head _)) fun hb => h (.sequence ha hb))
          · exact .sequenceFirst (ih a (.head _) ha) b
      | choice a b =>
          exact .choice (ih a (.head _) fun ha => h (.choiceFirst ha))
            (ih b (.tail _ (.head _)) fun hb => h (.choiceSecond hb))
      | repetition atLeast item =>
          by_cases hatLeast : atLeast = 1
          · subst hatLeast
            exact .manyOne (ih item (.head _) fun hitem => h (.manyOne hitem))
          · exact absurd (.repetition hatLeast) h
      | option item => exact absurd .option h
      | sepBy item separator =>
          exact .sepBy (ih item (.head _) fun hitem => h (.sepBy hitem)) separator
      | discard item => exact .discard (hwrapped rfl (.head _))
      | except kind item forbidden => exact .except kind (hwrapped rfl (.head _)) forbidden
      | attempt item => exact .attempt (hwrapped rfl (.head _))
      | attemptPure item => exact .attemptPure (hwrapped rfl (.head _))
      | strict message item => exact .strict message (hwrapped rfl (.head _))
      | trace label item => exact .trace label (hwrapped rfl (.head _))
      | token item => exact .token (hwrapped rfl (.head _))
      | shared item => exact .shared (hwrapped rfl (.head _))
      | reference name body => exact .reference name (hwrapped rfl (.head _))
      | define name body => exact .define name (hwrapped rfl (.head _))
      | rename name rank body => exact .rename name rank (hwrapped rfl (.head _))
      | all kind action parts =>
          obtain ⟨part, hmem, hpart⟩ : ∃ part ∈ parts, ¬ part.2.PossiblyEmpty empty := by
            by_contra hnone
            exact h (.all fun part hmem => not_not.1 fun hpart => hnone ⟨part, hmem, hpart⟩)
          exact .all kind action hmem (ih part.2 (List.mem_map_of_mem hmem) hpart)
      | any kind action parts =>
          exact .any kind action fun part hmem =>
            ih part.2 (List.mem_map_of_mem hmem) fun hpart => h (.any hmem hpart)
      | handle slot => exact .handle fun hslot => h (.handle hslot)
      | fixed hold name rule => exact .fixed hold name fun hrule => h (.fixed hrule)

theorem consistent_ofEmpty {store : Store σ} (h : store.Includes empty) :
    (ofEmpty empty).Consistent store where
  infallible _ _ _ h := h.elim
  guarded _ _ _ h := h.elim
  moving rule body hbody hrule :=
    moving_of_not_possiblyEmpty body fun hempty => hrule (h rule body hbody hempty)
  keeping _ _ _ _ h := h.elim

end SlotDiscipline

namespace Environment

variable {env : Environment σ} {empty : RuleName → Prop} {g : Grammar σ} {c : Config σ}
  {o : Outcome σ} {n length : Nat}

/-- A grammar that matched in place is possibly empty. -/
theorem possiblyEmpty_of_stayed (hempty : env.store.Includes empty) (ho : env.run n g c = .ok o)
    (hmatched : o.verdict = .matched) (hstayed : o.config.cursor.offset = c.cursor.offset) :
    g.PossiblyEmpty empty := by
  by_contra hg
  have hmoves := moves_run (SlotDiscipline.consistent_ofEmpty hempty) n
    (SlotDiscipline.moving_of_not_possiblyEmpty g hg) c
  exact hmoves.of_eq_ok ho hmatched hstayed

section Operators

variable {a b item separator : Grammar σ}

/-- What stands behind a part is run where less text is ahead, or the part is possibly empty. -/
theorem halts_behind (hempty : env.store.Includes empty)
    (hshorter : ∀ g (c : Config σ), c.cursor.ahead.length < length → Halts fun n => env.run n g c)
    (hle : c.cursor.ahead.length ≤ length) (ho : env.run n a c = .ok o)
    (hmatched : o.verdict = .matched)
    (hb : a.PossiblyEmpty empty → ∀ d : Config σ, d.cursor.ahead.length ≤ length →
      Halts fun n => env.run n b d)
    {d : Config σ} (hd : d.cursor.ahead.length ≤ o.config.cursor.ahead.length) :
    Halts fun n => env.run n b d := by
  have honward := (env.orderly_run n a c).of_eq_ok ho
  by_cases hstayed : o.config.cursor.offset = c.cursor.offset
  · have hnil := possiblyEmpty_of_stayed hempty ho hmatched hstayed
    exact hb hnil d (hd.trans (honward.length_le.trans hle))
  · exact hshorter b d (hd.trans_lt ((honward.length_lt hstayed).trans_le hle))

theorem halts_sequence (ha : Halts fun n => env.run n a c)
    (hb : ∀ n o, env.run n a c = .ok o → o.verdict = .matched →
      Halts fun n => env.run n b o.config) : Halts fun n => env.run n (.sequence a b) c := by
  refine .of_succ (ha.bind (env.growing_run a c) (fun o _ _ hnm => ?_) fun n o ho => ?_)
  · exact o.continuedBy_andThen (env.continuedBy_run hnm b)
  · exact halts_andThen (hb n o ho)

theorem halts_choice (ha : Halts fun n => env.run n a c)
    (hb : ∀ d : Config σ, d.cursor.ahead.length ≤ c.cursor.ahead.length →
      Halts fun n => env.run n b d) : Halts fun n => env.run n (.choice a b) c := by
  refine .of_succ (ha.bind (env.growing_run a c) (fun o _ _ hnm => ?_) fun n o ho => ?_)
  · exact env.continuedBy_orElse _ _ _ o (env.continuedBy_run hnm b)
  · have honward := (env.orderly_run n a c).of_eq_ok ho
    exact env.halts_orElse (fun _ => hb _ honward.length_le) _ _

theorem halts_option (hitem : Halts fun n => env.run n item c) :
    Halts fun n => env.run n (.option item) c := by
  refine .of_succ (hitem.bind (env.growing_run item c) (fun _ => .const _) fun _ o _ => ?_)
  have hnext : Halts fun _ : Nat => (fun c : Config σ => .ok c.matched) o.config :=
    .of_forall fun _ => .ok _
  exact env.halts_orElse (fun _ => hnext) _ _

theorem halts_sepBy
    (hitem : ∀ d : Config σ, d.cursor.ahead.length ≤ c.cursor.ahead.length →
      Halts fun n => env.run n item d)
    (hseparator : ∀ n o, env.run n item c = .ok o → o.verdict = .matched →
      ∀ d : Config σ, d.cursor.ahead.length ≤ o.config.cursor.ahead.length →
        Halts fun n => env.run n separator d) :
    Halts fun n => env.run n (.sepBy item separator) c := by
  refine .of_succ ((hitem c (Nat.le_refl _)).bind (env.growing_run item c)
    (fun o _ _ hnm => ?_) fun n o ho => halts_andThen fun hmatched => ?_)
  · exact o.continuedBy_andThen fun d => env.continuedBy_iterate _
      (fun d => env.growing_separated item separator d _ _ hnm) hnm 0 d
  · have honward := (env.orderly_run n item c).of_eq_ok ho
    refine env.halts_iterate (env.growing_separated item separator)
      (fun n => env.orderly_separated n item separator) _ 0 fun d hd => ?_
    refine env.halts_separated (fun d' hd' => ?_) (hseparator n o ho hmatched _ hd)
    exact hitem d' (hd'.trans (hd.trans honward.length_le))

/-- What is added to the run of a wrapped grammar is done in one go. -/
theorem halts_of_wrapped (hg : g.wrapped? = some item)
    (hitem : ∀ d : Config σ, d.cursor.ahead.length ≤ c.cursor.ahead.length →
      Halts fun n => env.run n item d) : Halts fun n => env.run n g c := by
  refine .of_succ ?_
  cases g with
  | discard _ =>
      cases hg
      have hdiscarded := hitem { c with slot := none } (Nat.le_refl _)
      exact hdiscarded.bind_finishing fun _ => .ok _
  | except kind _ forbidden =>
      cases hg
      have hslotted := hitem { c with cursor := c.cursor.checkpoint, slot := some kind.default }
        (Nat.le_refl _)
      exact hslotted.bind_finishing fun _ => env.finishes_settleExcept _ _ _ _
  | attempt _ | attemptPure _ =>
      cases hg
      have hattempted := hitem { c with cursor := c.cursor.checkpoint } (Nat.le_refl _)
      exact hattempted.bind_finishing fun _ => env.finishes_settle _ _ _ _
  | strict message _ =>
      cases hg
      refine (hitem c (Nat.le_refl _)).bind_finishing fun o => ?_
      split
      · exact (env.finishes_raiseFor _ _ _ _ _).map _
      · exact .ok o
  | trace label _ =>
      cases hg
      refine (hitem c (Nat.le_refl _)).bind_finishing fun o => ?_
      exact (env.finishes_traceRecords _ _ o).bind fun _ _ => .ok _
  | token _ =>
      cases hg
      refine (hitem c (Nat.le_refl _)).bind_finishing fun _ => ?_
      exact finishes_andThen fun _ => .ok _
  | shared _ | reference _ _ | define _ _ | rename _ _ _ =>
      cases hg
      exact hitem c (Nat.le_refl _)
  | _ => cases hg

theorem halts_handle {slot : Slot} (hbody : ∀ body, env.store.handle? slot = some body →
    Halts fun n => env.run n body c) : Halts fun n => env.run n (.handle slot) c := by
  refine .of_succ ?_
  simp only [run, runLevel]
  cases hslot : env.store.handle? slot with
  | none => exact .of_forall fun _ => env.finishes_raise _ _ _ _ _ c
  | some body => exact hbody body hslot

theorem halts_fixed {rule : RuleId} (hbody : ∀ body, env.store.fixed? rule = some body →
    Halts fun n => env.run n body c) (hold : Hold) (name : String) :
    Halts fun n => env.run n (.fixed hold name rule) c := by
  refine .of_succ ?_
  simp only [run, runLevel]
  cases hrule : env.store.fixed? rule with
  | none => exact .of_forall fun _ => env.finishes_raise _ _ _ _ _ c
  | some body => exact hbody body hrule

end Operators

/-- If runs halt wherever less text is ahead, and the rules entered in place do, then so do runs of
the grammar. -/
theorem halts_of_enters (hempty : env.store.Includes empty)
    (hshorter : ∀ g (c : Config σ), c.cursor.ahead.length < length → Halts fun n => env.run n g c)
    (hrules : ∀ rule, g.Enters empty rule → ∀ body, env.store.body? rule = some body →
      ∀ c : Config σ, c.cursor.ahead.length ≤ length → Halts fun n => env.run n body c)
    (hle : c.cursor.ahead.length ≤ length) : Halts fun n => env.run n g c := by
  induction g using Grammar.inductionOnParts generalizing c with
  | step g ih =>
      have hwrapped {item : Grammar σ} (hg : g.wrapped? = some item)
          (hitem : item ∈ g.directParts) : Halts fun n => env.run n g c :=
        halts_of_wrapped hg fun d hd =>
          ih item hitem (fun rule hrule => hrules rule (.wrapper hg hrule)) (hd.trans hle)
      cases g with
      | accept p | literal text | succeed | fail => exact .of_succ (.of_forall fun _ => .ok _)
      | expect p =>
          refine .of_succ (.of_forall fun n => ?_)
          rw [run, runLevel]
          split
          · exact .ok _
          · exact env.finishes_raiseFor _ _ _ _ c
      | pattern source matcher =>
          refine .of_succ (.of_forall fun n => ?_)
          rw [run, runLevel]
          split <;> exact .ok _
      | sequence a b =>
          have ha := ih a (.head _) (fun rule h => hrules rule (.sequenceFirst h)) hle
          have hb (hnil : a.PossiblyEmpty empty) (d : Config σ)
              (hd : d.cursor.ahead.length ≤ length) : Halts fun n => env.run n b d :=
            ih b (.tail _ (.head _)) (fun rule h => hrules rule (.sequenceSecond hnil h)) hd
          exact halts_sequence ha fun n o ho hmatched =>
            halts_behind hempty hshorter hle ho hmatched hb (Nat.le_refl _)
      | choice a b =>
          have ha := ih a (.head _) (fun rule h => hrules rule (.choiceFirst h)) hle
          exact halts_choice ha fun d hd =>
            ih b (.tail _ (.head _)) (fun rule h => hrules rule (.choiceSecond h)) (hd.trans hle)
      | repetition atLeast item =>
          refine .of_succ ?_
          exact env.halts_iterate (env.growing_run item) (fun n => env.orderly_run n item) item
            atLeast fun d hd =>
              ih item (.head _) (fun rule h => hrules rule (.repetition h)) (hd.trans hle)
      | option item =>
          exact halts_option (ih item (.head _) (fun rule h => hrules rule (.option h)) hle)
      | sepBy item separator =>
          have hitem (d : Config σ) (hd : d.cursor.ahead.length ≤ c.cursor.ahead.length) :
              Halts fun n => env.run n item d :=
            ih item (.head _) (fun rule h => hrules rule (.sepByItem h)) (hd.trans hle)
          -- A separator is entered in place only if the first item may match in place.
          have hseparator (hnil : item.PossiblyEmpty empty) (d : Config σ)
              (hd : d.cursor.ahead.length ≤ length) : Halts fun n => env.run n separator d :=
            ih separator (.tail _ (.head _)) (fun rule h => hrules rule (.sepBySeparator hnil h)) hd
          exact halts_sepBy hitem fun n o ho hmatched d hd =>
            halts_behind hempty hshorter hle ho hmatched hseparator hd
      | discard item | except kind item forbidden | attempt item | attemptPure item
      | strict message item | trace label item | token item | shared item | reference name item
      | define name item | rename name rank item => exact hwrapped rfl (.head _)
      | all kind action parts =>
          have hparts : Halts fun n => runAll (env.run n) parts c := by
            refine env.halts_runAll
              (fun _ _ _ _ ho hmatched hstayed =>
                possiblyEmpty_of_stayed hempty ho hmatched hstayed)
              hshorter (.inr ⟨hle, ?_⟩)
            rintro front part back rfl hfront c hle
            exact ih part.2 (List.mem_map_of_mem (by simp))
              (fun rule h => hrules rule (.all hfront h)) hle
          refine .of_succ (hparts.bind_finishing fun p => ?_)
          exact finishes_andThen fun c => env.finishes_act _ _ _ _ _ c
      | any kind action parts =>
          have hparts : Halts fun n => env.runAny (env.run n) c.cursor.position 0 parts c :=
            env.halts_runAny (fun part hmem d hd => ih part.2 (List.mem_map_of_mem hmem)
              (fun rule h => hrules rule (.any hmem h)) hd) _ 0 hle
          refine .of_succ (hparts.bind_finishing fun p => ?_)
          obtain ⟨found, o⟩ := p
          cases found with
          | none => exact .ok o
          | some iv => exact finishes_andThen fun c => env.finishes_act _ _ _ _ _ c
      | handle slot =>
          exact halts_handle fun body hbody => hrules (.slot slot) .handle body hbody c hle
      | fixed hold name rule =>
          exact halts_fixed (fun body hbody => hrules (.fixed rule) .fixed body hbody c hle) _ _

/-- By induction on what lies ahead, and for each length of it on the order of left calls. -/
theorem halts_of_acyclic (hempty : env.store.Includes empty)
    (hacyclic : ∀ rule, ¬ Relation.TransGen (env.store.LeftCalls empty) rule rule) (g : Grammar σ)
    (c : Config σ) : Halts fun n => env.run n g c := by
  generalize hlength : c.cursor.ahead.length = length
  induction length using Nat.strong_induction_on generalizing g c with
  | _ length ih =>
      have hshorter (g : Grammar σ) (c : Config σ) (hlt : c.cursor.ahead.length < length) :
          Halts fun n => env.run n g c := ih _ hlt g c rfl
      have hrules (rule : {rule // rule ∈ env.store.ruleNames}) :
          ∀ body, env.store.body? rule.1 = some body →
            ∀ c : Config σ, c.cursor.ahead.length ≤ length → Halts fun n => env.run n body c := by
        induction rule using (Store.wellFounded_leftCalls hacyclic).induction with
        | _ rule ihrule =>
            intro body hbody c hle
            refine halts_of_enters hempty hshorter (fun rule' henters body' hbody' => ?_) hle
            exact ihrule ⟨rule', Store.mem_ruleNames hbody'⟩ ⟨body, hbody, henters⟩ body' hbody'
      refine halts_of_enters hempty hshorter (fun rule _ body hbody => ?_) hlength.le
      exact hrules ⟨rule, Store.mem_ruleNames hbody⟩ body hbody

/-- Where no rule left-calls itself, be it in several steps, every run of every grammar returns. -/
theorem exists_yields_of_not_leftRecursive (hempty : env.store.Includes empty)
    (hacyclic : ∀ rule, ¬ Relation.TransGen (env.store.LeftCalls empty) rule rule) (g : Grammar σ)
    (c : Config σ) (hc : c.cursor.place.IsGenuine c.cursor.input) : ∃ o, env.Yields g c o := by
  obtain ⟨n, hn⟩ := halts_of_acyclic hempty hacyclic g c
  cases hr : env.run n g c with
  | ok o => exact ⟨o, n, hr⟩
  | error stop =>
      cases stop with
      | nestingLimit => exact absurd hr hn
      | fault f => exact absurd hc ((env.orderly_run n g c).of_eq_fault hr)

/-- Sums of operands, each of which may be a sum in parentheses. -/
theorem exists_yields_of_not_leftRecursive_sum :
    let sum : Grammar Nat := .sequence (.handle ⟨0, 1⟩)
      (.option (.sequence (.accept (.symbol '+')) (.handle ⟨0, 0⟩)))
    let operand : Grammar Nat := .choice (.accept (.symbol 'x'))
      (.sequence (.accept (.symbol '(')) (.sequence (.handle ⟨0, 0⟩) (.accept (.symbol ')'))))
    let env : Environment Nat := ⟨⟨⟨[some [some (.rule sum), some (.rule operand)]]⟩, []⟩, .off⟩
    let empty : RuleName → Prop := fun _ => False
    let c : Config Nat := ⟨.ofInput ['(', 'x', '+', 'x'], some (.text ""), 0⟩
    env.store.Includes empty ∧
      (∀ rule, ¬ Relation.TransGen (env.store.LeftCalls empty) rule rule) ∧
        c.cursor.place.IsGenuine c.cursor.input ∧ ∃ o, env.Yields (.handle ⟨0, 0⟩) c o := by
  intro sum operand env empty c
  have hbody {rule : RuleName} {body : Grammar Nat} (h : env.store.body? rule = some body) :
      rule = .slot ⟨0, 0⟩ ∧ body = sum ∨ rule = .slot ⟨0, 1⟩ ∧ body = operand := by
    have hmem : rule ∈ [RuleName.slot ⟨0, 0⟩, .slot ⟨0, 1⟩] := Store.mem_ruleNames h
    simp only [List.mem_cons, List.not_mem_nil, or_false] at hmem
    rcases hmem with rfl | rfl
    · exact .inl ⟨rfl, (Option.some.inj h).symm⟩
    · exact .inr ⟨rfl, (Option.some.inj h).symm⟩
  have haccept (s : Char) : ¬ (Grammar.accept (.symbol s) : Grammar Nat).PossiblyEmpty empty :=
    fun h => nomatch Grammar.possiblyEmpty_accept_iff.1 h
  have hhandle (slot : Slot) : ¬ (Grammar.handle slot : Grammar Nat).PossiblyEmpty empty :=
    fun h => Grammar.possiblyEmpty_handle_iff.1 h
  have hincludes : env.store.Includes empty := by
    intro rule body hrule hempty
    obtain ⟨-, rfl⟩ | ⟨-, rfl⟩ := hbody hrule
    · exact hhandle _ (Grammar.possiblyEmpty_sequence_iff.1 hempty).1
    · rcases Grammar.possiblyEmpty_choice_iff.1 hempty with ha | hb
      · exact haccept _ ha
      · exact haccept _ (Grammar.possiblyEmpty_sequence_iff.1 hb).1
  have hcalls {rule rule' : RuleName} (h : env.store.LeftCalls empty rule rule') :
      rule = .slot ⟨0, 0⟩ ∧ rule' = .slot ⟨0, 1⟩ := by
    obtain ⟨body, hrule, henters⟩ := h
    obtain ⟨rfl, rfl⟩ | ⟨rfl, rfl⟩ := hbody hrule
    · rcases Grammar.enters_sequence_iff.1 henters with ha | ⟨hnil, -⟩
      · exact ⟨rfl, Grammar.enters_handle_iff.1 ha⟩
      · exact absurd hnil (hhandle _)
    · rcases Grammar.enters_choice_iff.1 henters with ha | hb
      · exact absurd ha Grammar.not_enters_accept
      · rcases Grammar.enters_sequence_iff.1 hb with ha | ⟨hnil, -⟩
        · exact absurd ha Grammar.not_enters_accept
        · exact absurd hnil (haccept _)
  have hacyclic (rule : RuleName) :
      ¬ Relation.TransGen (env.store.LeftCalls empty) rule rule := by
    intro h
    obtain ⟨middle, hfirst, -⟩ := Relation.TransGen.head'_iff.1 h
    obtain ⟨middle', -, hlast⟩ := Relation.TransGen.tail'_iff.1 h
    exact absurd ((hcalls hfirst).1.symm.trans (hcalls hlast).2) (by decide)
  have hc : c.cursor.place.IsGenuine c.cursor.input := ⟨rfl, rfl⟩
  exact ⟨hincludes, hacyclic, hc, exists_yields_of_not_leftRecursive hincludes hacyclic _ c hc⟩

end Environment

end ParserAlgebra
