import ParserAlgebra.Action.Script
import ParserAlgebra.Proofs.Lifting

/-!
# Items put into a list

A repetition of a rule whose action puts the value of its one part behind a list leaves the list
with the values of all the runs of that part that have matched, in the order of the runs, however
the repetition ends. What stands between the items adds nothing.
-/

namespace ParserAlgebra

variable {σ : Type}

/-- An action that puts its one argument behind the list in the slot and does nothing else. -/
def Action.Pushes (action : Action σ) : Prop :=
  ∀ v items state,
    action ⟨[v], none⟩ (.list items) state = ⟨.list (items ++ [v]), state, none⟩

/-- The values that the runs among these that matched have left in their slots. -/
def matchedValues (runs : List (Verdict × Value)) : List Value :=
  runs.filterMap fun run => if run.1 = .matched then some run.2 else none

theorem matchedValues_cons (verdict : Verdict) (v : Value) (runs : List (Verdict × Value)) :
    matchedValues ((verdict, v) :: runs) = matchedValues [(verdict, v)] ++ matchedValues runs := by
  unfold matchedValues
  exact List.filterMap_append (l := [(verdict, v)])

namespace Environment

/-- The runs of a part in an iteration, with their verdicts and what they leave in their slots, and
the cursor and the state to which they lead. Each stands behind a match of `lead`, which has no slot;
the iteration goes on behind a match that has moved the cursor. -/
inductive ItemRuns (env : Environment σ) (kind : Kind) (part lead : Grammar σ) :
    Cursor → σ → List (Verdict × Value) → Cursor → σ → Prop
  | barred {cursor cursor₁ : Cursor} {state state₁ : σ} {left : Option Value} {verdict : Verdict}
      (hlead : env.ResultsIn lead ⟨cursor, none, state⟩ verdict ⟨cursor₁, left, state₁⟩)
      (hverdict : verdict ≠ .matched) : ItemRuns env kind part lead cursor state [] cursor₁ state₁
  | last {cursor cursor₁ cursor₂ : Cursor} {state state₁ state₂ : σ} {left : Option Value}
      {verdict : Verdict} {v : Value}
      (hlead : env.ResultsIn lead ⟨cursor, none, state⟩ .matched ⟨cursor₁, left, state₁⟩)
      (h : env.ResultsIn part ⟨cursor₁, some kind.default, state₁⟩ verdict
        ⟨cursor₂, some v, state₂⟩)
      (hlast : verdict ≠ .matched ∨ cursor₂.offset = cursor.offset) :
      ItemRuns env kind part lead cursor state [(verdict, v)] cursor₂ state₂
  | more {cursor cursor₁ cursor₂ cursor₃ : Cursor} {state state₁ state₂ state₃ : σ}
      {left : Option Value} {v : Value} {runs : List (Verdict × Value)}
      (hlead : env.ResultsIn lead ⟨cursor, none, state⟩ .matched ⟨cursor₁, left, state₁⟩)
      (h : env.ResultsIn part ⟨cursor₁, some kind.default, state₁⟩ .matched
        ⟨cursor₂, some v, state₂⟩)
      (hmoved : cursor₂.offset ≠ cursor.offset)
      (hrest : ItemRuns env kind part lead cursor₂ state₂ runs cursor₃ state₃) :
      ItemRuns env kind part lead cursor state ((.matched, v) :: runs) cursor₃ state₃

/-- The runs of a part in an iteration where the first one stands behind nothing. -/
inductive SeparatedRuns (env : Environment σ) (kind : Kind) (part separator : Grammar σ)
    (cursor : Cursor) (state : σ) : List (Verdict × Value) → Cursor → σ → Prop
  | alone {cursor₁ : Cursor} {state₁ : σ} {verdict : Verdict} {v : Value}
      (h : env.ResultsIn part ⟨cursor, some kind.default, state⟩ verdict ⟨cursor₁, some v, state₁⟩)
      (hverdict : verdict ≠ .matched) :
      SeparatedRuns env kind part separator cursor state [(verdict, v)] cursor₁ state₁
  | followed {cursor₁ cursor₂ : Cursor} {state₁ state₂ : σ} {v : Value}
      {runs : List (Verdict × Value)}
      (h : env.ResultsIn part ⟨cursor, some kind.default, state⟩ .matched
        ⟨cursor₁, some v, state₁⟩)
      (hrest : env.ItemRuns kind part separator cursor₁ state₁ runs cursor₂ state₂) :
      SeparatedRuns env kind part separator cursor state ((.matched, v) :: runs) cursor₂ state₂

variable {env : Environment σ} {action : Action σ} {kind slotKind : Kind}
  {part lead separator blamed : Grammar σ} {c d : Config σ} {cursor cursor₁ cursor₂ : Cursor}
  {state state₁ state₂ : σ} {verdict : Verdict} {items : List Value}
  {runs runs' : List (Verdict × Value)} {owed : Nat}

theorem ItemRuns.unique (h : env.ItemRuns kind part lead cursor state runs cursor₁ state₁)
    (h' : env.ItemRuns kind part lead cursor state runs' cursor₂ state₂) : runs = runs' := by
  -- What a run results in decides whether the iteration goes on, so the two never part.
  induction h generalizing runs' with
  | barred hlead hverdict =>
      cases h' with
      | barred => rfl
      | last hlead' => exact absurd (hlead.unique hlead').1 hverdict
      | more hlead' => exact absurd (hlead.unique hlead').1 hverdict
  | last hlead h hlast =>
      cases h' with
      | barred hlead' hverdict => exact absurd (hlead'.unique hlead).1 hverdict
      | last hlead' h' =>
          cases (hlead.unique hlead').2
          cases (h.unique h').2
          cases (h.unique h').1
          rfl
      | more hlead' h' hmoved =>
          cases (hlead.unique hlead').2
          cases (h.unique h').2
          cases (h.unique h').1
          exact absurd (hlast.resolve_left (not_not.2 rfl)) hmoved
  | more hlead h hmoved hrest ih =>
      cases h' with
      | barred hlead' hverdict => exact absurd (hlead'.unique hlead).1 hverdict
      | last hlead' h' hlast =>
          cases (hlead.unique hlead').2
          cases (h.unique h').2
          cases (h.unique h').1
          exact absurd (hlast.resolve_left (not_not.2 rfl)) hmoved
      | more hlead' h' _ hrest' =>
          cases (hlead.unique hlead').2
          cases (h.unique h').2
          exact congrArg _ (ih hrest')

theorem SeparatedRuns.unique
    (h : env.SeparatedRuns kind part separator cursor state runs cursor₁ state₁)
    (h' : env.SeparatedRuns kind part separator cursor state runs' cursor₂ state₂) :
    runs = runs' := by
  cases h with
  | alone h hverdict =>
      cases h' with
      | alone h' =>
          cases (h.unique h').2
          cases (h.unique h').1
          rfl
      | followed h' => exact absurd (h.unique h').1 hverdict
  | followed h hrest =>
      cases h' with
      | alone h' hverdict => exact absurd (h'.unique h).1 hverdict
      | followed h' hrest' =>
          cases (h.unique h').2
          exact congrArg _ (hrest.unique hrest')

/-- A single part: whether it matches decides whether the action is called. -/
theorem AllEnd.exists_of_single {finish : PartsEnd σ}
    (h : env.AllEnd [(kind, part)] cursor state finish cursor₁ state₁) :
    ∃ verdict v, env.ResultsIn part ⟨cursor, some kind.default, state⟩ verdict
        ⟨cursor₁, some v, state₁⟩ ∧ finish = .ofVerdict ⟨[v], none⟩ verdict := by
  have honly {front back : List (Kind × Grammar σ)} {kind' : Kind} {part' : Grammar σ}
      (hparts : [(kind, part)] = front ++ (kind', part') :: back) :
      front = [] ∧ kind' = kind ∧ part' = part := by
    cases front with
    | nil =>
        cases hparts
        exact ⟨rfl, rfl, rfl⟩
    | cons first front =>
        have hlength := congrArg List.length hparts
        simp at hlength
  cases h with
  | call hall =>
      cases hall with
      | @cons _ _ _ _ _ _ _ _ _ v _ hpart hrest =>
          cases hrest
          exact ⟨.matched, v, hpart, rfl⟩
  | mismatched hparts hfront hpart =>
      obtain ⟨rfl, rfl, rfl⟩ := honly hparts
      cases hfront
      obtain ⟨v, rfl⟩ := ResultsIn.exists_value (c := ⟨cursor, none, state⟩) hpart
      exact ⟨.mismatched, v, hpart, rfl⟩
  | @failed _ _ _ _ _ _ _ _ _ _ e hparts hfront hpart =>
      obtain ⟨rfl, rfl, rfl⟩ := honly hparts
      cases hfront
      obtain ⟨v, rfl⟩ := ResultsIn.exists_value (c := ⟨cursor, none, state⟩) hpart
      exact ⟨.failed e, v, hpart, rfl⟩

section Pushing

variable (hpush : action.Pushes)

include hpush

/-- An item runs its part into a slot of its own, and a match puts the value behind the list. -/
theorem resultsIn_pushing (hc : c.slot = some (.list items))
    (h : env.ResultsIn (.all slotKind action [(kind, part)]) c verdict d) :
    ∃ v, env.ResultsIn part { c with slot := some kind.default } verdict
        { d with slot := some v } ∧
      d.slot = some (.list (items ++ matchedValues [(verdict, v)])) := by
  obtain ⟨finish, cursor, state, hend, hconcludes⟩ := resultsIn_all_iff.1 h
  obtain ⟨reached, v, hpart, rfl⟩ := hend.exists_of_single
  have hkept : c.slot = some (.list (items ++ [])) := by
    rw [List.append_nil]
    exact hc
  cases reached with
  | matched =>
      have heffect := hpush v items state
      cases hconcludes with
      | acted heffect' hfailure =>
          rw [hc, Option.getD_some, heffect] at heffect'
          subst heffect'
          refine ⟨v, hpart, ?_⟩
          rw [hc]
          rfl
      | refused heffect' hfailure =>
          rw [hc, Option.getD_some, heffect] at heffect'
          subst heffect'
          cases hfailure
  | mismatched =>
      cases hconcludes
      exact ⟨v, hpart, hkept⟩
  | failed e =>
      cases hconcludes
      exact ⟨v, hpart, hkept⟩

/-- A round runs at most one item, and what stands before the item leaves the list alone. -/
theorem resultsIn_round (hc : c.slot = some (.list items))
    (h : env.ResultsIn (.sequence (.discard lead) (.all slotKind action [(kind, part)])) c verdict
      d) :
    (verdict ≠ .matched ∧ d.slot = some (.list items) ∧
      ∃ left, env.ResultsIn lead { c with slot := none } verdict { d with slot := left }) ∨
    ∃ cursor state left v,
      env.ResultsIn lead { c with slot := none } .matched ⟨cursor, left, state⟩ ∧
      env.ResultsIn part ⟨cursor, some kind.default, state⟩ verdict { d with slot := some v } ∧
      d.slot = some (.list (items ++ matchedValues [(verdict, v)])) := by
  rcases resultsIn_sequence_iff.1 h with ⟨e, hlead, hitem⟩ | ⟨hverdict, hlead⟩
  · obtain ⟨hslot, left, hlead⟩ := resultsIn_discard_iff.1 hlead
    obtain ⟨v, hpart, hd⟩ := resultsIn_pushing hpush (hslot.trans hc) hitem
    exact .inr ⟨e.cursor, e.state, left, v, hlead, hpart, hd⟩
  · obtain ⟨hslot, left, hlead⟩ := resultsIn_discard_iff.1 hlead
    exact .inl ⟨hverdict, hslot.trans hc, left, hlead⟩

/-- A round that is the last one. -/
theorem exists_itemRuns_of_round (hc : c.slot = some (.list items))
    (h : env.ResultsIn (.sequence (.discard lead) (.all slotKind action [(kind, part)])) c verdict
      d) (hlast : verdict ≠ .matched ∨ d.cursor.offset = c.cursor.offset) :
    ∃ runs, env.ItemRuns kind part lead c.cursor c.state runs d.cursor d.state ∧
      d.slot = some (.list (items ++ matchedValues runs)) := by
  rcases resultsIn_round hpush hc h with
    ⟨hverdict, hd, left, hlead⟩ | ⟨cursor, state, left, v, hlead, hpart, hd⟩
  · refine ⟨[], .barred hlead hverdict, hd.trans ?_⟩
    exact congrArg (some ∘ Value.list) (List.append_nil items).symm
  · exact ⟨_, .last hlead hpart hlast, hd⟩

/-- By induction on the rounds, with the list that the rounds so far have made. -/
theorem exists_itemRuns_of_iterates (hc : c.slot = some (.list items))
    (h : env.Iterates blamed
      (env.ResultsIn (.sequence (.discard lead) (.all slotKind action [(kind, part)]))) owed c
      verdict d) :
    ∃ runs, env.ItemRuns kind part lead c.cursor c.state runs d.cursor d.state ∧
      d.slot = some (.list (items ++ matchedValues runs)) := by
  induction h generalizing items with
  | missed h hstayed => exact exists_itemRuns_of_round hpush hc h (.inr hstayed)
  | empty h hstayed => exact exists_itemRuns_of_round hpush hc h (.inr hstayed)
  | consumed h hmoved he => exact exists_itemRuns_of_round hpush hc h (.inl (nomatch ·))
  | failed h => exact exists_itemRuns_of_round hpush hc h (.inl (nomatch ·))
  | moved h hmoved hrest ih =>
      rcases resultsIn_round hpush hc h with
        ⟨hverdict, -⟩ | ⟨cursor, state, left, v, hlead, hpart, hd⟩
      · exact absurd rfl hverdict
      · obtain ⟨runs, hruns, hslot⟩ := ih hd
        refine ⟨_, .more hlead hpart hmoved hruns, ?_⟩
        rw [matchedValues_cons _ v runs, ← List.append_assoc]
        exact hslot

theorem exists_separatedRuns (hc : c.slot = some (.list items))
    (h : env.ResultsIn (.sepBy (.all slotKind action [(kind, part)]) separator) c verdict d) :
    ∃ runs, env.SeparatedRuns kind part separator c.cursor c.state runs d.cursor d.state ∧
      d.slot = some (.list (items ++ matchedValues runs)) := by
  rcases resultsIn_sepBy_iff.1 h with ⟨e, hfirst, hrounds⟩ | ⟨hverdict, hfirst⟩
  · obtain ⟨v, hpart, he⟩ := resultsIn_pushing hpush hc hfirst
    obtain ⟨runs, hruns, hslot⟩ := exists_itemRuns_of_iterates hpush he hrounds
    refine ⟨_, .followed hpart hruns, hslot.trans ?_⟩
    rw [matchedValues_cons _ v runs, ← List.append_assoc]
  · obtain ⟨v, hpart, hd⟩ := resultsIn_pushing hpush hc hfirst
    exact ⟨_, .alone hpart hverdict, hd⟩

end Pushing

theorem resultsIn_discard_succeed_iff :
    env.ResultsIn (.discard .succeed) c verdict d ↔ verdict = .matched ∧ d = c := by
  rw [resultsIn_discard_iff]
  constructor
  · rintro ⟨hslot, left, h⟩
    obtain ⟨hverdict, hd⟩ := resultsIn_succeed_iff.1 h
    obtain ⟨cursor, slot, state⟩ := d
    cases hd
    exact ⟨hverdict, congrArg (Config.mk c.cursor · c.state) hslot⟩
  · rintro ⟨rfl, rfl⟩
    exact ⟨rfl, none, resultsIn_succeed_iff.2 ⟨rfl, rfl⟩⟩

/-- Where nothing stands before an item, a round is a run of the item. -/
theorem resultsIn_behind_succeed (env : Environment σ) (g : Grammar σ) :
    env.ResultsIn (.sequence (.discard .succeed) g) = env.ResultsIn g := by
  funext c verdict d
  refine propext (resultsIn_sequence_iff.trans ?_)
  constructor
  · rintro (⟨e, hlead, h⟩ | ⟨hverdict, hlead⟩)
    · obtain ⟨-, rfl⟩ := resultsIn_discard_succeed_iff.1 hlead
      exact h
    · exact absurd (resultsIn_discard_succeed_iff.1 hlead).1 hverdict
  · intro h
    exact .inl ⟨c, resultsIn_discard_succeed_iff.2 ⟨rfl, rfl⟩, h⟩

/-- However a repetition of items ends, also with an error, the list has grown by the values of the
runs of the part that have matched, each of them once and in order. -/
theorem list_collects_matches (env : Environment σ) (hpush : action.Pushes)
    (hc : c.slot = some (.list items)) (slotKind kind : Kind) (part separator : Grammar σ)
    (atLeast : Nat) (o : Outcome σ) :
    (env.Yields (.repetition atLeast (.all slotKind action [(kind, part)])) c o →
      (∃ runs, env.ItemRuns kind part .succeed c.cursor c.state runs o.config.cursor
        o.config.state) ∧
      ∀ runs cursor state,
        env.ItemRuns kind part .succeed c.cursor c.state runs cursor state →
          o.config.slot = some (.list (items ++ matchedValues runs))) ∧
    (env.Yields (.sepBy (.all slotKind action [(kind, part)]) separator) c o →
      (∃ runs, env.SeparatedRuns kind part separator c.cursor c.state runs o.config.cursor
        o.config.state) ∧
      ∀ runs cursor state,
        env.SeparatedRuns kind part separator c.cursor c.state runs cursor state →
          o.config.slot = some (.list (items ++ matchedValues runs))) := by
  constructor
  · intro h
    have hrounds := resultsIn_repetition_iff.1 h.resultsIn
    rw [← env.resultsIn_behind_succeed] at hrounds
    obtain ⟨runs, hruns, hslot⟩ := exists_itemRuns_of_iterates hpush hc hrounds
    refine ⟨⟨runs, hruns⟩, fun runs' cursor state hruns' => ?_⟩
    rwa [← hruns.unique hruns']
  · intro h
    obtain ⟨runs, hruns, hslot⟩ := exists_separatedRuns hpush hc h.resultsIn
    refine ⟨⟨runs, hruns⟩, fun runs' cursor state hruns' => ?_⟩
    rwa [← hruns.unique hruns']

/-- A separator without an item behind it is an error; the items before it are in the list. -/
theorem list_collects_matches_trailing :
    let push : Action Journal := Script.toAction false [.append []]
    let digit : Grammar Journal := .choice (.literal "1") (.literal "2")
    let env : Environment Journal := ⟨.empty, .off⟩
    let c : Config Journal := ⟨.ofInput ['1', ',', '2', ','], some (.list [.text "0"]), {}⟩
    push.Pushes ∧ c.slot = some (.list [.text "0"]) ∧
      ∃ o e, env.Yields (.sepBy (.all .list push [(.text, digit)]) (.literal ",")) c o ∧
        o.verdict = .failed e ∧ e.kind = .consumed ∧
        o.config.slot = some (.list [.text "0", .text "1", .text "2"]) := by
  intro push digit env c
  have hpush : push.Pushes := fun _ _ _ => rfl
  let item : Grammar Journal := .all .list push [(.text, digit)]
  let c₁ := c.cursor.advance
  let c₂ := c₁.advance
  let c₃ := c₂.advance
  let c₄ := c₃.advance
  have hfirst : env.ResultsIn digit ⟨c.cursor, some (.text ""), {}⟩ .matched
      ⟨c₁, some (.text "1"), {}⟩ := ⟨2, [], rfl⟩
  have hcomma : env.ResultsIn (.literal ",") ⟨c₁, none, {}⟩ .matched ⟨c₂, none, {}⟩ := ⟨1, [], rfl⟩
  have hsecond : env.ResultsIn digit ⟨c₂, some (.text ""), {}⟩ .matched
      ⟨c₃, some (.text "2"), {}⟩ := ⟨3, [], rfl⟩
  have htrailing : env.ResultsIn (.literal ",") ⟨c₃, none, {}⟩ .matched ⟨c₄, none, {}⟩ :=
    ⟨1, [], rfl⟩
  have hmissing : env.ResultsIn digit ⟨c₄, some (.text ""), {}⟩ .mismatched
      ⟨c₄, some (.text ""), {}⟩ := ⟨3, [], rfl⟩
  have hruns : env.SeparatedRuns .text digit (.literal ",") c.cursor {}
      [(.matched, .text "1"), (.matched, .text "2"), (.mismatched, .text "")] c₄ {} :=
    .followed hfirst <| .more hcomma hsecond (by decide) <|
      .last htrailing hmissing (.inl (by decide))
  have hstart : c₃.place.IsGenuine c₄.input := ⟨rfl, rfl⟩
  have hend : c₄.place.IsGenuine c₄.input := ⟨rfl, rfl⟩
  obtain ⟨e, he⟩ := env.exists_blames (.sepBy item (.literal ",")) .consumed iterationConsumed
    hstart hend
  have hresult : env.ResultsIn (.sepBy item (.literal ",")) c (.failed e)
      ⟨c₄, some (.list [.text "0", .text "1", .text "2"]), {}⟩ :=
    resultsIn_sepBy_iff.2 <| .inl ⟨⟨c₁, some (.list [.text "0", .text "1"]), {}⟩, ⟨4, [], rfl⟩,
      .moved (d := ⟨c₃, some (.list [.text "0", .text "1", .text "2"]), {}⟩) ⟨5, [], rfl⟩
        (by decide) (.consumed ⟨5, [], rfl⟩ (by decide) he)⟩
  obtain ⟨records, hyields⟩ := resultsIn_iff.1 hresult
  obtain ⟨-, hcollected⟩ :=
    env.list_collects_matches (c := c) hpush rfl .list .text digit (.literal ",") 0 _
  exact ⟨hpush, rfl, _, e, hyields, rfl, he.kind, (hcollected hyields).2 _ _ _ hruns⟩

end Environment

end ParserAlgebra
