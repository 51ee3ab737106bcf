import ParserAlgebra.Proofs.Results

/-!
# Rules with actions

The parts of a rule with an action run into slots of their own and on one state, which each part
hands on to the next. When they have matched, all of them or one of them, the action is called, once
and on the slot of the rule; when they have not, it is not called at all.
-/

namespace ParserAlgebra

variable {σ : Type}

/-- What the parts of a rule with an action come to. -/
inductive PartsEnd (σ : Type) where
  /-- The action is called. -/
  | call (args : Arguments)
  | mismatched
  | failed (e : ParseError)
  /-- A part has moved the cursor and does not match, and the one after it is not tried. -/
  | overrun (part : Grammar σ)

/-- What parts in order come to. -/
def PartsEnd.ofVerdict (args : Arguments) : Verdict → PartsEnd σ
  | .matched => .call args
  | .mismatched => .mismatched
  | .failed e => .failed e

namespace Environment

/-- Parts that all match, each from where the one before it stopped, with the values that they leave
in their slots. -/
inductive MatchInOrder (env : Environment σ) :
    List (Kind × Grammar σ) → Cursor → σ → List Value → Cursor → σ → Prop
  | nil {cursor : Cursor} {state : σ} : MatchInOrder env [] cursor state [] cursor state
  | cons {kind : Kind} {part : Grammar σ} {parts : List (Kind × Grammar σ)}
      {cursor cursor₁ cursor₂ : Cursor} {state state₁ state₂ : σ} {v : Value} {values : List Value}
      (h : env.ResultsIn part ⟨cursor, some kind.default, state⟩ .matched ⟨cursor₁, some v, state₁⟩)
      (hrest : MatchInOrder env parts cursor₁ state₁ values cursor₂ state₂) :
      MatchInOrder env ((kind, part) :: parts) cursor state (v :: values) cursor₂ state₂

/-- Parts that all mismatch without moving the cursor. -/
inductive MissInPlace (env : Environment σ) (cursor : Cursor) :
    List (Kind × Grammar σ) → σ → σ → Prop
  | nil {state : σ} : MissInPlace env cursor [] state state
  | cons {kind : Kind} {part : Grammar σ} {parts : List (Kind × Grammar σ)}
      {state state₁ state₂ : σ} {left : Option Value}
      (h : env.ResultsIn part ⟨cursor, some kind.default, state⟩ .mismatched ⟨cursor, left, state₁⟩)
      (hrest : MissInPlace env cursor parts state₁ state₂) :
      MissInPlace env cursor ((kind, part) :: parts) state state₂

/-- Parts in order: they come to a call if all of them match, and otherwise to what the first one
that does not match comes to, from where those before it have led. -/
inductive AllEnd (env : Environment σ) (parts : List (Kind × Grammar σ)) (start : Cursor)
    (initial : σ) : PartsEnd σ → Cursor → σ → Prop
  | call {values : List Value} {cursor : Cursor} {state : σ}
      (h : env.MatchInOrder parts start initial values cursor state) :
      AllEnd env parts start initial (.call ⟨values, none⟩) cursor state
  | mismatched {front back : List (Kind × Grammar σ)} {kind : Kind} {part : Grammar σ}
      {values : List Value} {cursor cursor₁ : Cursor} {state state₁ : σ} {left : Option Value}
      (hparts : parts = front ++ (kind, part) :: back)
      (hfront : env.MatchInOrder front start initial values cursor₁ state₁)
      (h : env.ResultsIn part ⟨cursor₁, some kind.default, state₁⟩ .mismatched
        ⟨cursor, left, state⟩) : AllEnd env parts start initial .mismatched cursor state
  | failed {front back : List (Kind × Grammar σ)} {kind : Kind} {part : Grammar σ}
      {values : List Value} {cursor cursor₁ : Cursor} {state state₁ : σ} {left : Option Value}
      {e : ParseError} (hparts : parts = front ++ (kind, part) :: back)
      (hfront : env.MatchInOrder front start initial values cursor₁ state₁)
      (h : env.ResultsIn part ⟨cursor₁, some kind.default, state₁⟩ (.failed e)
        ⟨cursor, left, state⟩) : AllEnd env parts start initial (.failed e) cursor state

/-- Alternatives, numbered on from `first`: they come to a call with the first one that matches. All
of them are tried from the same place, as long as those before have mismatched there. -/
inductive AnyEnd (env : Environment σ) (first : Nat) (parts : List (Kind × Grammar σ))
    (start : Cursor) (initial : σ) : PartsEnd σ → Cursor → σ → Prop
  | call {front back : List (Kind × Grammar σ)} {kind : Kind} {part : Grammar σ} {v : Value}
      {cursor : Cursor} {state state₁ : σ} (hparts : parts = front ++ (kind, part) :: back)
      (hfront : env.MissInPlace start front initial state₁)
      (h : env.ResultsIn part ⟨start, some kind.default, state₁⟩ .matched ⟨cursor, some v, state⟩) :
      AnyEnd env first parts start initial (.call ⟨[v], some (first + front.length)⟩) cursor state
  | mismatched {state : σ} (h : env.MissInPlace start parts initial state) :
      AnyEnd env first parts start initial .mismatched start state
  | failed {front back : List (Kind × Grammar σ)} {kind : Kind} {part : Grammar σ}
      {cursor : Cursor} {state state₁ : σ} {left : Option Value} {e : ParseError}
      (hparts : parts = front ++ (kind, part) :: back)
      (hfront : env.MissInPlace start front initial state₁)
      (h : env.ResultsIn part ⟨start, some kind.default, state₁⟩ (.failed e)
        ⟨cursor, left, state⟩) : AnyEnd env first parts start initial (.failed e) cursor state
  | overrun {front back : List (Kind × Grammar σ)} {kind : Kind} {part : Grammar σ}
      {cursor : Cursor} {state state₁ : σ} {left : Option Value}
      (hparts : parts = front ++ (kind, part) :: back)
      (hfront : env.MissInPlace start front initial state₁)
      (h : env.ResultsIn part ⟨start, some kind.default, state₁⟩ .mismatched ⟨cursor, left, state⟩)
      (hmoved : cursor.offset ≠ start.offset) :
      AnyEnd env first parts start initial (.overrun part) cursor state

/-- What a rule with an action results in, begun in the configuration `c`, when its parts have come
to something at a cursor and with a state. The action is called on the slot or on a scratch value;
if it fails, the error is located where the rule began. -/
inductive Concludes (env : Environment σ) (g : Grammar σ) (kind : Kind) (action : Action σ)
    (c : Config σ) (cursor : Cursor) (state : σ) : PartsEnd σ → Verdict → Config σ → Prop
  | acted {args : Arguments} {effect : Effect σ}
      (heffect : action args (c.slot.getD kind.default) state = effect)
      (hfailure : effect.failure = none) :
      Concludes env g kind action c cursor state (.call args) .matched
        ⟨cursor, c.slot.map fun _ => effect.slot, effect.state⟩
  | refused {args : Arguments} {effect : Effect σ} {failure : Failure} {e : ParseError}
      (heffect : action args (c.slot.getD kind.default) state = effect)
      (hfailure : effect.failure = some failure)
      (he : env.Blames g .action failure.message c.cursor.position c.cursor.position cursor e) :
      Concludes env g kind action c cursor state (.call args) (.failed e)
        ⟨cursor, c.slot.map fun _ => effect.slot, effect.state⟩
  | mismatched : Concludes env g kind action c cursor state .mismatched .mismatched
      ⟨cursor, c.slot, state⟩
  | failed {e : ParseError} : Concludes env g kind action c cursor state (.failed e) (.failed e)
      ⟨cursor, c.slot, state⟩
  | overrun {part : Grammar σ} {e : ParseError}
      (he : env.Blames part .consumed branchConsumed c.cursor.position cursor.position cursor e) :
      Concludes env g kind action c cursor state (.overrun part) (.failed e)
        ⟨cursor, c.slot, state⟩

variable {env : Environment σ} {g part : Grammar σ} {kind : Kind} {action : Action σ}
  {parts front back : List (Kind × Grammar σ)} {c d : Config σ} {start cursor cursor₁ : Cursor}
  {initial state state₁ : σ} {verdict : Verdict} {args : Arguments} {finish : PartsEnd σ}
  {n first : Nat}

section Calls

theorem exists_concludes (hc : c.cursor.place.IsGenuine c.cursor.input)
    (honward : c.cursor.Onward cursor) (g : Grammar σ) (kind : Kind) (action : Action σ) (state : σ)
    (finish : PartsEnd σ) :
    ∃ verdict d, env.Concludes g kind action c cursor state finish verdict d := by
  have hstart : c.cursor.place.IsGenuine cursor.input := honward.input ▸ hc
  have hcursor : cursor.place.IsGenuine cursor.input := honward.isGenuine hc
  cases finish with
  | call args =>
      cases hfailure : (action args (c.slot.getD kind.default) state).failure with
      | none => exact ⟨_, _, .acted rfl hfailure⟩
      | some failure =>
          obtain ⟨e, he⟩ := env.exists_blames g .action failure.message hstart hstart
          exact ⟨_, _, .refused rfl hfailure he⟩
  | mismatched => exact ⟨_, _, .mismatched⟩
  | failed e => exact ⟨_, _, .failed⟩
  | overrun part =>
      obtain ⟨e, he⟩ := env.exists_blames part .consumed branchConsumed hstart hcursor
      exact ⟨_, _, .overrun he⟩

theorem act_of_failure_none (h : (action args (c.slot.getD kind.default) c.state).failure = none)
    (g : Grammar σ) (start : Position) : env.act g kind action args start c =
      .ok ⟨.matched, ⟨c.cursor,
        c.slot.map fun _ => (action args (c.slot.getD kind.default) c.state).slot,
        (action args (c.slot.getD kind.default) c.state).state⟩, []⟩ := by
  rw [act, h]
  rfl

theorem act_of_failure {failure : Failure} {start : Position} {o : Outcome σ}
    (h : (action args (c.slot.getD kind.default) c.state).failure = some failure) :
    env.act g kind action args start c = .ok o ↔
      ∃ e, env.Blames g .action failure.message start start c.cursor e ∧
        o = ⟨.failed e, ⟨c.cursor,
          c.slot.map fun _ => (action args (c.slot.getD kind.default) c.state).slot,
          (action args (c.slot.getD kind.default) c.state).state⟩,
          env.verbosity.record .debug e.summary⟩ := by
  obtain ⟨x, hx⟩ := env.exists_expectationOf g
  rw [act, h]
  dsimp only
  rw [hx]
  exact raise_eq_ok_iff hx

/-- The action is called where the parts end with a match. -/
theorem andThen_act_iff {reached : Verdict} {records : List LogRecord} :
    (∃ records', (⟨reached, ⟨cursor, c.slot, state⟩, records⟩ : Outcome σ).andThen
        (env.act g kind action args c.cursor.position) = .ok ⟨verdict, d, records'⟩) ↔
      env.Concludes g kind action c cursor state (.ofVerdict args reached) verdict d := by
  cases reached with
  | matched =>
      rw [Outcome.andThen_of_matched rfl]
      dsimp only
      constructor
      · rintro ⟨records', h⟩
        cases hfailure : (action args (c.slot.getD kind.default) state).failure with
        | none =>
            rw [act_of_failure_none hfailure] at h
            cases h
            exact .acted rfl hfailure
        | some failure =>
            obtain ⟨o, hact, ho⟩ := exists_of_map_eq_ok h
            obtain ⟨e, he, rfl⟩ := (act_of_failure hfailure).1 hact
            cases ho
            exact .refused rfl hfailure he
      · intro h
        cases h with
        | acted heffect hfailure =>
            subst heffect
            rw [act_of_failure_none hfailure]
            exact ⟨_, rfl⟩
        | @refused _ _ failure e heffect hfailure he =>
            subst heffect
            rw [(act_of_failure hfailure).2 ⟨e, he, rfl⟩]
            exact ⟨_, rfl⟩
  | mismatched =>
      constructor
      · rintro ⟨records', h⟩
        cases h
        exact .mismatched
      · intro h
        cases h
        exact ⟨records, rfl⟩
  | failed e =>
      constructor
      · rintro ⟨records', h⟩
        cases h
        exact .failed
      · intro h
        cases h
        exact ⟨records, rfl⟩

end Calls

section All

theorem runAll_cons_of_matched {run : Grammar σ → Step σ} {v : Value} {records : List LogRecord}
    (h : run part { c with slot := some kind.default } =
      .ok ⟨.matched, ⟨cursor, some v, state⟩, records⟩) :
    runAll run ((kind, part) :: parts) c = (runAll run parts ⟨cursor, c.slot, state⟩).map
      fun p => (v :: p.1, p.2.after records) := by
  rw [runAll, runInto, h]
  rfl

theorem runAll_cons_of_not_matched {run : Grammar σ → Step σ} {left : Option Value}
    {records : List LogRecord}
    (h : run part { c with slot := some kind.default } =
      .ok ⟨verdict, ⟨cursor, left, state⟩, records⟩) (hmatched : verdict ≠ .matched) :
    runAll run ((kind, part) :: parts) c =
      .ok ([], ⟨verdict, ⟨cursor, c.slot, state⟩, records⟩) := by
  rw [runAll, runInto, h]
  cases verdict with
  | matched => exact absurd rfl hmatched
  | mismatched => rfl
  | failed e => rfl

theorem MatchInOrder.onward (h : env.MatchInOrder parts start initial values cursor state) :
    start.Onward cursor := by
  induction h with
  | nil => exact .refl _
  | cons h hrest ih => exact (ResultsIn.onward h).trans ih

theorem AllEnd.onward (h : env.AllEnd parts start initial finish cursor state) :
    start.Onward cursor := by
  cases h with
  | call h => exact h.onward
  | mismatched hparts hfront h => exact hfront.onward.trans h.onward
  | failed hparts hfront h => exact hfront.onward.trans h.onward

/-- A part that matches before the others. -/
theorem AllEnd.cons {v : Value} {values : List Value}
    (h : env.ResultsIn part ⟨start, some kind.default, initial⟩ .matched ⟨cursor₁, some v, state₁⟩)
    (hrest : env.AllEnd parts cursor₁ state₁ (.ofVerdict ⟨values, none⟩ verdict) cursor state) :
    env.AllEnd ((kind, part) :: parts) start initial (.ofVerdict ⟨v :: values, none⟩ verdict) cursor
      state := by
  cases verdict with
  | matched =>
      cases hrest with
      | call hrest => exact .call (.cons h hrest)
  | mismatched =>
      cases hrest with
      | mismatched hparts hfront hmissed =>
          exact .mismatched (congrArg ((kind, part) :: ·) hparts) (.cons h hfront) hmissed
  | failed e =>
      cases hrest with
      | failed hparts hfront hfailed =>
          exact .failed (congrArg ((kind, part) :: ·) hparts) (.cons h hfront) hfailed

/-- A part that does not match is the last one that is run. -/
theorem AllEnd.of_not_matched {left : Option Value} (hmatched : verdict ≠ .matched)
    (h : env.ResultsIn part ⟨start, some kind.default, initial⟩ verdict ⟨cursor, left, state⟩)
    (parts : List (Kind × Grammar σ)) (args : Arguments) :
    env.AllEnd ((kind, part) :: parts) start initial (.ofVerdict args verdict) cursor state := by
  cases verdict with
  | matched => exact absurd rfl hmatched
  | mismatched => exact .mismatched (List.nil_append _).symm .nil h
  | failed e => exact .failed (List.nil_append _).symm .nil h

theorem allEnd_of_runAll {values : List Value} {o : Outcome σ}
    (h : runAll (env.run n) parts c = .ok (values, o)) :
    env.AllEnd parts c.cursor c.state (.ofVerdict ⟨values, none⟩ o.verdict) o.config.cursor
      o.config.state := by
  induction parts generalizing c values o with
  | nil =>
      cases h
      exact .call .nil
  | cons part parts ih =>
      obtain ⟨kind, part⟩ := part
      obtain ⟨p, hp, -⟩ := exists_of_bind_eq_ok h
      obtain ⟨⟨verdict, ⟨cursor, left, state⟩, records⟩, hfirst, -⟩ := exists_of_runInto hp
      obtain ⟨v, rfl⟩ := Yields.exists_value ⟨n, hfirst⟩
      have hpart : env.ResultsIn part { c with slot := some kind.default } verdict
          ⟨cursor, some v, state⟩ := ⟨n, records, hfirst⟩
      by_cases hmatched : verdict = .matched
      · subst hmatched
        rw [runAll_cons_of_matched hfirst] at h
        obtain ⟨rest, hrest, hlast⟩ := exists_of_map_eq_ok h
        cases hlast
        have hlater := ih hrest
        exact .cons hpart hlater
      · rw [runAll_cons_of_not_matched hfirst hmatched] at h
        cases h
        exact .of_not_matched hmatched hpart parts _

/-- Parts that match in order lead to where the parts behind them begin. -/
theorem MatchInOrder.runAll_append {values rest : List Value} {slot : Option Value}
    (h : env.MatchInOrder front start initial values cursor state)
    (hback : ∃ n records, runAll (env.run n) back ⟨cursor, slot, state⟩ =
      .ok (rest, ⟨verdict, d, records⟩)) :
    ∃ n records, runAll (env.run n) (front ++ back) ⟨start, slot, initial⟩ =
      .ok (values ++ rest, ⟨verdict, d, records⟩) := by
  induction h with
  | nil => exact hback
  | cons h hrest ih =>
      obtain ⟨n, records, hn⟩ := h
      obtain ⟨m, records', hm⟩ := ih hback
      have hfirst := (env.growing_run _ _ n _ (Nat.le_max_left n m)).eq_ok hn
      have hlater := (continuedBy_runAll (env.continuedBy_run (Nat.le_max_right n m)) _ _).eq_ok hm
      refine ⟨max n m, records ++ records', ?_⟩
      rw [List.cons_append, runAll_cons_of_matched hfirst, hlater]
      rfl

theorem AllEnd.exists_runAll (h : env.AllEnd parts start initial finish cursor state)
    (slot : Option Value) : ∃ values verdict, finish = .ofVerdict ⟨values, none⟩ verdict ∧
      ∃ n records, runAll (env.run n) parts ⟨start, slot, initial⟩ =
        .ok (values, ⟨verdict, ⟨cursor, slot, state⟩, records⟩) := by
  have hstop {cursor₁ : Cursor} {state₁ : σ} {kind : Kind} {part : Grammar σ} {left : Option Value}
      {verdict : Verdict} (back : List (Kind × Grammar σ))
      (h : env.ResultsIn part ⟨cursor₁, some kind.default, state₁⟩ verdict ⟨cursor, left, state⟩)
      (hmatched : verdict ≠ .matched) :
      ∃ n records, runAll (env.run n) ((kind, part) :: back) ⟨cursor₁, slot, state₁⟩ =
        .ok ([], ⟨verdict, ⟨cursor, slot, state⟩, records⟩) := by
    obtain ⟨n, records, hn⟩ := h
    exact ⟨n, records, runAll_cons_of_not_matched hn hmatched⟩
  cases h with
  | @call values _ _ h =>
      refine ⟨values, .matched, rfl, ?_⟩
      have hnil : ∃ n records, runAll (env.run n) [] ⟨cursor, slot, state⟩ =
          .ok ([], ⟨.matched, ⟨cursor, slot, state⟩, records⟩) := ⟨0, [], rfl⟩
      have hall := h.runAll_append hnil
      rwa [List.append_nil, List.append_nil] at hall
  | @mismatched front back kind part values _ _ _ _ _ hparts hfront h =>
      subst hparts
      exact ⟨_, .mismatched, rfl, hfront.runAll_append (hstop back h (fun h => nomatch h))⟩
  | @failed front back kind part values _ _ _ _ _ e hparts hfront h =>
      subst hparts
      exact ⟨_, .failed e, rfl, hfront.runAll_append (hstop back h (fun h => nomatch h))⟩

theorem resultsIn_all_iff : env.ResultsIn (.all kind action parts) c verdict d ↔
    ∃ finish cursor state, env.AllEnd parts c.cursor c.state finish cursor state ∧
      env.Concludes (.all kind action parts) kind action c cursor state finish verdict d := by
  constructor
  · rintro ⟨_ | n, records, hn⟩
    · cases hn
    · beta_reduce at hn
      obtain ⟨⟨values, reached, ⟨cursor, slot, state⟩, records'⟩, hparts, hn⟩ :=
        exists_of_bind_eq_ok hn
      obtain rfl : slot = c.slot := (slot_runAll (env.run n) parts c).of_eq_ok hparts
      exact ⟨_, _, _, allEnd_of_runAll hparts, andThen_act_iff.1 ⟨records, hn⟩⟩
  · rintro ⟨finish, cursor, state, hend, hconcludes⟩
    obtain ⟨values, reached, rfl, n, records, hn⟩ := hend.exists_runAll c.slot
    obtain ⟨records', hact⟩ := andThen_act_iff.2 hconcludes
    refine ⟨n + 1, records', ?_⟩
    beta_reduce
    rw [run, runLevel, hn]
    exact hact

end All

section Any

theorem runAny_cons_of_matched {run : Grammar σ → Step σ} {v : Value} {records : List LogRecord}
    {place : Position} (h : run part { c with slot := some kind.default } =
      .ok ⟨.matched, ⟨cursor, some v, state⟩, records⟩) :
    env.runAny run place first ((kind, part) :: parts) c =
      .ok (some (first, v), ⟨.matched, ⟨cursor, c.slot, state⟩, records⟩) := by
  rw [runAny, runInto, h]
  rfl

theorem runAny_cons_of_failed {run : Grammar σ → Step σ} {e : ParseError} {left : Option Value}
    {records : List LogRecord} {place : Position}
    (h : run part { c with slot := some kind.default } =
      .ok ⟨.failed e, ⟨cursor, left, state⟩, records⟩) :
    env.runAny run place first ((kind, part) :: parts) c =
      .ok (none, ⟨.failed e, ⟨cursor, c.slot, state⟩, records⟩) := by
  rw [runAny, runInto, h]
  rfl

theorem runAny_cons_of_mismatched {run : Grammar σ → Step σ} {left : Option Value}
    {records : List LogRecord} {place : Position}
    (h : run part { c with slot := some kind.default } =
      .ok ⟨.mismatched, ⟨cursor, left, state⟩, records⟩) (hstayed : cursor.offset = place.offset) :
    env.runAny run place first ((kind, part) :: parts) c =
      (env.runAny run place (first + 1) parts ⟨cursor, c.slot, state⟩).map
        fun p => (p.1, p.2.after records) := by
  rw [runAny, runInto, h]
  exact if_neg (not_not.2 hstayed)

theorem runAny_cons_of_moved {run : Grammar σ → Step σ} {left : Option Value}
    {records : List LogRecord} {place : Position}
    (h : run part { c with slot := some kind.default } =
      .ok ⟨.mismatched, ⟨cursor, left, state⟩, records⟩) (hmoved : cursor.offset ≠ place.offset) :
    env.runAny run place first ((kind, part) :: parts) c =
      (env.raiseFor .consumed branchConsumed part place ⟨cursor, c.slot, state⟩).map
        fun o => (none, o.after records) := by
  rw [runAny, runInto, h]
  exact if_pos hmoved

theorem AnyEnd.onward (h : env.AnyEnd first parts start initial finish cursor state) :
    start.Onward cursor := by
  cases h with
  | call hparts hfront h => exact ResultsIn.onward h
  | mismatched h => exact .refl start
  | failed hparts hfront h => exact ResultsIn.onward h
  | overrun hparts hfront h hmoved => exact ResultsIn.onward h

/-- An alternative that mismatches in place before the others. -/
theorem AnyEnd.cons {left : Option Value}
    (h : env.ResultsIn part ⟨start, some kind.default, initial⟩ .mismatched ⟨start, left, state₁⟩)
    (hrest : env.AnyEnd (first + 1) parts start state₁ finish cursor state) :
    env.AnyEnd first ((kind, part) :: parts) start initial finish cursor state := by
  cases hrest with
  | @call front _ _ _ v _ _ _ hparts hfront hmatched =>
      have hnumber : first + 1 + front.length = first + (front.length + 1) := by omega
      rw [hnumber]
      exact .call (congrArg ((kind, part) :: ·) hparts) (.cons h hfront) hmatched
  | mismatched hparts => exact .mismatched (.cons h hparts)
  | failed hparts hfront hfailed =>
      exact .failed (congrArg ((kind, part) :: ·) hparts) (.cons h hfront) hfailed
  | overrun hparts hfront hmissed hmoved =>
      exact .overrun (congrArg ((kind, part) :: ·) hparts) (.cons h hfront) hmissed hmoved

/-- What alternatives come to, and what is known of them when the last one has been run. -/
inductive Tells (env : Environment σ) (start : Position) (cursor : Cursor) :
    PartsEnd σ → Option (Nat × Value) → Verdict → Prop
  | call {number : Nat} {v : Value} :
      Tells env start cursor (.call ⟨[v], some number⟩) (some (number, v)) .matched
  | mismatched : Tells env start cursor .mismatched none .mismatched
  | failed {e : ParseError} : Tells env start cursor (.failed e) none (.failed e)
  | overrun {part : Grammar σ} {e : ParseError}
      (he : env.Blames part .consumed branchConsumed start cursor.position cursor e) :
      Tells env start cursor (.overrun part) none (.failed e)

theorem anyEnd_of_runAny {slot : Option Value} {found : Option (Nat × Value)} {o : Outcome σ}
    (h : env.runAny (env.run n) start.position first parts ⟨start, slot, initial⟩ =
      .ok (found, o)) :
    ∃ finish, env.AnyEnd first parts start initial finish o.config.cursor o.config.state ∧
      env.Tells start.position o.config.cursor finish found o.verdict := by
  induction parts generalizing first initial found o with
  | nil =>
      cases h
      exact ⟨_, .mismatched .nil, .mismatched⟩
  | cons part parts ih =>
      obtain ⟨kind, part⟩ := part
      obtain ⟨p, hp, -⟩ := exists_of_bind_eq_ok h
      obtain ⟨⟨verdict, ⟨cursor, left, state⟩, records⟩, htried, -⟩ := exists_of_runInto hp
      obtain ⟨v, rfl⟩ := Yields.exists_value (c := ⟨start, slot, initial⟩) ⟨n, htried⟩
      have hpart : env.ResultsIn part ⟨start, some kind.default, initial⟩ verdict
          ⟨cursor, some v, state⟩ := ⟨n, records, htried⟩
      cases verdict with
      | matched =>
          rw [runAny_cons_of_matched htried] at h
          cases h
          exact ⟨_, .call (List.nil_append _).symm .nil hpart, .call⟩
      | failed e =>
          rw [runAny_cons_of_failed htried] at h
          cases h
          exact ⟨_, .failed (List.nil_append _).symm .nil hpart, .failed⟩
      | mismatched =>
          by_cases hstayed : cursor.offset = start.offset
          · obtain rfl : cursor = start := hpart.onward.eq_of_offset_eq hstayed
            rw [runAny_cons_of_mismatched htried hstayed] at h
            obtain ⟨rest, hrest, hlast⟩ := exists_of_map_eq_ok h
            cases hlast
            obtain ⟨finish, hend, htells⟩ := ih hrest
            exact ⟨finish, hend.cons hpart, htells⟩
          · rw [runAny_cons_of_moved htried hstayed] at h
            obtain ⟨raised, hraise, hlast⟩ := exists_of_map_eq_ok h
            obtain ⟨e, he, rfl⟩ := raiseFor_eq_ok_iff.1 hraise
            cases hlast
            exact ⟨_, .overrun (List.nil_append _).symm .nil hpart hstayed, .overrun he⟩

/-- Alternatives that mismatch in place lead to those behind them. -/
theorem MissInPlace.runAny_append {slot : Option Value} {found : Option (Nat × Value)}
    (h : env.MissInPlace start front initial state)
    (hback : ∃ n records, env.runAny (env.run n) start.position (first + front.length) back
      ⟨start, slot, state⟩ = .ok (found, ⟨verdict, d, records⟩)) :
    ∃ n records, env.runAny (env.run n) start.position first (front ++ back)
      ⟨start, slot, initial⟩ = .ok (found, ⟨verdict, d, records⟩) := by
  induction h generalizing first with
  | nil => exact hback
  | @cons kind part parts _ _ _ left h hrest ih =>
      have hnumber : first + (parts.length + 1) = first + 1 + parts.length := by omega
      rw [List.length_cons, hnumber] at hback
      obtain ⟨n, records, hn⟩ := h
      obtain ⟨m, records', hm⟩ := ih hback
      have hfirst := (env.growing_run _ _ n _ (Nat.le_max_left n m)).eq_ok hn
      have hlater := (env.continuedBy_runAny (env.continuedBy_run (Nat.le_max_right n m))
        start.position _ _ _).eq_ok hm
      refine ⟨max n m, records ++ records', ?_⟩
      rw [List.cons_append, runAny_cons_of_mismatched hfirst rfl, hlater]
      rfl

theorem AnyEnd.exists_runAny {found : Option (Nat × Value)}
    (h : env.AnyEnd first parts start initial finish cursor state)
    (htells : env.Tells start.position cursor finish found verdict) (slot : Option Value) :
    ∃ n records, env.runAny (env.run n) start.position first parts ⟨start, slot, initial⟩ =
      .ok (found, ⟨verdict, ⟨cursor, slot, state⟩, records⟩) := by
  cases h with
  | call hparts hfront h =>
      subst hparts
      obtain ⟨n, records, hn⟩ := h
      cases htells
      exact hfront.runAny_append ⟨n, records, runAny_cons_of_matched hn⟩
  | mismatched h =>
      cases htells
      have hnil : ∃ n records, env.runAny (env.run n) start.position (first + parts.length) []
          ⟨start, slot, state⟩ = .ok (none, ⟨.mismatched, ⟨start, slot, state⟩, records⟩) :=
        ⟨0, [], rfl⟩
      have hmissed := h.runAny_append hnil
      rwa [List.append_nil] at hmissed
  | failed hparts hfront h =>
      subst hparts
      obtain ⟨n, records, hn⟩ := h
      cases htells
      exact hfront.runAny_append ⟨n, records, runAny_cons_of_failed hn⟩
  | overrun hparts hfront h hmoved =>
      subst hparts
      obtain ⟨n, records, hn⟩ := h
      cases htells with
      | @overrun part e he =>
          refine hfront.runAny_append ⟨n, records ++ env.verbosity.record .debug e.summary, ?_⟩
          rw [runAny_cons_of_moved hn hmoved, raiseFor_eq_ok_iff.2 ⟨e, he, rfl⟩]
          rfl

theorem run_any_of_found {i : Nat} {v : Value} {o : Outcome σ}
    (h : env.runAny (env.run n) c.cursor.position 0 parts c = .ok (some (i, v), o)) :
    env.run (n + 1) (.any kind action parts) c =
      o.andThen (env.act (.any kind action parts) kind action ⟨[v], some i⟩ c.cursor.position) := by
  rw [run, runLevel, h]
  rfl

theorem run_any_of_none {o : Outcome σ}
    (h : env.runAny (env.run n) c.cursor.position 0 parts c = .ok (none, o)) :
    env.run (n + 1) (.any kind action parts) c = .ok o := by
  rw [run, runLevel, h]
  rfl

theorem resultsIn_any_iff : env.ResultsIn (.any kind action parts) c verdict d ↔
    ∃ finish cursor state, env.AnyEnd 0 parts c.cursor c.state finish cursor state ∧
      env.Concludes (.any kind action parts) kind action c cursor state finish verdict d := by
  constructor
  · rintro ⟨_ | n, records, hn⟩
    · cases hn
    · beta_reduce at hn
      obtain ⟨⟨found, reached, ⟨cursor, slot, state⟩, records'⟩, hparts, -⟩ :=
        exists_of_bind_eq_ok hn
      obtain rfl : slot = c.slot := (env.slot_runAny (env.run n) _ 0 parts c).of_eq_ok hparts
      obtain ⟨finish, hend, htells⟩ := anyEnd_of_runAny hparts
      refine ⟨finish, _, _, hend, ?_⟩
      cases htells with
      | call =>
          rw [run_any_of_found hparts] at hn
          exact andThen_act_iff.1 ⟨records, hn⟩
      | mismatched =>
          cases (run_any_of_none hparts).symm.trans hn
          exact .mismatched
      | failed =>
          cases (run_any_of_none hparts).symm.trans hn
          exact .failed
      | overrun he =>
          cases (run_any_of_none hparts).symm.trans hn
          exact .overrun he
  · rintro ⟨finish, cursor, state, hend, hconcludes⟩
    cases finish with
    | call args =>
        obtain ⟨v, number, rfl⟩ : ∃ v number, args = ⟨[v], some number⟩ := by
          cases hend
          exact ⟨_, _, rfl⟩
        obtain ⟨n, records, hn⟩ := hend.exists_runAny .call c.slot
        obtain ⟨records', hact⟩ : ∃ records', (⟨.matched, ⟨cursor, c.slot, state⟩, records⟩ :
            Outcome σ).andThen _ = .ok ⟨verdict, d, records'⟩ := andThen_act_iff.2 hconcludes
        exact ⟨n + 1, records', (run_any_of_found hn).trans hact⟩
    | mismatched =>
        cases hconcludes
        obtain ⟨n, records, hn⟩ := hend.exists_runAny .mismatched c.slot
        exact ⟨n + 1, records, run_any_of_none hn⟩
    | failed e =>
        cases hconcludes
        obtain ⟨n, records, hn⟩ := hend.exists_runAny .failed c.slot
        exact ⟨n + 1, records, run_any_of_none hn⟩
    | overrun part =>
        cases hconcludes with
        | overrun he =>
            obtain ⟨n, records, hn⟩ := hend.exists_runAny (.overrun he) c.slot
            exact ⟨n + 1, records, run_any_of_none hn⟩

end Any

/-- What a rule with an action results in is what follows from the way in which its parts end, and
whenever they end it results in something. The action is called once if all the parts, or one of the
alternatives, have matched, and otherwise not at all. -/
theorem action_called_on_match (env : Environment σ)
    (hc : c.cursor.place.IsGenuine c.cursor.input) (kind : Kind) (action : Action σ)
    (parts : List (Kind × Grammar σ)) :
    ((∀ finish cursor state, env.AllEnd parts c.cursor c.state finish cursor state →
        ∃ verdict d, env.Concludes (.all kind action parts) kind action c cursor state finish
          verdict d) ∧
      ∀ verdict d, env.ResultsIn (.all kind action parts) c verdict d ↔
        ∃ finish cursor state, env.AllEnd parts c.cursor c.state finish cursor state ∧
          env.Concludes (.all kind action parts) kind action c cursor state finish verdict d) ∧
    (∀ finish cursor state, env.AnyEnd 0 parts c.cursor c.state finish cursor state →
        ∃ verdict d, env.Concludes (.any kind action parts) kind action c cursor state finish
          verdict d) ∧
      ∀ verdict d, env.ResultsIn (.any kind action parts) c verdict d ↔
        ∃ finish cursor state, env.AnyEnd 0 parts c.cursor c.state finish cursor state ∧
          env.Concludes (.any kind action parts) kind action c cursor state finish verdict d := by
  refine ⟨⟨fun finish cursor state hend => ?_, fun _ _ => resultsIn_all_iff⟩,
    fun finish cursor state hend => ?_, fun _ _ => resultsIn_any_iff⟩
  · exact exists_concludes hc hend.onward _ kind action state finish
  · exact exists_concludes hc hend.onward _ kind action state finish

/-- The second alternative matches, and the action that is called with its value fails after it has
changed the slot and the state. -/
theorem action_called_on_match_second :
    let action : Action Nat := fun args _ n =>
      ⟨.list args.values, n + 1, some ⟨"refused", ["item", "list"]⟩⟩
    let parts : List (Kind × Grammar Nat) := [(.text, .literal "a"), (.text, .literal "ß")]
    let env : Environment Nat := ⟨.empty, .off⟩
    let c : Config Nat := ⟨(Cursor.ofInput ['c', 'ß', 'd']).advance, some (.list []), 0⟩
    c.cursor.place.IsGenuine c.cursor.input ∧
      ∃ e, env.ResultsIn (.any .list action parts) c (.failed e)
          ⟨c.cursor.advance, some (.list [.text "ß"]), 1⟩ ∧
        e.kind = .action ∧ e.message = "list: item: refused" ∧ e.column = 2 ∧ e.span = ⟨1, 3⟩ := by
  intro action parts env c
  have hc : c.cursor.place.IsGenuine c.cursor.input := ⟨rfl, rfl⟩
  have hend : env.AnyEnd 0 parts c.cursor 0 (.call ⟨[.text "ß"], some 1⟩) c.cursor.advance 0 :=
    .call rfl (.cons ⟨1, [], rfl⟩ .nil) ⟨1, [], rfl⟩
  obtain ⟨-, hcalled, hresults⟩ := env.action_called_on_match hc .list action parts
  obtain ⟨verdict, d, hconcludes⟩ := hcalled _ _ _ hend
  cases hconcludes with
  | acted heffect hfailure =>
      subst heffect
      cases hfailure
  | @refused _ _ failure e heffect hfailure he =>
      subst heffect
      cases hfailure
      have hresult := (hresults _ _).2 ⟨_, _, _, hend, .refused rfl rfl he⟩
      exact ⟨hc, e, hresult, he.kind, he.message, he.column, he.span⟩

end Environment

end ParserAlgebra
