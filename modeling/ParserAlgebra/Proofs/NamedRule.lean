import ParserAlgebra.Proofs.Halting
import ParserAlgebra.Proofs.Resemblance
import ParserAlgebra.Proofs.SelfReference

/-!
# Two ways of building a rule that refers to itself

A body with holes is made a rule as a fixed point, with borrowed occurrences of the fixed point in
the holes, or as the rule of a handle, with references to the handle in the holes. Both are written
as the same name, so whatever the body is, runs of the two end alike, log the same and expect the
same text; only the definitions that an error lists may differ. They are the same as well if the
handle is not used in another way than by its name: written without the name, a handle shows whether
its rule is being written, which a fixed point never does.
-/

namespace ParserAlgebra

variable {σ : Type}

theorem Grammar.mem_plugParts {holes : List RuleId} {filler : Grammar σ}
    {parts : List (Kind × Grammar σ)} {part : Kind × Grammar σ} (h : part ∈ parts) :
    part.2.plug holes filler ∈ (plug.plugParts holes parts filler).map (·.2) := by
  rw [plugParts_eq_map, List.map_map]
  exact List.mem_map.2 ⟨part, h, rfl⟩

/-- The two ways of filling the gaps, in either order. -/
def Fillers (name : String) (slot : Slot) (rule : RuleId) (u v : Grammar σ) : Prop :=
  u = .fixed .borrower name rule ∧ v = .reference name (.handle slot) ∨
    u = .reference name (.handle slot) ∧ v = .fixed .borrower name rule

namespace Fillers

variable {name : String} {slot : Slot} {rule : RuleId} {holes : List RuleId}
  {body u v : Grammar σ}

theorem symm (huv : Fillers name slot rule u v) : Fillers name slot rule v u := by
  rcases huv with ⟨rfl, rfl⟩ | ⟨rfl, rfl⟩
  · exact .inr ⟨rfl, rfl⟩
  · exact .inl ⟨rfl, rfl⟩

/-- Both are written as the name. -/
theorem text_eq (huv : Fillers name slot rule u v) (store : Store σ) (n : Nat) (r : Rendering)
    (text : String) (s : Rendering) (h : u.writeWithin store n r = some (text, s)) :
    text = name := by
  cases n with
  | zero => cases h
  | succ n =>
      rcases huv with ⟨rfl, -⟩ | ⟨rfl, -⟩
      · exact (Grammar.Writer.eq_of_reference h).1
      · exact (Grammar.Writer.eq_of_reference h).1

theorem textsAlike (huv : Fillers name slot rule u v) (store : Store σ) (gaps : List RuleId)
    (g : Grammar σ) : store.TextsAlike (g.plug gaps u) (g.plug gaps v) := by
  have hrank (n : Nat) : u.rankWithin store n = v.rankWithin store n := by
    rcases huv with ⟨rfl, rfl⟩ | ⟨rfl, rfl⟩ <;> cases n <;> rfl
  exact .of_alike fun n m =>
    Grammar.alike_writeWithin_plug hrank (huv.text_eq store) (huv.symm.text_eq store) n m g []

theorem listsAlike (huv : Fillers name slot rule u v) {store : Store σ}
    (hbuilt : store.BuiltBothWays name slot rule holes body) (gaps : List RuleId) (g : Grammar σ)
    (hcalls : store.Throughout (store.CallsByName name slot)
      (g.plug gaps (.reference name (.handle slot)))) :
    store.ListsAlike (g.plug gaps u) (g.plug gaps v) := by
  have hlists := Store.listsAlike_plug hbuilt gaps g hcalls
  rcases huv with ⟨rfl, rfl⟩ | ⟨rfl, rfl⟩
  · exact hlists
  · exact hlists.symm

end Fillers

/-- The same cursor and the same records, and errors that are the same but for the definitions they
list, or altogether if they are `exact`. -/
def Correspondence.sameText (exact : Prop) : Correspondence :=
  .sameCursor (fun x x' => x.text = x'.text ∧ (exact → x = x')) (fun _ => ⟨rfl, fun _ => rfl⟩) True
    fun _ _ _ h => h.1

namespace Correspondence

variable {exact : Prop} {o p : Outcome σ}

theorem sameButDefinitions_of_sameText (h : (sameText exact).Outcomes Eq o p) :
    o.SameButDefinitions p :=
  ⟨h.verdict.imp fun _ _ he => ⟨he.eq_but_expectation, he.expectation.1⟩, h.config.eq,
    h.records trivial⟩

theorem eq_of_sameText (hexact : exact) (h : (sameText exact).Outcomes Eq o p) : o = p := by
  obtain ⟨verdict, config, records⟩ := o
  obtain ⟨verdict', config', records'⟩ := p
  have hverdict : verdict = verdict' := (h.verdict.imp fun e e' he => by
    rw [he.eq_but_expectation, ← he.expectation.2 hexact]).eq
  have hconfig : config = config' := h.config.eq
  have hrecords : records = records' := h.records trivial
  rw [hverdict, hconfig, hrecords]

end Correspondence

/-- Judges grammars whose gaps are filled in two ways. If errors have to be the same altogether, the
slot may be used by its name only. -/
def Store.judgeFilled (store : Store σ) (exact : Prop) (name : String) (slot : Slot)
    (u v : Grammar σ) : Judgement σ := fun S q q' =>
  S = Eq ∧ ∃ (gaps : List RuleId) (g : Grammar σ), q = g.plug gaps u ∧ q' = g.plug gaps v ∧
    (exact → store.Throughout (store.CallsByName name slot)
      (g.plug gaps (.reference name (.handle slot))))

namespace Environment

open Correspondence

variable {env : Environment σ} {exact : Prop} {name : String} {slot : Slot} {rule : RuleId}
  {holes gaps : List RuleId} {body u v g g' : Grammar σ}

theorem passesOn_fixed (h : env.store.fixed? rule = some g) (hold : Hold) (name : String) :
    env.PassesOn True .deeper (.fixed hold name rule) g :=
  .of_run_succ (fun _ _ => rfl) fun n c => by rw [run, runLevel, h]

theorem passesOn_handle (h : env.store.handle? slot = some g) :
    env.PassesOn True .deeper (.handle slot) g :=
  .of_run_succ (fun _ _ => rfl) fun n c => by rw [run, runLevel, h]

theorem passesOn_reference (name : String) (g : Grammar σ) :
    env.PassesOn True .deeper (.reference name g) g :=
  .of_run_succ (fun _ _ => rfl) fun _ _ => rfl

/-- Where a text is expected, it is expected of both, and where nothing uses the handle but the name
the definitions are the same as well. -/
theorem blames_plug (hbuilt : env.store.BuiltBothWays name slot rule holes body)
    (huv : Fillers name slot rule u v)
    (hcalls : exact → env.store.Throughout (env.store.CallsByName name slot)
      (g.plug gaps (.reference name (.handle slot)))) :
    (sameText exact).Blames env (g.plug gaps u) (g.plug gaps v) := by
  have htexts := huv.textsAlike env.store gaps g
  refine ⟨?_, fun _ => htexts.ebnf⟩
  obtain ⟨text, definitions, h⟩ := env.store.exists_describe (g.plug gaps u) .empty
  obtain ⟨text', definitions', h'⟩ := env.store.exists_describe (g.plug gaps v) .empty
  have htext : some text = some text' := by
    have hsame := htexts.describe .empty
    rwa [h, h'] at hsame
  rw [expectationOf, expectationOf, h, h']
  refine .ok ⟨Option.some.inj htext, fun hexact => ?_⟩
  have hsame := (huv.listsAlike hbuilt gaps g (hcalls hexact)).describe .empty
  obtain ⟨rfl, rfl⟩ := Prod.mk.inj (Option.some.inj (h.symm.trans (hsame.trans h')))
  rfl

/-- A fixed point is taken off in one step, a reference to the handle in two, until the bodies of
both are left. -/
theorem restsOn_fillers (hbuilt : env.store.BuiltBothWays name slot rule holes body)
    (huv : Fillers name slot rule u v) {J : Judgement σ}
    (hJ : J Eq (body.plug holes u) (body.plug holes v)) :
    env.RestsOn (sameText exact) .deeper .anything J Eq u v := by
  have hfixed := env.passesOn_fixed hbuilt.fixed .borrower name
  have hhandle := env.passesOn_handle hbuilt.handle
  have hreference := env.passesOn_reference name (.handle slot)
  rcases huv with ⟨rfl, rfl⟩ | ⟨rfl, rfl⟩
  · exact .right hreference (.right hhandle (.judged hfixed hJ))
  · exact .right hfixed (.left hreference (.judged hhandle hJ))

/-- A grammar with gaps is judged by its components, and a gap by the bodies of the two rules. -/
theorem restsOn_plug (hbuilt : env.store.BuiltBothWays name slot rule holes body)
    (huv : Fillers name slot rule u v)
    (hcalls : exact → env.store.Throughout (env.store.CallsByName name slot)
      (g.plug gaps (.reference name (.handle slot)))) :
    env.RestsOn (sameText exact) .deeper .anything (env.store.judgeFilled exact name slot u v) Eq
      (g.plug gaps u) (g.plug gaps v) := by
  have hblames := blames_plug hbuilt huv hcalls
  have hpart {q : Grammar σ} (hq : q.plug gaps (.reference name (.handle slot)) ∈
      env.store.components (g.plug gaps (.reference name (.handle slot)))) :
      env.store.judgeFilled exact name slot u v Eq (q.plug gaps u) (q.plug gaps v) :=
    ⟨rfl, gaps, q, rfl, rfl, fun hexact => (hcalls hexact).component hq⟩
  have hfresh (kind : Kind) {q : Grammar σ} (hq : q.plug gaps (.reference name (.handle slot)) ∈
      env.store.components (g.plug gaps (.reference name (.handle slot)))) :
      env.store.judgeFilled exact name slot u v (Contents.anything.Same kind) (q.plug gaps u)
        (q.plug gaps v) :=
    ⟨Contents.same_anything kind, (hpart hq).2⟩
  have hparts {parts : List (Kind × Grammar σ)}
      (hmem : ∀ part ∈ parts, part.2.plug gaps (.reference name (.handle slot)) ∈
        env.store.components (g.plug gaps (.reference name (.handle slot)))) :
      List.Forall₂ ((env.store.judgeFilled exact name slot u v).Parts .anything)
        (Grammar.plug.plugParts gaps parts u) (Grammar.plug.plugParts gaps parts v) := by
    rw [Grammar.plugParts_eq_map, Grammar.plugParts_eq_map, List.forall₂_map_left_iff,
      List.forall₂_map_right_iff]
    exact List.forall₂_same.2 fun part hpart => ⟨rfl, hfresh part.1 (hmem part hpart)⟩
  -- The rules of others have no gaps: they are compared with themselves.
  have hrule {r : Option (Grammar σ)} (hr : ∀ q, r = some q →
      q ∈ env.store.components (g.plug gaps (.reference name (.handle slot)))) :
      Option.Rel (env.store.judgeFilled exact name slot u v Eq) r r := by
    cases r with
    | none => exact .none
    | some q =>
        refine .some ⟨rfl, [], q, (Grammar.plug_nil u q).symm, (Grammar.plug_nil v q).symm,
          fun hexact => ?_⟩
        rw [Grammar.plug_nil]
        exact (hcalls hexact).component (hr q rfl)
  cases g with
  | accept | expect | literal | pattern => exact .follows (follows_sameCursor_of_reads trivial)
  | succeed => exact .supports hblames .succeed
  | fail => exact .supports hblames .fail
  | sequence a b =>
      exact .supports hblames (.sequence (hpart (.head _)) (hpart (.tail _ (.head _))))
  | choice a b => exact .supports hblames (.choice (hpart (.head _)) (hpart (.tail _ (.head _))))
  | repetition atLeast item => exact .supports hblames (.repetition atLeast (hpart (.head _)))
  | option item => exact .supports hblames (.option (hpart (.head _)))
  | sepBy item separator =>
      exact .supports hblames
        (.sepBy (hpart (.head _)) .text (hfresh .text (.tail _ (.head _))))
  | discard item => exact .supports hblames (.discard .text (hfresh .text (.head _)))
  | except kind item forbidden =>
      exact .supports hblames (.except kind (hfresh kind (.head _)) forbidden (.eq .anything kind))
  | attempt item => exact .supports hblames (.attempt (hpart (.head _)))
  | attemptPure item => exact .supports hblames (.attemptPure (hpart (.head _)))
  | strict message item => exact .supports hblames (.strict message (hpart (.head _)))
  | trace label item => exact .supports hblames (.trace label (hpart (.head _)))
  | token item => exact .supports hblames (.token (hpart (.head _)))
  | shared item => exact .supports hblames (.shared (hpart (.head _)))
  | reference other item => exact .supports hblames (.reference other (hpart (.head _)))
  | define other item => exact .supports hblames (.define other (hpart (.head _)))
  | rename other rank item => exact .supports hblames (.rename other rank (hpart (.head _)))
  | all kind action parts =>
      exact .supports hblames (.all kind action
        (hparts fun part hmem => Grammar.mem_plugParts hmem) fun args _ =>
          action.respects_eq kind args)
  | any kind action parts =>
      exact .supports hblames (.any kind action
        (hparts fun part hmem => Grammar.mem_plugParts hmem) fun args _ =>
          action.respects_eq kind args)
  | handle other =>
      exact .supports hblames (.handle (hrule fun q hq => Option.mem_toList.2 hq))
  | fixed hold other number =>
      by_cases hmem : number ∈ gaps
      · rw [Grammar.plug_fixed_of_mem hmem] at hcalls
        rw [Grammar.plug_fixed_of_mem hmem, Grammar.plug_fixed_of_mem hmem]
        refine restsOn_fillers hbuilt huv ⟨rfl, holes, body, rfl, rfl, fun hexact => ?_⟩
        exact ((hcalls hexact).component (.head _)).component (Option.mem_toList.2 hbuilt.handle)
      · rw [Grammar.plug_fixed_of_not_mem hmem] at hrule hblames
        rw [Grammar.plug_fixed_of_not_mem hmem] at hblames
        rw [Grammar.plug_fixed_of_not_mem hmem, Grammar.plug_fixed_of_not_mem hmem]
        exact .supports hblames
          (.fixed hold hold other (hrule fun q hq => Option.mem_toList.2 hq))

/-- A grammar whose gaps are filled in one way is followed by the one whose gaps are filled in the
other way. -/
theorem follows_run_plug (hbuilt : env.store.BuiltBothWays name slot rule holes body)
    (huv : Fillers name slot rule u v) (gaps : List RuleId) (g : Grammar σ)
    (hcalls : exact → env.store.Throughout (env.store.CallsByName name slot)
      (g.plug gaps (.reference name (.handle slot)))) (n : Nat) :
    (sameText exact).StepFollows .deeper n Eq (env.run n (g.plug gaps u))
      fun m => env.run m (g.plug gaps v) := by
  have hjudged : env.store.judgeFilled exact name slot u v Eq (g.plug gaps u) (g.plug gaps v) :=
    ⟨rfl, gaps, g, rfl, rfl, hcalls⟩
  refine follows_run (H := .anything) ?_ ?_ n hjudged
  · rintro _ _ _ ⟨rfl, gaps, g, rfl, rfl, hcalls⟩
    exact blames_plug hbuilt huv hcalls
  · rintro _ _ _ ⟨rfl, gaps, g, rfl, rfl, hcalls⟩
    exact restsOn_plug hbuilt huv hcalls

/-- A run of a grammar comes to an end, with an outcome or at a fault, if rules and iterations may
nest deep enough. -/
def EndsIn (env : Environment σ) (g : Grammar σ) (c : Config σ) (r : Except Stop (Outcome σ)) :
    Prop :=
  Finishes r ∧ ∃ n, env.run n g c = r

/-- Each run of the first grammar that comes to an end has one of the second that ends alike. -/
def ImitatedBy (env : Environment σ) (R : Outcome σ → Outcome σ → Prop) (g g' : Grammar σ) : Prop :=
  ∀ c r, env.EndsIn g c r → ∃ r', env.EndsIn g' c r' ∧ EndsAlike R r r'

theorem ImitatedBy.imp {R R' : Outcome σ → Outcome σ → Prop} (h : env.ImitatedBy R g g')
    (hR : ∀ o p, R o p → R' o p) : env.ImitatedBy R' g g' := by
  intro c r hr
  obtain ⟨r', hr', halike⟩ := h c r hr
  exact ⟨r', hr', halike.imp fun o p _ _ hop => hR o p hop⟩

theorem ImitatedBy.of_stepFollows
    (h : ∀ n, (sameText exact).StepFollows .deeper n Eq (env.run n g) fun m => env.run m g') :
    env.ImitatedBy ((sameText exact).Outcomes Eq) g g' := by
  rintro c r ⟨hfinishes, n, rfl⟩
  have hfollows := h n c c (.refl c)
  generalize env.run n g c = r at hfinishes hfollows
  cases hfollows with
  | excused hexcused => exact absurd (congrArg Except.error hexcused) hfinishes
  | permitted _ hpermitted => exact hpermitted.elim
  | @ends _ _ t hs halike =>
      obtain ⟨m, hm⟩ := hs.exists
      refine ⟨t, ⟨?_, m, hm⟩, halike⟩
      cases halike with
      | ok _ => exact .ok _
      | stop stop => exact fun h => hfinishes (congrArg Except.error (Except.error.inj h))

theorem ImitatedBy.endsIn (h : env.ImitatedBy Eq g g') {c : Config σ}
    {r : Except Stop (Outcome σ)} (hr : env.EndsIn g c r) : env.EndsIn g' c r := by
  obtain ⟨r', hr', halike⟩ := h c r hr
  cases halike with
  | ok hop => exact hop ▸ hr'
  | stop _ => exact hr'

theorem imitated_of_builtBothWays (hbuilt : env.store.BuiltBothWays name slot rule holes body)
    (hcalls : exact → env.store.Throughout (env.store.CallsByName name slot)
      (.reference name (.handle slot))) :
    env.ImitatedBy ((sameText exact).Outcomes Eq) (.fixed .owner name rule)
        (.reference name (.handle slot)) ∧
      env.ImitatedBy ((sameText exact).Outcomes Eq) (.reference name (.handle slot))
        (.fixed .owner name rule) := by
  have howner (n : Nat) : env.run n (.fixed .owner name rule) =
      env.run n (.fixed .borrower name rule) := by
    cases n <;> rfl
  have hplug (filler : Grammar σ) : (Grammar.fixed .owner name rule).plug [rule] filler = filler :=
    Grammar.plug_fixed_of_mem (List.mem_singleton_self rule) _ _
  have hcalls' : exact → env.store.Throughout (env.store.CallsByName name slot)
      ((Grammar.fixed .owner name rule).plug [rule] (.reference name (.handle slot))) := by
    rwa [hplug]
  refine ⟨.of_stepFollows fun n => ?_, .of_stepFollows fun n => ?_⟩
  · have hruns := follows_run_plug hbuilt (.inl ⟨rfl, rfl⟩) [rule] _ hcalls' n
    rwa [hplug, hplug, ← howner] at hruns
  · have hruns := follows_run_plug hbuilt (.inr ⟨rfl, rfl⟩) [rule] _ hcalls' n
    simp only [hplug, ← howner] at hruns
    exact hruns

/-- Whichever way a body is made a rule, runs take the same input, end with the same slot, the same
state and the same verdict, and log the same; errors are the same, the text of what was expected
included, but for the definitions they list. The two are written the same, whatever definitions
there are. If nothing that is involved uses the handle otherwise than by its name, the definitions
are the same as well, so runs are the same in every respect. -/
theorem fixed_reference_alike (hbuilt : env.store.BuiltBothWays name slot rule holes body) :
    env.ImitatedBy Outcome.SameButDefinitions (.fixed .owner name rule)
      (.reference name (.handle slot)) ∧
    env.ImitatedBy Outcome.SameButDefinitions (.reference name (.handle slot))
      (.fixed .owner name rule) ∧
    env.store.TextsAlike (.fixed .owner name rule) (.reference name (.handle slot)) ∧
    (env.store.Throughout (env.store.CallsByName name slot) (.reference name (.handle slot)) →
      (∀ c r, env.EndsIn (.fixed .owner name rule) c r ↔
        env.EndsIn (.reference name (.handle slot)) c r) ∧
      env.store.ListsAlike (.fixed .owner name rule) (.reference name (.handle slot))) := by
  obtain ⟨hfixed, hreference⟩ := imitated_of_builtBothWays hbuilt fun h : False => h.elim
  have hplug (filler : Grammar σ) : (Grammar.fixed .owner name rule).plug [rule] filler = filler :=
    Grammar.plug_fixed_of_mem (List.mem_singleton_self rule) _ _
  have howner := Store.listsAlike_hold env.store .owner .borrower name rule
  refine ⟨hfixed.imp fun _ _ => sameButDefinitions_of_sameText,
    hreference.imp fun _ _ => sameButDefinitions_of_sameText, ?_, fun hcalls => ⟨fun c r => ?_, ?_⟩⟩
  · have hfillers : Fillers name slot rule (.fixed .borrower name rule : Grammar σ)
        (.reference name (.handle slot)) := .inl ⟨rfl, rfl⟩
    have htexts := hfillers.textsAlike env.store [rule] (.fixed .owner name rule)
    rw [hplug, hplug] at htexts
    constructor
    · intro definitions
      rw [howner.describe]
      exact htexts.describe definitions
    · rw [howner.ebnf]
      exact htexts.ebnf
  · obtain ⟨hfixed, hreference⟩ := imitated_of_builtBothWays hbuilt fun _ : True => hcalls
    have hsame (o p : Outcome σ) (h : (sameText True).Outcomes Eq o p) : o = p :=
      eq_of_sameText trivial h
    exact ⟨(hfixed.imp hsame).endsIn, (hreference.imp hsame).endsIn⟩
  · have hlists := Store.listsAlike_plug hbuilt [rule] (.fixed .owner name rule) (by rwa [hplug])
    rw [hplug, hplug] at hlists
    exact howner.trans hlists

/-- Parentheses that have to be closed. Both rules are listed the same, also by the error. -/
theorem fixed_reference_alike_parens :
    let reference : Grammar Nat := .reference "parens" (.handle ⟨0, 0⟩)
    let body : Grammar Nat := .option (.sequence (.accept (.symbol '('))
      (.strict "unclosed" (.sequence (.fixed .borrower "parens" 0) (.accept (.symbol ')')))))
    let env : Environment Nat := ⟨⟨⟨[some [some (.rule (body.plug [0] reference))]]⟩,
      [some (body.plug [0] (.fixed .borrower "parens" 0))]⟩, .off⟩
    let c : Config Nat := ⟨.ofInput ['('], some (.text ""), 0⟩
    let definitions : Definitions := ⟨[("parens", "['(', parens, ')']")]⟩
    env.store.BuiltBothWays "parens" ⟨0, 0⟩ 0 [0] body ∧
      env.store.Throughout (env.store.CallsByName "parens" ⟨0, 0⟩) reference ∧
      env.store.describe (.fixed .owner "parens" 0) .empty = some ("parens", definitions) ∧
      env.store.describe reference .empty = some ("parens", definitions) ∧
      ∃ o e, env.Yields (.fixed .owner "parens" 0) c o ∧ env.Yields reference c o ∧
        o.verdict = .failed e ∧ e.expectation = ⟨"parens, ')'", definitions⟩ := by
  intro reference body env c definitions
  have hbuilt : env.store.BuiltBothWays "parens" ⟨0, 0⟩ 0 [0] body := ⟨rfl, rfl⟩
  have hcalls : env.store.Throughout (env.store.CallsByName "parens" ⟨0, 0⟩) reference := by
    have hrule : env.store.handle? ⟨0, 0⟩ = some (body.plug [0] reference) := rfl
    refine Store.Throughout.of_closed [reference, .handle ⟨0, 0⟩, body.plug [0] reference,
      .sequence (.accept (.symbol '('))
        (.strict "unclosed" (.sequence reference (.accept (.symbol ')')))),
      .accept (.symbol '('), .strict "unclosed" (.sequence reference (.accept (.symbol ')'))),
      .sequence reference (.accept (.symbol ')')), .accept (.symbol ')')]
      List.mem_cons_self ?_ ?_
    · simp [Store.components, Grammar.writtenParts, hrule, reference, body, Grammar.plug]
    · simp [Store.CallsByName, Store.components, Grammar.writtenParts, hrule, reference, body,
        Grammar.plug]
  have hdescribe : env.store.describe (.fixed .owner "parens" 0) .empty =
      some ("parens", definitions) := by
    decide +kernel
  obtain ⟨o, e, ho, hverdict, hexpectation⟩ :
      ∃ o e, env.run 10 (.fixed .owner "parens" 0) c = .ok o ∧ o.verdict = .failed e ∧
        e.expectation = ⟨"parens, ')'", definitions⟩ :=
    ⟨_, _, rfl, rfl, rfl⟩
  obtain ⟨hruns, hlists⟩ := (fixed_reference_alike hbuilt).2.2.2 hcalls
  obtain ⟨-, hreference⟩ := (hruns c (.ok o)).1 ⟨.ok o, 10, ho⟩
  exact ⟨hbuilt, hcalls, hdescribe, (hlists.describe .empty).symm.trans hdescribe, o, e, ⟨10, ho⟩,
    hreference, hverdict, hexpectation⟩

/-- A body with a pair of which the second half is the handle, without the name. In the definition
of the name the handle is written as its rule if the name is a fixed point, and as three dots if the
name refers to the handle. -/
theorem fixed_reference_not_alike_pair :
    let reference : Grammar Nat := .reference "n" (.handle ⟨0, 0⟩)
    let body : Grammar Nat := .choice (.accept (.symbol 'x')) (.sequence (.accept (.symbol '('))
      (.strict "a pair is missing" (.sequence (.fixed .borrower "n" 0) (.handle ⟨0, 0⟩))))
    let store : Store Nat := ⟨⟨[some [some (.rule (body.plug [0] reference))]]⟩,
      [some (body.plug [0] (.fixed .borrower "n" 0))]⟩
    store.BuiltBothWays "n" ⟨0, 0⟩ 0 [0] body ∧
      store.describe (.fixed .owner "n" 0) .empty =
        some ("n", ⟨[("n", "'x' | '(', n, ('x' | '(', n, ...)")]⟩) ∧
      store.describe reference .empty = some ("n", ⟨[("n", "'x' | '(', n, ...")]⟩) ∧
      ¬ store.ListsAlike (.fixed .owner "n" 0) reference := by
  intro reference body store
  have hfixed : store.describe (.fixed .owner "n" 0) .empty =
      some ("n", ⟨[("n", "'x' | '(', n, ('x' | '(', n, ...)")]⟩) := by
    decide +kernel
  have hreference : store.describe reference .empty =
      some ("n", ⟨[("n", "'x' | '(', n, ...")]⟩) := by
    decide +kernel
  refine ⟨⟨rfl, rfl⟩, hfixed, hreference, fun h => ?_⟩
  have hsame := hfixed.symm.trans ((h.describe .empty).trans hreference)
  exact absurd hsame (by decide)

end Environment

end ParserAlgebra
