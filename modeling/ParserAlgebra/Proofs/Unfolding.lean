import ParserAlgebra.Proofs.Following
import ParserAlgebra.Proofs.SelfReference

/-!
# Unfolding a fixed point

The body of a fixed point refers to the fixed point by borrowing it. A body that is built once more,
around the finished rule, owns the rule where the first one borrows it, and the fixed points that
are built in the course of it are built once more as well. Nothing of that shows where the two are
written, so runs of them end alike even to what errors say was expected. Where a rule is unfolded
within a grammar, only an error that is raised for something around the place may tell of it.
-/

namespace ParserAlgebra

variable {σ : Type} {copies : RuleId → RuleId → Prop} {store : Store σ} {g g' : Grammar σ}

namespace Kinship

/-- Some rules are copies of others; nothing is covered. -/
def copying (copies : RuleId → RuleId → Prop) : Kinship σ :=
  ⟨copies, Eq, fun _ _ => False⟩

/-- Some rules are copies of others, and a fixed point covers its rule. -/
def unfolding (store : Store σ) (copies : RuleId → RuleId → Prop) : Kinship σ :=
  ⟨copies, Eq, fun g a => ∃ hold name rule, g = .fixed hold name rule ∧ store.fixed? rule = some a⟩

theorem size_eq_of_copies (h : (copying copies).Akin g g') : g.size = g'.size := by
  have hsizes {parts : List (Kind × Grammar σ × Grammar σ)}
      (ih : ∀ part ∈ parts, part.2.1.size = part.2.2.size) :
      Grammar.size.sizes (parts.map fun part => (part.1, part.2.1)) =
        Grammar.size.sizes (parts.map fun part => (part.1, part.2.2)) := by
    induction parts with
    | nil => rfl
    | cons part parts ihparts =>
        obtain ⟨hpart, hparts⟩ := List.forall_mem_cons.1 ih
        simp only [List.map_cons, Grammar.size.sizes, hpart, ihparts hparts]
  induction h with
  | left hcovers _ _ => exact hcovers.elim
  | right hcovers _ _ => exact hcovers.elim
  | primitive _ => rfl
  | all kind action _ ih => simp only [Grammar.size, hsizes ih]
  | any kind action _ ih => simp only [Grammar.size, hsizes ih]
  | _ => simp only [Grammar.size, *]

theorem rankWithin_eq_of_copies (h : (copying copies).Akin g g') (n : Nat) :
    g.rankWithin store n = g'.rankWithin store n := by
  induction n generalizing g g' with
  | zero => rfl
  | succ n ih =>
      cases h with
      | left hcovers _ => exact hcovers.elim
      | right hcovers _ => exact hcovers.elim
      | primitive _ => rfl
      | discard h | attempt h | attemptPure h | strict _ h | trace _ h | token h | shared h =>
          exact ih h
      | @all kind action parts h | @any kind action parts h =>
          rcases parts with _ | ⟨part, _ | ⟨part', parts⟩⟩
          · rfl
          · exact ih (h part List.mem_cons_self)
          · rfl
      | handle h => cases h; rfl
      | _ => rfl

theorem writeWithin_eq_of_copies (hstore : (copying copies).HoldsIn store)
    (h : (copying copies).Akin g g') (n : Nat) :
    g.writeWithin store n = g'.writeWithin store n := by
  induction n generalizing g g' with
  | zero => rfl
  | succ n ih =>
      have hunder {context : Rank} {q q' : Grammar σ} (hq : (copying copies).Akin q q') :
          Grammar.Writer.enclosed context (q.rankWithin store n) (q.writeWithin store n) =
            Grammar.Writer.enclosed context (q'.rankWithin store n) (q'.writeWithin store n) := by
        rw [rankWithin_eq_of_copies hq, ih hq]
      have hparts {context : Rank} {parts : List (Kind × Grammar σ × Grammar σ)}
          (h : ∀ part ∈ parts, (copying copies).Akin part.2.1 part.2.2) :
          ((parts.map fun part => (part.1, part.2.1)).map fun part =>
            Grammar.Writer.enclosed context (part.2.rankWithin store n)
              (part.2.writeWithin store n)) =
          (parts.map fun part => (part.1, part.2.2)).map fun part =>
            Grammar.Writer.enclosed context (part.2.rankWithin store n)
              (part.2.writeWithin store n) := by
        rw [List.map_map, List.map_map]
        exact List.map_congr_left fun part hpart => hunder (h part hpart)
      cases h with
      | left hcovers _ => exact hcovers.elim
      | right hcovers _ => exact hcovers.elim
      | primitive _ => rfl
      | sequence ha hb | choice ha hb | sepBy ha hb =>
          simp only [Grammar.writeWithin, hunder ha, hunder hb]
      | except kind h _ => simp only [Grammar.writeWithin, hunder h]
      | repetition atLeast h => cases atLeast <;> simp only [Grammar.writeWithin, ih h]
      | option h | discard h | attempt h | attemptPure h | strict _ h | trace _ h | token h
      | shared h | reference _ h | define _ h => simp only [Grammar.writeWithin, ih h]
      | rename _ _ h => rfl
      | @all kind action parts h | @any kind action parts h =>
          rcases parts with _ | ⟨part, _ | ⟨part', parts⟩⟩
          · rfl
          · exact ih (h part List.mem_cons_self)
          · exact congrArg (Grammar.Writer.separated _) (hparts h)
      | handle h => cases h; rfl
      | @fixed hold hold' name rule rule' h =>
          have hrel := hstore.rules h
          simp only [Grammar.writeWithin]
          cases hleft : store.fixed? rule <;> cases hright : store.fixed? rule' <;>
            rw [hleft, hright] at hrel <;> cases hrel
          exact congrArg (Grammar.Writer.reference name) (ih ‹_›)

/-- What is copied is written the same. -/
theorem listsAlike_of_copies (hstore : (copying copies).HoldsIn store)
    (h : (copying copies).Akin g g') : store.ListsAlike g g' := by
  have hbound : store.depthBound g = store.depthBound g' := by
    rw [Store.depthBound, Store.depthBound, size_eq_of_copies h]
  have hwrite : store.write g = store.write g' := by
    funext r
    rw [Store.write, Store.write, hbound, writeWithin_eq_of_copies hstore h]
  constructor
  · intro definitions
    rw [Store.describe, Store.describe, hwrite]
  · rw [Store.ebnf, Store.ebnf, hwrite]

theorem akin_unfolding_of_copies (h : (copying copies).Akin g g') :
    (unfolding store copies).Akin g g' :=
  Akin.mono (K := copying copies) (fun _ _ => id) (fun _ _ => id) (fun _ _ => False.elim) h

theorem holdsIn_unfolding (h : (copying copies).HoldsIn store) :
    (unfolding store copies).HoldsIn store := by
  have hrel {r s : Option (Grammar σ)} (hrs : Option.Rel (copying copies).Akin r s) :
      Option.Rel (unfolding store copies).Akin r s := by
    cases hrs with
    | some hab => exact .some (akin_unfolding_of_copies hab)
    | none => exact .none
  exact ⟨fun hrule => hrel (h.rules hrule), fun hslot => hrel (h.slots hslot)⟩

end Kinship

/-- A grammar that is built as the rule of a fixed point has been, but around the finished rule. -/
structure Store.Unfolds (store : Store σ) (copies : RuleId → RuleId → Prop) (rule : RuleId)
    (unfolded : Grammar σ) : Prop where
  self : copies rule rule
  holdsIn : (Kinship.copying copies).HoldsIn store
  body : ∃ body, store.fixed? rule = some body ∧ (Kinship.copying copies).Akin body unfolded

/-- A body in which no other fixed point is built needs no copies. -/
theorem Store.unfolds_plug {rule : RuleId} {name : String} {holes : List RuleId} {body : Grammar σ}
    (hrule : store.fixed? rule = some (body.plug holes (.fixed .borrower name rule))) :
    store.Unfolds Eq rule (body.plug holes (.fixed .owner name rule)) := by
  have hself : (Kinship.copying Eq : Kinship σ).IsReflexive := ⟨fun _ => rfl, fun _ => rfl⟩
  exact ⟨rfl, Kinship.holdsIn_eq store _, _, hrule,
    Kinship.akin_plug hself (.fixed .borrower .owner name rfl) body⟩

namespace Environment

variable {env : Environment σ} {c : Config σ}

/-- Errors that are the same unless they were raised for grammars in which something is unfolded. -/
def ErrorsButAround (env : Environment σ) (copies : RuleId → RuleId → Prop) (e e' : ParseError) :
    Prop :=
  e = e' ∨ e' = { e with expectation := e'.expectation } ∧
    ∃ g g', (Kinship.unfolding env.store copies).Akin g g' ∧
      ¬ (Kinship.copying copies).Akin g g' ∧ env.expectationOf g = .ok e.expectation ∧
        env.expectationOf g' = .ok e'.expectation

theorem yields_fixed_iff {rule : RuleId} {body : Grammar σ} {o : Outcome σ}
    (hrule : env.store.fixed? rule = some body) (hold : Hold) (name : String) :
    env.Yields (.fixed hold name rule) c o ↔ env.Yields body c o := by
  have hrun (n : Nat) : env.run (n + 1) (.fixed hold name rule) c = env.run n body c := by
    rw [run, runLevel, hrule]
  constructor
  · rintro ⟨_ | n, hn⟩
    · cases hn
    · exact ⟨n, (hrun n).symm.trans hn⟩
  · rintro ⟨n, hn⟩
    exact ⟨n + 1, (hrun n).trans hn⟩

theorem eq_of_copies {e e' : ParseError} (hstore : (Kinship.copying copies).HoldsIn env.store)
    (h : (Kinship.copying copies).Akin g g') (hx : env.expectationOf g = .ok e.expectation)
    (hx' : env.expectationOf g' = .ok e'.expectation)
    (he : e' = { e with expectation := e'.expectation }) : e = e' := by
  have hsame : env.expectationOf g = env.expectationOf g' := by
    rw [expectationOf, expectationOf, (Kinship.listsAlike_of_copies hstore h).describe]
  rw [he, Except.ok.inj (hx'.symm.trans (hsame.symm.trans hx))]

theorem verdict_eq_of_copies {o o' : Outcome σ}
    (hstore : (Kinship.copying copies).HoldsIn env.store)
    (h : ((Kinship.copying copies).correspondence env).Outcomes Eq o o') :
    o.verdict = o'.verdict := by
  refine (h.verdict.imp fun e e' he => ?_).eq
  rcases he.expectation with hsame | ⟨g, g', hakin, hx, hx'⟩
  · rw [he.eq_but_expectation, ← hsame]
  · exact eq_of_copies hstore hakin hx hx' he.eq_but_expectation

theorem errorsButAround_of_unfolding {e e' : ParseError}
    (hstore : (Kinship.copying copies).HoldsIn env.store)
    (h : e.ExpectsAlike ((Kinship.unfolding env.store copies).Expects env) e') :
    env.ErrorsButAround copies e e' := by
  rcases h.expectation with hsame | ⟨g, g', hakin, hx, hx'⟩
  · exact .inl (by rw [h.eq_but_expectation, ← hsame])
  · by_cases hcopies : (Kinship.copying copies).Akin g g'
    · exact .inl (eq_of_copies hstore hcopies hx hx' h.eq_but_expectation)
    · exact .inr ⟨h.eq_but_expectation, g, g', hakin, hcopies, hx, hx'⟩

/-- A fixed point is what its body makes of it: the rule and its body, built around the rule itself,
take the same input and end with the same slot, the same state and the same verdict, whatever it
says. Unfolding the rule at any places of a grammar, any number of times, makes no difference but to
errors that are raised for something around such a place, and none but to what they say was
expected. -/
theorem fixed_alike_unfolded {rule : RuleId} {unfolded : Grammar σ}
    (h : env.store.Unfolds copies rule unfolded) (hold : Hold) (name : String)
    (hc : c.cursor.place.IsGenuine c.cursor.input) :
    env.YieldAlike (fun o o' => o.verdict = o'.verdict ∧ o.config = o'.config)
        (.fixed hold name rule) unfolded c ∧
      (Kinship.unfolding env.store copies).Akin (.fixed hold name rule) unfolded ∧
      ∀ g g', (Kinship.unfolding env.store copies).Akin g g' →
        env.YieldAlike (fun o o' => o.verdict.Alike (env.ErrorsButAround copies) o'.verdict ∧
          o.config = o'.config) g g' c := by
  obtain ⟨body, hbody, hakin⟩ := h.body
  have hcovers (g a : Grammar σ) (hcover : (Kinship.unfolding env.store copies).covers g a) :
      env.PassesOn False .upToFaults g a := by
    obtain ⟨hold, name, rule, rfl, hrule⟩ := hcover
    exact .of_run_succ (fun _ _ => rfl) fun n c => by rw [run, runLevel, hrule]
  refine ⟨?_, ?_, fun g g' hgg' => ?_⟩
  · have hbodies := yieldAlike_of_akin h.holdsIn (fun _ _ => False.elim) hakin hc
    have hsame := hbodies.imp fun o o' ho =>
      And.intro (verdict_eq_of_copies h.holdsIn ho) ho.config.eq
    constructor
    · exact fun o ho => hsame.left o ((yields_fixed_iff hbody hold name).1 ho)
    · intro o' ho'
      obtain ⟨o, ho, hsame⟩ := hsame.right o' ho'
      exact ⟨o, (yields_fixed_iff hbody hold name).2 ho, hsame⟩
  · exact .left ⟨hold, name, rule, rfl, hbody⟩ (Kinship.akin_unfolding_of_copies hakin)
  · have halike := yieldAlike_of_akin (Kinship.holdsIn_unfolding h.holdsIn) hcovers hgg' hc
    exact halike.imp fun o o' ho =>
      ⟨ho.verdict.imp fun _ _ => errorsButAround_of_unfolding h.holdsIn, ho.config.eq⟩

/-- Lists in brackets of items, which are lists themselves or letters. Building the body of the list
once more makes a second rule of items, around the list that is there already. -/
theorem fixed_alike_unfolded_list :
    let list (items : RuleId) : Grammar Nat := .sequence (.accept (.symbol '['))
      (.strict "incomplete" (.sequence (.fixed .owner "item" items) (.accept (.symbol ']'))))
    let item (hold : Hold) : Grammar Nat := .choice (.accept (.symbol 'x')) (.fixed hold "list" 0)
    let env : Environment Nat :=
      ⟨⟨.empty, [some (list 1), some (item .borrower), some (item .owner)]⟩, .off⟩
    let copies : RuleId → RuleId → Prop := fun rule rule' => rule = rule' ∨ rule = 1 ∧ rule' = 2
    let c : Config Nat := ⟨.ofInput ['[', '[', 'x'], some (.text ""), 0⟩
    env.store.Unfolds copies 0 (list 2) ∧ c.cursor.place.IsGenuine c.cursor.input ∧
      ∃ o o' e, env.Yields (.fixed .owner "list" 0) c o ∧ env.Yields (list 2) c o' ∧
        o.verdict = .failed e ∧ o'.verdict = .failed e ∧ o.config = o'.config ∧
        e.expectation = ⟨"item, ']'", ⟨[("item", "'x' | list"), ("list", "'[', item, ']'")]⟩⟩ := by
  intro list item env copies c
  have hself : (Kinship.copying copies : Kinship Nat).IsReflexive :=
    ⟨fun _ => .inl rfl, fun _ => rfl⟩
  have hitem : (Kinship.copying copies).Akin (item .borrower) (item .owner) :=
    .choice (.primitive trivial) (.fixed .borrower .owner "list" (.inl rfl))
  have hlist : (Kinship.copying copies).Akin (list 1) (list 2) :=
    .sequence (.primitive trivial) (.strict "incomplete"
      (.sequence (.fixed .owner .owner "item" (.inr ⟨rfl, rfl⟩)) (.primitive trivial)))
  have hstore : (Kinship.copying copies).HoldsIn env.store := by
    constructor
    · rintro rule rule' (rfl | ⟨rfl, rfl⟩)
      · exact Kinship.rel_refl hself _
      · exact .some hitem
    · rintro slot _ rfl
      exact Kinship.rel_refl hself _
  have hunfolds : env.store.Unfolds copies 0 (list 2) := ⟨.inl rfl, hstore, list 1, rfl, hlist⟩
  have hc : c.cursor.place.IsGenuine c.cursor.input := ⟨rfl, rfl⟩
  obtain ⟨o, e, ho, hverdict, hexpectation⟩ :
      ∃ o e, env.run 16 (.fixed .owner "list" 0) c = .ok o ∧ o.verdict = .failed e ∧
        e.expectation =
          ⟨"item, ']'", ⟨[("item", "'x' | list"), ("list", "'[', item, ']'")]⟩⟩ :=
    ⟨_, _, rfl, rfl, rfl⟩
  obtain ⟨o', ho', hsame, hconfig⟩ :=
    (fixed_alike_unfolded hunfolds .owner "list" hc).1.left o ⟨16, ho⟩
  exact ⟨hunfolds, hc, o, o', e, ⟨16, ho⟩, ho', hverdict, hsame ▸ hverdict, hconfig, hexpectation⟩

end Environment

end ParserAlgebra
