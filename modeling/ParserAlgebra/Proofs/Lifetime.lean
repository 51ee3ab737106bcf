import ParserAlgebra.Proofs.Commands

/-!
# The lifetime of recursive references

The recursive occurrence of a fixed point can be given out and used anywhere. It does what the rule
does while something keeps the rule. Once nothing does, it is not defined and never will be again:
what was given up is not brought back, and the number of a rule is not given out twice.
-/

namespace ParserAlgebra

namespace Session

variable {s : Session} {rule : RuleId}

/-- References to a rule, owners and borrowers alike, do what its body does, also after more has
been built. -/
def Serves (s : Session) (rule : RuleId) (body : Grammar Journal) : Prop :=
  ∀ store, s.store.GrowsTo store → ∀ verbosity hold name n c,
    (⟨store, verbosity⟩ : Environment Journal).run (n + 1) (.fixed hold name rule) c =
      (⟨store, verbosity⟩ : Environment Journal).run n body c

/-- References to a rule are not defined: they take no input and leave the slot and the state as
they are. -/
def Dangles (s : Session) (rule : RuleId) : Prop :=
  ∀ store, s.store.GrowsTo store → ∀ verbosity hold name n c,
    c.cursor.place.IsGenuine c.cursor.input → ∃ e records,
      (⟨store, verbosity⟩ : Environment Journal).run (n + 1) (.fixed hold name rule) c =
        .ok ⟨.failed e, c, records⟩ ∧ e.kind = .undefined

theorem serves_of_fixed? {body : Grammar Journal} (h : s.store.fixed? rule = some body) :
    s.Serves rule body := by
  intro store hgrows verbosity hold name n c
  have hlt : rule < s.store.rules.length := Store.lt_of_fixed? h
  exact Environment.run_fixed_of_some ⟨store, verbosity⟩
    ((Store.fixed?_eq_of_grown hgrows.rules hlt).trans h) n hold name c

theorem dangles_of_fixed? (hrule : rule < s.store.rules.length) (h : s.store.fixed? rule = none) :
    s.Dangles rule := by
  intro store hgrows verbosity hold name n c hc
  exact Environment.run_fixed_of_none ⟨store, verbosity⟩
    ((Store.fixed?_eq_of_grown hgrows.rules hrule).trans h) n hold name hc

section InOrder

variable (hs : s.InOrder)
include hs

theorem InOrder.fixed?_eq_none (hrule : ¬ s.Keeps rule) : s.store.fixed? rule = none := by
  rw [← Option.not_isSome_iff_eq_none, hs.isSome_fixed?_iff]
  exact hrule

/-- A rule that is still kept later is the same as before. -/
theorem InOrder.serves_after {body : Grammar Journal} (hbody : s.store.fixed? rule = some body)
    {later : List (Verbosity × Command)} (hlater : (s.after later).Keeps rule) :
    (s.after later).Serves rule body := by
  obtain ⟨hs', hcontinues⟩ := after_inOrder hs later
  rcases hcontinues.fixed? rule (Store.lt_of_fixed? hbody) with hsame | hnone
  · exact serves_of_fixed? (hsame.trans hbody)
  · have hsome := hs'.isSome_fixed?_iff.2 hlater
    rw [hnone] at hsome
    cases hsome

/-- A rule that is not kept stays given up. -/
theorem InOrder.dangles_after (hrule : rule < s.store.rules.length) (hlost : ¬ s.Keeps rule)
    (later : List (Verbosity × Command)) :
    ¬ (s.after later).Keeps rule ∧ (s.after later).Dangles rule := by
  obtain ⟨hs', hcontinues⟩ := after_inOrder hs later
  have hnone : (s.after later).store.fixed? rule = none := by
    rcases hcontinues.fixed? rule hrule with hsame | hnone
    · exact hsame.trans (hs.fixed?_eq_none hlost)
    · exact hnone
  constructor
  · rw [← hs'.isSome_fixed?_iff, hnone]
    exact nofun
  · exact dangles_of_fixed? (Nat.lt_of_lt_of_le hrule hcontinues.length_le) hnone

end InOrder

theorem Fixes.sweep {name : String} {kind : Kind} {g : Blueprint} {input : Option String}
    {answer : Answer} {s' : Session} (h : s.Fixes name kind g input answer s') :
    s.Fixes name kind g input answer s'.sweep := by
  refine ⟨h.announced.trans_eq List.length_mapIdx.symm, h.leaked, h.ended.imp ?_ ?_⟩
  · rintro ⟨e, hbuilt, hanswer, hbindings, hmissing⟩
    refine ⟨e, hbuilt, hanswer, hbindings, ?_⟩
    rw [Session.sweep, Store.fixed?_sweep, hmissing, ite_self]
  · rintro ⟨hbound, ⟨body, store', hbuilt, hbody⟩, hprobed⟩
    refine ⟨hbound, ⟨body, store', hbuilt, ?_⟩, hprobed⟩
    have hkept : s'.Keeps s.store.rules.length :=
      .used (Table.mem_values_of_get? hbound) List.mem_cons_self
    exact (Store.fixed?_sweep_of_keeps hkept).trans hbody

theorem fixes_of_perform (hs : s.Sound) {verbosity : Verbosity} {name : String} {kind : Kind}
    {g : Blueprint} {input : Option String} {s' : Session} {answer : Answer}
    {records : List LogRecord}
    (hperform : s.perform verbosity (.fix name kind g input) = (s', answer, records)) :
    s.Fixes name kind g input answer s' := by
  have hmeets : Job.Meets (carryOut (.fix name kind g input)) s
      (fun answer s' => s.Evolves s' ∧ s.Fixes name kind g input answer s')
      fun r s' => s.Evolves s' ∧ s.Fixes name kind g input (.refused r) s' :=
    meets_fix hs name kind g input
  obtain ⟨s'', rfl, -, hfixes⟩ := exists_of_perform hmeets hperform
  exact hfixes.sweep

/-- How long the references to the rules of a session live. -/
structure Lifetimes (s : Session) : Prop where
  acyclic : ∀ rule, ¬ Relation.TransGen s.store.Owns rule rule
  kept : ∀ rule, s.Keeps rule → ∃ body, s.store.fixed? rule = some body ∧
    ∀ later, (s.after later).Keeps rule → (s.after later).Serves rule body
  lost : ∀ rule < s.store.rules.length, ¬ s.Keeps rule →
    ∀ later, ¬ (s.after later).Keeps rule ∧ (s.after later).Dangles rule
  fix : ∀ verbosity name kind g input s' answer records,
    s.perform verbosity (.fix name kind g input) = (s', answer, records) →
      s.Fixes name kind g input answer s'

/-- Whatever commands a session has carried out, a reference to a rule does what the rule does as
long as the rule is kept, and is not defined from then on, for ever. While the body of a fixed point
is being built, its reference is not defined. No rule is kept by itself, for owning goes round in no
circle. -/
theorem references_live_while_kept (commands : List (Verbosity × Command)) :
    (initial.after commands).Lifetimes := by
  have hs := (after_inOrder inOrder_initial commands).1
  constructor
  · exact hs.sound.acyclic
  · intro rule hrule
    obtain ⟨body, hbody⟩ := Option.isSome_iff_exists.1 (hs.isSome_fixed?_iff.2 hrule)
    exact ⟨body, hbody, fun later => hs.serves_after hbody⟩
  · exact fun rule => hs.dangles_after
  · exact fun _ _ _ _ _ _ _ _ => fixes_of_perform hs.sound

theorem references_live_while_kept_parens :
    let parens : Blueprint :=
      .option (.sequence (.accept (.symbol '('))
        (.sequence (.recur "p") (.accept (.symbol ')'))))
    let fixed : List (Verbosity × Command) := [(.off, .fix "p" .text parens (some "()"))]
    let unbound : List (Verbosity × Command) :=
      [(.off, .bind "q" .text (.use "p")), (.off, .unbind "p" .text)]
    let given : List (Verbosity × Command) := [(.off, .unbind "q" .text)]
    (∃ body, (initial.after (fixed ++ unbound)).Keeps 0 ∧
      (initial.after (fixed ++ unbound)).Serves 0 body) ∧
        ¬ (initial.after (fixed ++ unbound ++ given)).Keeps 0 ∧
          (initial.after (fixed ++ unbound ++ given)).Dangles 0 := by
  intro parens fixed unbound given
  have hshared : (initial.after (fixed ++ unbound)).Keeps 0 :=
    .used (g := .shared (.fixed .owner "p" 0)) List.mem_cons_self List.mem_cons_self
  have hgone : ¬ (initial.after (fixed ++ unbound ++ given)).Keeps 0 := by
    intro hkept
    obtain ⟨body, hbody, -⟩ := (references_live_while_kept _).kept 0 hkept
    have hmissing : ((initial.after (fixed ++ unbound ++ given)).store.fixed? 0).isNone := by
      decide +kernel
    rw [hbody] at hmissing
    cases hmissing
  have hannounced : 0 < (initial.after (fixed ++ unbound ++ given)).store.rules.length := by
    decide +kernel
  obtain ⟨body, -, hserves⟩ := (references_live_while_kept _).kept 0 hshared
  have hserves := hserves []
  have hlost := (references_live_while_kept _).lost 0 hannounced hgone []
  rw [after_nil] at hserves hlost
  exact ⟨⟨body, hshared, hserves hshared⟩, hgone, hlost.2⟩

end Session

end ParserAlgebra
