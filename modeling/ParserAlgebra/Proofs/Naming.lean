import ParserAlgebra.Proofs.Following

/-!
# Naming and sharing rules

Grammars are given names and labels, shared, and put into slots for the sake of those who read what
is expected and of those who build them. A parse does not depend on it. The names may be put around
nodes of rules as well, be they rules of fixed points, which are then built anew, or of slots.
-/

namespace ParserAlgebra

variable {σ : Type}

/-- A node that names, labels or shares a grammar, or a handle that the grammar is the rule of. The
name of a fixed point is no such node: it cannot be taken from the rule. -/
inductive Grammar.Names (store : Store σ) : Grammar σ → Grammar σ → Prop
  | shared (g : Grammar σ) : Names store (.shared g) g
  | reference (name : String) (g : Grammar σ) : Names store (.reference name g) g
  | define (name : String) (g : Grammar σ) : Names store (.define name g) g
  | rename (name : String) (rank : Rank) (g : Grammar σ) : Names store (.rename name rank g) g
  | trace (label : String) (g : Grammar σ) : Names store (.trace label g) g
  | handle {slot : Slot} {g : Grammar σ} (h : store.handle? slot = some g) :
      Names store (.handle slot) g

/-- Grammars that differ in names and the like only, where some rules and slots stand for others. -/
def Kinship.naming (store : Store σ) (rules : RuleId → RuleId → Prop)
    (slots : Slot → Slot → Prop) : Kinship σ :=
  ⟨rules, slots, Grammar.Names store⟩

/-- What is known of outcomes that differ in what was expected, without saying of which grammars. -/
theorem Kinship.sameButExpectation {K : Kinship σ} {env : Environment σ} {o o' : Outcome σ}
    (h : (K.correspondence env).Outcomes Eq o o') : o.SameButExpectation o' :=
  ⟨h.verdict.imp fun _ _ he => he.eq_but_expectation, h.config.eq⟩

namespace Environment

variable {env : Environment σ} {g g' a : Grammar σ} {c : Config σ}
  {rules : RuleId → RuleId → Prop} {slots : Slot → Slot → Prop}

/-- The records of a trace may be more than there is text for, which is a fault. -/
theorem passesOn_trace (label : String) (g : Grammar σ) :
    env.PassesOn False .upToFaults (.trace label g) g := by
  refine ⟨fun _ _ => rfl, fun c => ⟨_, fun n => rfl, fun o => ?_⟩⟩
  have hfinishes := env.finishes_traceRecords label c.cursor.position o
  cases hrecords : env.traceRecords label c.cursor.position o with
  | ok records => exact .inl ⟨_, rfl, rfl, rfl, False.elim⟩
  | error stop =>
      refine .inr ⟨stop, rfl, trivial, ?_⟩
      rintro rfl
      exact hfinishes hrecords

theorem passesOn_of_names (h : Grammar.Names env.store g a) :
    env.PassesOn False .upToFaults g a := by
  cases h with
  | trace label => exact passesOn_trace label a
  | shared | reference | define | rename =>
      exact .of_run_succ (fun _ _ => rfl) fun _ _ => rfl
  | handle hslot =>
      refine .of_run_succ (fun _ _ => rfl) fun n c => ?_
      rw [run, runLevel, hslot]

/-- Names, labels, sharing and handles with rules make no difference to what a grammar takes, to the
slot, to the state, to checkpoints and to the verdict, wherever in the grammar and in the rules it
refers to they stand. Errors are the same but for what was expected. -/
theorem naming_invisible (hstore : (Kinship.naming env.store rules slots).HoldsIn env.store)
    (h : (Kinship.naming env.store rules slots).Akin g g')
    (hc : c.cursor.place.IsGenuine c.cursor.input) :
    env.YieldAlike Outcome.SameButExpectation g g' c :=
  (yieldAlike_of_akin hstore (fun _ _ => passesOn_of_names) h hc).imp
    fun _ _ => Kinship.sameButExpectation

/-- A list of letters in parentheses, and the same with names around its parts, a trace within its
rule, and a handle for the letters, which may be rules that act for all that is known of them. -/
theorem naming_invisible_parens :
    let letter : Grammar Nat := .accept (.symbol 'x')
    let parens (rule : RuleId) (inner : Grammar Nat) : Grammar Nat := .sequence
      (.accept (.symbol '(')) (.sequence (.option (.fixed .borrower "parens" rule)) inner)
    let closing : Grammar Nat := .accept (.symbol ')')
    let store : Store Nat := ⟨⟨[some [some (.rule letter)]]⟩,
      [some (parens 0 closing), some (.reference "p" (parens 1 (.trace "end" closing)))]⟩
    let env : Environment Nat := ⟨store, .off⟩
    let g : Grammar Nat :=
      .sequence (.fixed .owner "parens" 0) (.attempt (.strict "no letter" letter))
    let g' : Grammar Nat := .shared (.sequence (.fixed .owner "parens" 1)
      (.attempt (.strict "no letter" (.define "letter" (.handle ⟨0, 0⟩)))))
    let rules : RuleId → RuleId → Prop := fun rule rule' => rule = 0 ∧ rule' = 1
    let c : Config Nat := ⟨.ofInput ['(', '(', ')', ')', 'y'], some (.text ""), 0⟩
    (Kinship.naming store rules fun _ _ => False).HoldsIn store ∧
      (Kinship.naming store rules fun _ _ => False).Akin g g' ∧
      c.cursor.place.IsGenuine c.cursor.input ∧
      ∃ o o' e, env.Yields g c o ∧ env.Yields g' c o' ∧ o.config = o'.config ∧
        o.verdict = .failed e ∧ e.expectation = ⟨"'x'", .empty⟩ ∧
        o'.verdict = .failed { e with expectation := ⟨"letter", ⟨[("letter", "'x'")]⟩⟩ } := by
  intro letter parens closing store env g g' rules c
  let K : Kinship Nat := Kinship.naming store rules fun _ _ => False
  have hrule : K.Akin (parens 0 closing) (.reference "p" (parens 1 (.trace "end" closing))) :=
    .right (.reference "p" _) (.sequence (.primitive trivial)
      (.sequence (.option (.fixed .borrower .borrower "parens" ⟨rfl, rfl⟩))
        (.right (.trace "end" _) (.primitive trivial))))
  have hstore : K.HoldsIn store := by
    constructor
    · rintro rule rule' ⟨rfl, rfl⟩
      exact .some hrule
    · exact fun hslot => hslot.elim
  have hletter : K.Akin letter (.define "letter" (.handle ⟨0, 0⟩)) :=
    .right (.define "letter" _) (.right (.handle rfl) (.primitive trivial))
  have hgg' : K.Akin g g' :=
    .right (.shared _) (.sequence (.fixed .owner .owner "parens" ⟨rfl, rfl⟩)
      (.attempt (.strict "no letter" hletter)))
  have hc : c.cursor.place.IsGenuine c.cursor.input := ⟨rfl, rfl⟩
  obtain ⟨o, e, ho, hverdict, hexpectation⟩ :
      ∃ o e, env.run 16 g c = .ok o ∧ o.verdict = .failed e ∧ e.expectation = ⟨"'x'", .empty⟩ :=
    ⟨_, _, rfl, rfl, rfl⟩
  obtain ⟨p, e', hp, hverdict', hexpectation'⟩ :
      ∃ p e', env.run 16 g' c = .ok p ∧ p.verdict = .failed e' ∧
        e'.expectation = ⟨"letter", ⟨[("letter", "'x'")]⟩⟩ :=
    ⟨_, _, rfl, rfl, rfl⟩
  obtain ⟨o', ho', hsame⟩ := (naming_invisible hstore hgg' hc).left o ⟨16, ho⟩
  obtain rfl : o' = p := ho'.unique ⟨16, hp⟩
  have halike := hsame.verdict
  rw [hverdict, hverdict'] at halike
  cases halike with
  | failed he =>
      rw [he, hexpectation'] at hverdict'
      exact ⟨hstore, hgg', hc, o, o', e, ⟨16, ho⟩, ho', hsame.config, hverdict, hexpectation,
        hverdict'⟩

end Environment

end ParserAlgebra
