import ParserAlgebra.Action.Script
import ParserAlgebra.Proofs.Rendering
import ParserAlgebra.Proofs.SlotDiscipline

/-!
# Ordered choice

What a choice yields, in terms of what its first branch yields: its match, an error, or what the
second branch yields from where it was left. The second branch finds the cursor in its place but the
slot as the first one left it, so it is on its own only if the first one has kept the slot.
-/

namespace ParserAlgebra

variable {σ : Type}

namespace Environment

variable {env : Environment σ} {a b : Grammar σ} {c : Config σ} {o : Outcome σ}

theorem exists_expectationOf (env : Environment σ) (g : Grammar σ) :
    ∃ expectation, env.expectationOf g = .ok expectation := by
  obtain ⟨text, definitions, hdescribe⟩ := env.store.exists_describe g .empty
  exact ⟨⟨text, definitions⟩, by rw [expectationOf, hdescribe]⟩

/-- An error of a rule that began at a genuine place can always be raised. -/
theorem exists_raiseFor (env : Environment σ) {start : Cursor}
    (hstart : start.place.IsGenuine start.input) (honward : start.Onward c.cursor)
    (kind : ErrorKind) (message : String) (g : Grammar σ) :
    ∃ e records, env.raiseFor kind message g start.position c = .ok ⟨.failed e, c, records⟩ ∧
      e.kind = kind := by
  obtain ⟨expectation, hexpectation⟩ := env.exists_expectationOf g
  have hgenuine : start.place.IsGenuine c.cursor.input := by rwa [honward.input]
  obtain ⟨e, he⟩ := ParseError.exists_locate hgenuine (honward.isGenuine hstart) kind message
    expectation
  have hkind : e.kind = kind := by
    obtain ⟨found, excerpt, -, -, rfl⟩ := ParseError.eq_of_locate he
    rfl
  refine ⟨e, env.verbosity.record .debug e.summary, ?_, hkind⟩
  rw [raiseFor, hexpectation]
  change env.raise kind message expectation start.place.position c.cursor.place.position c = _
  rw [raise, he]
  rfl

theorem exists_yields_choice_of_consumed (hc : c.cursor.place.IsGenuine c.cursor.input)
    (ha : env.Yields a c o) (h : o.verdict = .mismatched)
    (hmoved : o.config.cursor.offset ≠ c.cursor.offset) (b : Grammar σ) :
    ∃ e o', env.Yields (.choice a b) c o' ∧ o'.verdict = .failed e ∧ e.kind = .consumed := by
  obtain ⟨e, records, hraise, hkind⟩ := env.exists_raiseFor hc ha.onward .consumed branchConsumed a
  obtain ⟨n, hn⟩ := ha
  refine ⟨e, ⟨.failed e, o.config, o.records ++ records⟩, ⟨n + 1, ?_⟩, rfl, hkind⟩
  rw [run, runLevel, hn]
  change env.orElse branchConsumed a c.cursor.position o (env.run n b) = _
  rw [orElse, h]
  refine (if_pos hmoved).trans ?_
  rw [hraise]
  rfl

/-- Where the first branch mismatches in place, the choice is the second branch from where the first
one ended, but for the records. -/
theorem yields_choice_iff_of_mismatched (ha : env.Yields a c o) (h : o.verdict = .mismatched)
    (hstayed : o.config.cursor.offset = c.cursor.offset) (b : Grammar σ) (verdict : Verdict)
    (config : Config σ) :
    (∃ records, env.Yields (.choice a b) c ⟨verdict, config, records⟩) ↔
      ∃ records, env.Yields b o.config ⟨verdict, config, records⟩ := by
  constructor
  · rintro ⟨records, n, hn⟩
    cases n with
    | zero => cases hn
    | succ n =>
        obtain ⟨m, hm⟩ := ha
        have ha : env.run (max n m) a c = .ok o := Yields.run_eq_of_le m hm (Nat.le_max_right n m)
        have hchoice : env.run (max n m + 1) (.choice a b) c = .ok ⟨verdict, config, records⟩ :=
          Yields.run_eq_of_le (n + 1) hn (Nat.succ_le_succ (Nat.le_max_left n m))
        rw [run, runLevel, ha] at hchoice
        change env.orElse branchConsumed a c.cursor.position o (env.run (max n m) b) = _ at hchoice
        rw [orElse_of_mismatched h hstayed] at hchoice
        cases hb : env.run (max n m) b o.config with
        | error stop =>
            rw [hb] at hchoice
            cases hchoice
        | ok o' =>
            rw [hb] at hchoice
            cases hchoice
            exact ⟨o'.records, max n m, hb⟩
  · rintro ⟨records, hb⟩
    exact ⟨_, yields_choice_of_mismatched ha h hstayed hb⟩

/-- Ordered choice. A match of the first branch is that of the choice, a mismatch behind which the
cursor has moved is an error, and after a mismatch in place the choice is the second branch alone,
provided that the first one has kept the slot; if it keeps the slot with its mismatches, it has. -/
theorem choice_ordered (a b : Grammar σ) (c : Config σ)
    (hc : c.cursor.place.IsGenuine c.cursor.input) (o : Outcome σ) (ha : env.Yields a c o) :
    (o.verdict = .matched → env.Yields (.choice a b) c o) ∧
    (o.verdict = .mismatched → o.config.cursor.offset ≠ c.cursor.offset →
      ∃ e o', env.Yields (.choice a b) c o' ∧ o'.verdict = .failed e ∧ e.kind = .consumed) ∧
    (o.verdict = .mismatched → o.config.cursor.offset = c.cursor.offset →
      (o.config.slot = c.slot ∨
        ∃ d : SlotDiscipline, d.Consistent env.store ∧ d.KeepsSlot .mismatched a) →
      ∀ verdict config, (∃ records, env.Yields (.choice a b) c ⟨verdict, config, records⟩) ↔
        ∃ records, env.Yields b { c with state := o.config.state } ⟨verdict, config, records⟩) := by
  refine ⟨fun h => ?_, fun h hmoved => ?_, fun h hstayed hkept verdict config => ?_⟩
  · refine yields_choice ha (fun hmismatched => ?_) b
    cases h.symm.trans hmismatched
  · exact exists_yields_choice_of_consumed hc ha h hmoved b
  · have hslot : o.config.slot = c.slot := by
      rcases hkept with hslot | ⟨d, hd, hkeeps⟩
      · exact hslot
      · obtain ⟨n, hn⟩ := ha
        exact (leavesSlot_run hd n hkeeps c).of_eq_ok hn h hstayed
    have hcursor : o.config.cursor = c.cursor := ha.onward.eq_of_offset_eq hstayed
    have hconfig : o.config = { c with state := o.config.state } := by
      rw [← hcursor, ← hslot]
    rw [← hconfig]
    exact yields_choice_iff_of_mismatched ha h hstayed b verdict config

/-- A digit behind a sign, or letters. The action on the sign fills the slot, but only where the
sign has moved the cursor. -/
theorem choice_ordered_letter :
    let sign : Grammar Journal :=
      .all .text (Script.toAction false [.append []]) [(.text, .accept (.symbol '-'))]
    let a := .sequence sign (.accept (.ofClass .digit))
    let b := .manyOne (.accept (.symbol 'ß'))
    let env : Environment Journal := ⟨.empty, .off⟩
    let c : Config Journal := ⟨.ofInput ['ß', 'ß'], some (.text "v"), {}⟩
    c.cursor.place.IsGenuine c.cursor.input ∧ env.Yields a c c.mismatched ∧
      ∃ o, env.Yields (.choice a b) c o ∧ o.verdict = .matched ∧
        o.config.slot = some (.text "vßß") := by
  intro sign a b env c
  have hc : c.cursor.place.IsGenuine c.cursor.input := ⟨rfl, rfl⟩
  have ha : env.Yields a c c.mismatched := ⟨9, rfl⟩
  let d : SlotDiscipline := ⟨⟨fun _ => False, fun _ => False⟩, fun _ => False, fun _ _ => False⟩
  have hd : d.Consistent env.store :=
    ⟨⟨fun _ _ _ h => h.elim, fun _ _ _ h => h.elim⟩, fun _ _ _ h => h.elim,
      fun _ _ _ _ h => h.elim⟩
  have hsign : d.Moving sign := .all _ _ List.mem_cons_self (.accept rfl)
  have hkeeps : d.KeepsSlot .mismatched a :=
    .sequence (.all _ _ _) (.moving hsign) (.recognizer trivial)
  have hchoice := (choice_ordered a b c hc c.mismatched ha).2.2 rfl rfl (.inr ⟨d, hd, hkeeps⟩)
  have hb : ∃ o, env.Yields b { c with state := c.mismatched.config.state } o ∧
      o.verdict = .matched ∧ o.config.slot = some (.text "vßß") := ⟨_, ⟨9, rfl⟩, rfl, rfl⟩
  obtain ⟨⟨verdict, config, records⟩, hb, hverdict, hslot⟩ := hb
  obtain ⟨records, hyields⟩ := (hchoice verdict config).2 ⟨records, hb⟩
  exact ⟨hc, ha, _, hyields, hverdict, hslot⟩

/-- Digits behind a sign that may be missing, or letters. If it is missing, the action puts a plus
sign into the slot before the digits do not match, and there it still is when the letters do. -/
theorem choice_not_ordered_letter :
    let sign : Grammar Journal :=
      .all .text (Script.toAction false [.literal (.text "+")])
        [(.text, .option (.accept (.symbol '-')))]
    let a := .sequence sign (.manyOne (.accept (.ofClass .digit)))
    let b := .manyOne (.accept (.ofClass .alphabetic))
    let env : Environment Journal := ⟨.empty, .off⟩
    let c : Config Journal := ⟨.ofInput ['a', 'b', 'c'], some (.text ""), {}⟩
    ∃ o second choice, env.Yields a c o ∧ o.verdict = .mismatched ∧
      o.config.cursor.offset = c.cursor.offset ∧
      env.Yields b { c with state := o.config.state } second ∧
      second.config.slot = some (.text "abc") ∧
      env.Yields (.choice a b) c choice ∧ choice.config.slot = some (.text "+abc") ∧
      ¬ ∀ verdict config, (∃ records, env.Yields (.choice a b) c ⟨verdict, config, records⟩) ↔
        ∃ records, env.Yields b { c with state := o.config.state } ⟨verdict, config, records⟩ := by
  intro sign a b env c
  have ha : ∃ o, env.Yields a c o ∧ o.verdict = .mismatched ∧
      o.config.cursor.offset = c.cursor.offset ∧ o.config.state = c.state :=
    ⟨_, ⟨9, rfl⟩, rfl, rfl, rfl⟩
  have hb : ∃ o, env.Yields b c o ∧ o.config.slot = some (.text "abc") := ⟨_, ⟨9, rfl⟩, rfl⟩
  have hchoice : ∃ o, env.Yields (.choice a b) c o ∧ o.config.slot = some (.text "+abc") :=
    ⟨_, ⟨9, rfl⟩, rfl⟩
  obtain ⟨o, ha, hmismatched, hstayed, hstate⟩ := ha
  obtain ⟨second, hb, hsecond⟩ := hb
  obtain ⟨choice, hchoice, hslot⟩ := hchoice
  have halone : env.Yields b { c with state := o.config.state } second := by
    rw [hstate]
    exact hb
  refine ⟨o, second, choice, ha, hmismatched, hstayed, halone, hsecond, hchoice, hslot, ?_⟩
  intro h
  obtain ⟨records, hyields⟩ := (h second.verdict second.config).2 ⟨second.records, halone⟩
  obtain rfl := hyields.unique hchoice
  have hne : some (Value.text "+abc") ≠ some (.text "abc") := by decide
  exact hne (hslot.symm.trans hsecond)

end Environment

end ParserAlgebra
