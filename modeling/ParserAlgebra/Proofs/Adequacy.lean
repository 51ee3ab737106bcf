import ParserAlgebra.Proofs.Composition
import ParserAlgebra.Proofs.ParsingExpression

/-!
# Runs of parsing expressions

The grammar of a parsing expression means what the expression means. A run gives the answer that the
rules give, if they give one, and does not come to an end otherwise; and since every mismatch is in
place, no run ends with an error.
-/

namespace ParserAlgebra

/-- An outcome that says what an answer says: a match that ends at an offset, or a mismatch. -/
def Outcome.Reads {σ : Type} (r : Option Nat) (o : Outcome σ) : Prop :=
  match r with
  | some j => o.verdict = .matched ∧ o.config.cursor.offset = j
  | none => o.verdict = .mismatched

namespace Environment

open ParsingExpression

variable {Name σ : Type} {env : Environment σ} {rules : Name → ParsingExpression Name}
  {slots : Name → Slot} {c : Config σ} {o : Outcome σ} {a b e : ParsingExpression Name}

/-- An outcome that says of an expression what the rules say of it. -/
def Answers (rules : Name → ParsingExpression Name) (e : ParsingExpression Name) (c : Config σ)
    (o : Outcome σ) : Prop :=
  ∃ r, o.Reads r ∧ e.Parses rules c.cursor.input c.cursor.offset r

/-- An answer that leads the cursor onward, or leaves it where it is if it is a mismatch. -/
structure AnswersInPlace (rules : Name → ParsingExpression Name) (e : ParsingExpression Name)
    (c : Config σ) (o : Outcome σ) : Prop where
  answers : Answers rules e c o
  onward : c.cursor.Onward o.config.cursor
  stays : o.verdict = .mismatched → o.config.cursor = c.cursor

theorem Answers.of_matched (h : o.verdict = .matched)
    (he : e.Parses rules c.cursor.input c.cursor.offset (some o.config.cursor.offset)) :
    Answers rules e c o :=
  ⟨some _, ⟨h, rfl⟩, he⟩

theorem Answers.of_mismatched (h : o.verdict = .mismatched)
    (he : e.Parses rules c.cursor.input c.cursor.offset none) : Answers rules e c o :=
  ⟨none, h, he⟩

theorem Answers.of_cursor_eq {d : Config σ} (h : Answers rules e d o) (hcursor : d.cursor = c.cursor) :
    Answers rules e c o := by
  unfold Answers
  rw [← hcursor]
  exact h

theorem answers_symbol {cls : Predicate} {hcls : cls.accepts none = false}
    (hc : c.cursor.place.IsGenuine c.cursor.input) :
    Answers rules (.symbol cls hcls) c
      (if cls.accepts c.cursor.symbol? then c.takeSymbol.matched else c.mismatched) := by
  by_cases haccepts : cls.accepts c.cursor.symbol? = true
  · rw [if_pos haccepts]
    cases hahead : c.cursor.ahead with
    | nil =>
        have hend : c.cursor.symbol? = none := congrArg List.head? hahead
        rw [hend, hcls] at haccepts
        cases haccepts
    | cons s rest =>
        have hsymbol : c.cursor.symbol? = some s := congrArg List.head? hahead
        have hdrop : Text.dropBytes? c.cursor.offset c.cursor.input = some (s :: rest) :=
          hc.1.trans (congrArg some hahead)
        have hoffset : c.takeSymbol.cursor.offset = c.cursor.offset + s.utf8Size := by
          rw [Config.takeSymbol_of_ahead hahead]
          exact Position.offset_past s c.cursor.position
        have hparses : (ParsingExpression.symbol cls hcls).Parses rules c.cursor.input
            c.cursor.offset (some (c.cursor.offset + s.utf8Size)) :=
          .symbol hdrop (hsymbol ▸ haccepts)
        exact .of_matched rfl (hoffset ▸ hparses)
  · rw [if_neg haccepts]
    exact .of_mismatched rfl (.symbolFails hc.1 (Bool.eq_false_iff.2 haccepts))

theorem answers_literal {text : String} (hc : c.cursor.place.IsGenuine c.cursor.input) :
    Answers rules (.literal text) c
      (if text.toList.isPrefixOf c.cursor.ahead then (c.take text.toList).matched
        else c.mismatched) := by
  by_cases hprefix : text.toList.isPrefixOf c.cursor.ahead = true
  · rw [if_pos hprefix]
    obtain ⟨rest, hrest⟩ := List.isPrefixOf_iff_prefix.1 hprefix
    have hdrop : Text.dropBytes? c.cursor.offset c.cursor.input = some (text.toList ++ rest) :=
      hc.1.trans (congrArg some hrest.symm)
    have hoffset : (c.take text.toList).cursor.offset =
        c.cursor.offset + Text.byteLength text.toList := by
      change (c.take text.toList).cursor.place.position.offset = _
      rw [Config.place_take hrest.symm]
      exact Position.offset_pastAll _ _
    have hparses : (ParsingExpression.literal text).Parses rules c.cursor.input c.cursor.offset
        (some (c.cursor.offset + Text.byteLength text.toList)) := .literal hdrop
    exact .of_matched rfl (hoffset ▸ hparses)
  · rw [if_neg hprefix]
    have htext : ¬ text.toList <+: c.cursor.ahead :=
      fun h => hprefix (List.isPrefixOf_iff_prefix.2 h)
    exact .of_mismatched rfl (.literalFails hc.1 htext)

theorem answers_andThen {next : Step σ} (ho : AnswersInPlace rules a c o)
    (hnext : Ends True (Answers rules b o.config) (next o.config)) :
    Ends True (Answers rules (.sequence a b) c) (o.andThen next) := by
  obtain ⟨⟨r, hr, ha⟩, honward, -⟩ := ho
  cases r with
  | none =>
      have hmismatched : o.verdict = .mismatched := hr
      rw [Outcome.andThen_of_not_matched (by simp [hmismatched])]
      exact .of_mismatched hmismatched (.sequenceFails ha)
  | some k =>
      obtain ⟨hmatched, rfl⟩ := hr
      rw [Outcome.andThen_of_matched hmatched]
      refine Ends.map (Ends.imp hnext id fun o' ho' => ?_)
      obtain ⟨r', hr', hb⟩ := ho'
      rw [honward.input] at hb
      exact ⟨r', hr', .sequence ha hb⟩

theorem answers_orElse {next : Step σ} (ho : AnswersInPlace rules a c o)
    (hnext : ∀ d : Config σ, d.cursor = c.cursor → Ends True (Answers rules b d) (next d))
    (message : String) (tried : Grammar σ) :
    Ends True (Answers rules (.choice a b) c)
      (env.orElse message tried c.cursor.position o next) := by
  obtain ⟨⟨r, hr, ha⟩, -, hstays⟩ := ho
  cases r with
  | none =>
      have hmismatched : o.verdict = .mismatched := hr
      have hcursor := hstays hmismatched
      rw [orElse_of_mismatched hmismatched (congrArg Cursor.offset hcursor)]
      refine Ends.map (Ends.imp (hnext o.config hcursor) id fun o' ho' => ?_)
      obtain ⟨r', hr', hb⟩ := ho'.of_cursor_eq hcursor
      exact ⟨r', hr', .choiceElse ha hb⟩
  | some k =>
      rw [orElse_of_not_mismatched (by simp [hr.1])]
      exact ⟨some k, hr, .choice ha⟩

section Iterate

variable {step : Step σ}
  (hstep : ∀ c : Config σ, c.cursor.place.IsGenuine c.cursor.input →
    Ends True (AnswersInPlace rules e c) (step c))

include hstep

/-- A repetition that owes no match answers as a star does. -/
theorem answers_iterate_zero (blamed : Grammar σ) (n : Nat)
    (hc : c.cursor.place.IsGenuine c.cursor.input) :
    Ends True (Answers rules (.star e) c) (env.iterate blamed step n 0 c) := by
  induction n generalizing c with
  | zero => trivial
  | succ n ih =>
      have hfirst := hstep c hc
      cases ho : step c with
      | error stop =>
          rw [iterate, ho]
          cases stop <;> trivial
      | ok o =>
          obtain ⟨⟨r, hr, he⟩, honward, hstays⟩ := hfirst.of_eq_ok ho
          cases r with
          | none =>
              have hoffset := congrArg Cursor.offset (hstays hr)
              rw [iterate_of_mismatched ho hr hoffset]
              have hstar : (ParsingExpression.star e).Parses rules c.cursor.input c.cursor.offset
                  (some o.config.cursor.offset) := by
                rw [hoffset]
                exact .starStops he
              exact .of_matched rfl hstar
          | some k =>
              obtain ⟨hmatched, rfl⟩ := hr
              by_cases hoffset : o.config.cursor.offset = c.cursor.offset
              · rw [iterate_of_empty ho hmatched hoffset]
                have hstar : (ParsingExpression.star e).Parses rules c.cursor.input c.cursor.offset
                    (some o.config.cursor.offset) := by
                  rw [hoffset] at he ⊢
                  exact .starEmpty he
                exact .of_matched rfl hstar
              · rw [iterate_of_moved ho hmatched hoffset]
                refine Ends.map (Ends.imp (ih (honward.isGenuine hc)) id fun o' ho' => ?_)
                obtain ⟨r', hr', hrest⟩ := ho'
                rw [honward.input] at hrest
                exact ⟨r', hr', .starMore he hoffset hrest⟩

/-- One that owes a match answers as a plus does. -/
theorem answers_iterate_one (blamed : Grammar σ) (n : Nat)
    (hc : c.cursor.place.IsGenuine c.cursor.input) :
    Ends True (Answers rules (.plus e) c) (env.iterate blamed step n 1 c) := by
  cases n with
  | zero => trivial
  | succ n =>
      have hfirst := hstep c hc
      cases ho : step c with
      | error stop =>
          rw [iterate, ho]
          cases stop <;> trivial
      | ok o =>
          obtain ⟨⟨r, hr, he⟩, honward, hstays⟩ := hfirst.of_eq_ok ho
          cases r with
          | none =>
              have hoffset := congrArg Cursor.offset (hstays hr)
              rw [iterate_of_mismatched ho hr hoffset]
              exact .of_mismatched rfl (.plusFails he)
          | some k =>
              obtain ⟨hmatched, rfl⟩ := hr
              by_cases hoffset : o.config.cursor.offset = c.cursor.offset
              · rw [iterate_of_empty ho hmatched hoffset]
                have hplus : (ParsingExpression.plus e).Parses rules c.cursor.input c.cursor.offset
                    (some o.config.cursor.offset) := by
                  rw [hoffset] at he ⊢
                  exact .plus he (.starEmpty he)
                exact .of_matched rfl hplus
              · rw [iterate_of_moved ho hmatched hoffset]
                have hrest : Ends True (Answers rules (.star e) o.config)
                    (env.iterate blamed step n 0 o.config) :=
                  answers_iterate_zero hstep blamed n (honward.isGenuine hc)
                refine Ends.map (Ends.imp hrest id fun o' ho' => ?_)
                obtain ⟨r', hr', hstar⟩ := ho'
                rw [honward.input] at hstar
                exact ⟨r', hr', .plus he hstar⟩

end Iterate

section Store

variable (hstore : DefinedIn env.store slots rules)

include hstore

theorem cursor_eq_of_mismatched (ho : env.Yields (e.toGrammar slots) c o)
    (h : o.verdict = .mismatched) : o.config.cursor = c.cursor := by
  obtain ⟨n, hn⟩ := ho
  exact (mismatchesAt_run hstore.consistent n (guarded_toGrammar e) c).of_eq_ok hn h

/-- Whatever a run of the grammar of an expression comes to, the rules say the same. -/
theorem answers_run (n : Nat) (e : ParsingExpression Name) (c : Config σ)
    (hc : c.cursor.place.IsGenuine c.cursor.input) :
    Ends True (Answers rules e c) (env.run n (e.toGrammar slots) c) := by
  -- A sequence stands in an attempt, so two steps of the bound are taken at once.
  induction n using Nat.strong_induction_on generalizing e c with
  | _ n ih =>
      have hpart {m : Nat} (hm : m < n) (e : ParsingExpression Name) (c : Config σ)
          (hc : c.cursor.place.IsGenuine c.cursor.input) :
          Ends True (AnswersInPlace rules e c) (env.run m (e.toGrammar slots) c) := by
        have hanswers := ih m hm e c hc
        cases ho : env.run m (e.toGrammar slots) c with
        | error stop => cases stop <;> trivial
        | ok o =>
            exact ⟨hanswers.of_eq_ok ho, (env.orderly_run m _ c).of_eq_ok ho,
              cursor_eq_of_mismatched hstore ⟨m, ho⟩⟩
      cases n with
      | zero => trivial
      | succ n =>
          have hlt := n.lt_succ_self
          cases e with
          | symbol cls hcls => exact answers_symbol hc
          | literal text => exact answers_literal hc
          | empty => exact .of_matched rfl .empty
          | failure => exact .of_mismatched rfl .failure
          | sequence a b =>
              rw [toGrammar, run_attempt]
              have hsequence : Ends True (Answers rules (.sequence a b) c)
                  (env.run n (.sequence (a.toGrammar slots) (b.toGrammar slots)) c) := by
                cases n with
                | zero => trivial
                | succ n =>
                    have hlt : n < n + 1 + 1 := Nat.lt_add_of_pos_right Nat.two_pos
                    rw [run, runLevel]
                    refine Ends.bind (hpart hlt a c hc) fun o ho => answers_andThen ho ?_
                    exact ih n hlt b o.config (ho.onward.isGenuine hc)
              refine Ends.bind hsequence fun o ho => ?_
              split
              · exact ho
              · obtain ⟨r, hr, hparses⟩ := ho
                cases r with
                | some j => exact absurd hr.1 ‹_›
                | none =>
                    have hnote := env.ends_backtrackNote True
                      (.sequence (a.toGrammar slots) (b.toGrammar slots)) c o
                    exact Ends.map (Ends.imp hnote id fun _ _ => ⟨none, hr, hparses⟩)
          | choice a b =>
              rw [toGrammar, run, runLevel]
              refine Ends.bind (hpart hlt a c hc) fun o ho => ?_
              refine answers_orElse ho (fun d hd => ih n hlt b d ?_) _ _
              rw [hd]
              exact hc
          | star e =>
              rw [toGrammar, run, runLevel]
              exact answers_iterate_zero (fun c hc => hpart hlt e c hc) _ n hc
          | plus e =>
              rw [toGrammar, run, runLevel]
              exact answers_iterate_one (fun c hc => hpart hlt e c hc) _ n hc
          | optional e =>
              rw [toGrammar, run, runLevel]
              refine Ends.bind (hpart hlt e c hc) fun o ho => ?_
              obtain ⟨⟨r, hr, he⟩, -, hstays⟩ := ho
              cases r with
              | none =>
                  have hoffset := congrArg Cursor.offset (hstays hr)
                  rw [orElse_of_mismatched hr hoffset]
                  have hskips : (ParsingExpression.optional e).Parses rules c.cursor.input
                      c.cursor.offset (some o.config.cursor.offset) := by
                    rw [hoffset]
                    exact .optionalSkips he
                  exact .of_matched rfl hskips
              | some k =>
                  rw [orElse_of_not_mismatched (by simp [hr.1])]
                  exact ⟨some k, hr, .optional he⟩
          | rule name =>
              rw [toGrammar, run, runLevel, hstore name]
              refine Ends.imp (ih n hlt (rules name) c hc) id fun o ho => ?_
              obtain ⟨r, hr, hbody⟩ := ho
              exact ⟨r, hr, .rule hbody⟩

variable {input : List Char} {i : Nat} {r : Option Nat}

/-- A run that comes to an end reads as the rules say. -/
theorem reads_of_parses (hc : c.cursor.LiesIn input) (hi : c.cursor.offset = i)
    (h : e.Parses rules input i r) (ho : env.Yields (e.toGrammar slots) c o) : o.Reads r := by
  obtain ⟨rfl, hgenuine⟩ := hc
  obtain ⟨n, hn⟩ := ho
  obtain ⟨r', hr', h'⟩ := (answers_run hstore n e c hgenuine).of_eq_ok hn
  rw [hi] at h'
  obtain rfl := h.unique h'
  exact hr'

/-- Where the rules give an answer, the run comes to an end. -/
theorem exists_yields_of_parses (h : e.Parses rules input i r) (hc : c.cursor.LiesIn input)
    (hi : c.cursor.offset = i) : ∃ o, env.Yields (e.toGrammar slots) c o := by
  -- What the runs of the parts read is known from `reads_of_parses`, whatever bound they need.
  induction h generalizing c with
  | symbol | symbolFails | literal | literalFails | empty | failure => exact ⟨_, 1, rfl⟩
  | sequence ha hb iha ihb =>
      obtain ⟨o, ho⟩ := iha hc hi
      obtain ⟨o', ho'⟩ := ihb (hc.onward ho.onward) (reads_of_parses hstore hc hi ha ho).2
      have hsequence := yields_sequence ho (reads_of_parses hstore hc hi ha ho).1 ho'
      obtain ⟨records, hattempt⟩ := exists_yields_attempt hsequence
      exact ⟨_, hattempt⟩
  | @sequenceFails a b i ha iha =>
      obtain ⟨o, ho⟩ := iha hc hi
      have hmismatched : o.verdict = .mismatched := reads_of_parses hstore hc hi ha ho
      have hsequence :=
        yields_sequence_of_not_matched ho (by simp [hmismatched]) (b.toGrammar slots)
      obtain ⟨records, hattempt⟩ := exists_yields_attempt hsequence
      exact ⟨_, hattempt⟩
  | choice ha iha =>
      obtain ⟨o, ho⟩ := iha hc hi
      have hmatched := (reads_of_parses hstore hc hi ha ho).1
      exact ⟨o, yields_choice ho (by simp [hmatched]) _⟩
  | choiceElse ha hb iha ihb =>
      obtain ⟨o, ho⟩ := iha hc hi
      have hmismatched : o.verdict = .mismatched := reads_of_parses hstore hc hi ha ho
      have hcursor := cursor_eq_of_mismatched hstore ho hmismatched
      obtain ⟨o', ho'⟩ := ihb (c := o.config) (hcursor ▸ hc) (hcursor ▸ hi)
      exact ⟨_, yields_choice_of_mismatched ho hmismatched (congrArg Cursor.offset hcursor) ho'⟩
  | starStops he ihe =>
      obtain ⟨o, ho⟩ := ihe hc hi
      have hmismatched : o.verdict = .mismatched := reads_of_parses hstore hc hi he ho
      have hcursor := cursor_eq_of_mismatched hstore ho hmismatched
      exact ⟨_, yields_repetition_of_mismatched ho hmismatched (congrArg Cursor.offset hcursor)⟩
  | starEmpty he ihe =>
      obtain ⟨o, ho⟩ := ihe hc hi
      obtain ⟨hmatched, hoffset⟩ := reads_of_parses hstore hc hi he ho
      exact ⟨_, yields_repetition_of_empty ho hmatched (hoffset.trans hi.symm)⟩
  | starMore he hmoved hrest ihe ihrest =>
      obtain ⟨o, ho⟩ := ihe hc hi
      obtain ⟨hmatched, hoffset⟩ := reads_of_parses hstore hc hi he ho
      obtain ⟨o', ho'⟩ := ihrest (hc.onward ho.onward) (reads_of_parses hstore hc hi he ho).2
      rw [← hoffset, ← hi] at hmoved
      exact ⟨_, yields_repetition_of_moved ho hmatched hmoved ho'⟩
  | plus he hrest ihe ihrest =>
      obtain ⟨o, ho⟩ := ihe hc hi
      obtain ⟨hmatched, -⟩ := reads_of_parses hstore hc hi he ho
      obtain ⟨o', ho'⟩ := ihrest (hc.onward ho.onward) (reads_of_parses hstore hc hi he ho).2
      by_cases hmoved : o.config.cursor.offset = c.cursor.offset
      · exact ⟨_, yields_repetition_of_empty ho hmatched hmoved⟩
      · exact ⟨_, yields_repetition_of_moved ho hmatched hmoved ho'⟩
  | plusFails he ihe =>
      obtain ⟨o, ho⟩ := ihe hc hi
      have hmismatched : o.verdict = .mismatched := reads_of_parses hstore hc hi he ho
      have hcursor := cursor_eq_of_mismatched hstore ho hmismatched
      exact ⟨_, yields_repetition_of_mismatched ho hmismatched (congrArg Cursor.offset hcursor)⟩
  | optional he ihe =>
      obtain ⟨o, ho⟩ := ihe hc hi
      have hmatched := (reads_of_parses hstore hc hi he ho).1
      exact ⟨o, yields_option ho (by simp [hmatched])⟩
  | optionalSkips he ihe =>
      obtain ⟨o, ho⟩ := ihe hc hi
      have hmismatched : o.verdict = .mismatched := reads_of_parses hstore hc hi he ho
      have hcursor := cursor_eq_of_mismatched hstore ho hmismatched
      exact ⟨_, yields_option_of_mismatched ho hmismatched (congrArg Cursor.offset hcursor)⟩
  | rule hbody ih =>
      obtain ⟨o, ho⟩ := ih hc hi
      exact ⟨o, yields_handle (hstore _) ho⟩

theorem copiesTo_of_yields (ho : env.Yields (e.toGrammar slots) c o) : c.CopiesTo o.config := by
  obtain ⟨n, hn⟩ := ho
  have hcopies : Copies c (env.run n (e.toGrammar slots) c) :=
    copies_run hstore.isRecognizer n (isRecognizer_toGrammar e) c
  exact hcopies.of_eq_ok hn

/-- The rules give a success up to an offset if and only if the run of the grammar matches, ends
there and has put the text passed behind what the slot held. They give a failure if and only if it
mismatches and leaves cursor and slot as they were. It never ends with an error. -/
theorem parses_iff_yields (e : ParsingExpression Name) (c : Config σ)
    (hc : c.cursor.place.IsGenuine c.cursor.input) (text : String)
    (htext : c.slot = some (.text text)) :
    (∀ j, e.Parses rules c.cursor.input c.cursor.offset (some j) ↔
      ∃ o passed, env.Yields (e.toGrammar slots) c o ∧ o.verdict = .matched ∧
        o.config.cursor.offset = j ∧
        Text.slice? c.cursor.offset j c.cursor.input = some passed ∧
        o.config.slot = some (.text (text ++ String.ofList passed))) ∧
      (e.Parses rules c.cursor.input c.cursor.offset none ↔
        ∃ o, env.Yields (e.toGrammar slots) c o ∧ o.verdict = .mismatched ∧
          o.config.cursor = c.cursor ∧ o.config.slot = c.slot) ∧
      ∀ o error, env.Yields (e.toGrammar slots) c o → o.verdict ≠ .failed error := by
  have hlies : c.cursor.LiesIn c.cursor.input := ⟨rfl, hc⟩
  have hanswers (o : Outcome σ) (ho : env.Yields (e.toGrammar slots) c o) : Answers rules e c o := by
    obtain ⟨n, hn⟩ := ho
    exact (answers_run hstore n e c hc).of_eq_ok hn
  refine ⟨fun j => ⟨fun h => ?_, ?_⟩, ⟨fun h => ?_, ?_⟩, ?_⟩
  · obtain ⟨o, ho⟩ := exists_yields_of_parses hstore h hlies rfl
    obtain ⟨hmatched, rfl⟩ := reads_of_parses hstore hlies rfl h ho
    obtain ⟨passed, hpassed, hslot⟩ :=
      (copiesTo_of_yields hstore ho).slot_of_text ho.onward hc htext
    exact ⟨o, passed, ho, hmatched, rfl, hpassed, hslot⟩
  · rintro ⟨o, passed, ho, hmatched, rfl, -, -⟩
    obtain ⟨r, hr, h⟩ := hanswers o ho
    cases r with
    | some j => exact hr.2 ▸ h
    | none => exact absurd (hmatched.symm.trans hr) (by decide)
  · obtain ⟨o, ho⟩ := exists_yields_of_parses hstore h hlies rfl
    have hmismatched : o.verdict = .mismatched := reads_of_parses hstore hlies rfl h ho
    have hcursor := cursor_eq_of_mismatched hstore ho hmismatched
    have hslot := (copiesTo_of_yields hstore ho).slot_of_cursor_eq hcursor
    exact ⟨o, ho, hmismatched, hcursor, hslot⟩
  · rintro ⟨o, ho, hmismatched, -, -⟩
    obtain ⟨r, hr, h⟩ := hanswers o ho
    cases r with
    | some j => exact absurd (hmismatched.symm.trans hr.1) (by decide)
    | none => exact h
  · intro o error ho hfailed
    obtain ⟨r, hr, -⟩ := hanswers o ho
    cases r with
    | some j => exact Verdict.noConfusion (hfailed.symm.trans hr.1)
    | none => exact Verdict.noConfusion (hfailed.symm.trans hr)

end Store

/-- A rule that refers to itself, repeated from behind the first symbol of an input on. -/
theorem parses_iff_yields_nested :
    let item : ParsingExpression Unit := .plus (.symbol (.symbol 'ß') rfl)
    let rule : ParsingExpression Unit :=
      .choice (.sequence (.literal "[") (.sequence (.rule ()) (.literal "]"))) item
    let slots : Unit → Slot := fun _ => ⟨0, 0⟩
    let env : Environment Nat := ⟨⟨⟨[some [some (.rule (rule.toGrammar slots))]]⟩, []⟩, .off⟩
    let c : Config Nat :=
      ⟨(Cursor.ofInput ['é', '[', 'ß', ']', 'ß', ']']).advance, some (.text "v"), 0⟩
    DefinedIn env.store slots (fun _ => rule) ∧ c.cursor.place.IsGenuine c.cursor.input ∧
      c.slot = some (.text "v") ∧
        (ParsingExpression.star (.rule ())).Parses (fun _ => rule) c.cursor.input c.cursor.offset
          (some 8) := by
  intro item rule slots env c
  have hstore : DefinedIn env.store slots (fun _ => rule) := fun _ => rfl
  have hc : c.cursor.place.IsGenuine c.cursor.input := ⟨rfl, rfl⟩
  obtain ⟨hmatch, -, -⟩ := parses_iff_yields hstore (.star (.rule ())) c hc "v" rfl
  refine ⟨hstore, hc, rfl, (hmatch 8).2 ?_⟩
  dsimp only [item, rule, slots, env, c]
  exact ⟨_, ['[', 'ß', ']', 'ß'], ⟨12, rfl⟩, rfl, rfl, rfl, rfl⟩

end Environment

end ParserAlgebra
