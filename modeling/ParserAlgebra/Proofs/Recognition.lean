import ParserAlgebra.Proofs.Discipline

/-!
# Recognizers copy what they pass

A recognizer is made of the grammars that take symbols, and of those that put such grammars together
without a slot of their own. Whatever its run comes to, a match, a mismatch or an error, the text
between the places where the cursor began and ended is what has been put behind the text in the
slot. Of the regular expressions in it only that is used that a match is a beginning of what lies
ahead.
-/

namespace ParserAlgebra

variable {σ : Type}

/-- Whether a grammar only takes symbols, if the rules it refers to are among `rules`. -/
def Grammar.IsRecognizer (rules : RuleName → Prop) : Grammar σ → Prop
  | .accept _ | .expect _ | .literal _ | .pattern _ _ | .succeed | .fail => True
  | .sequence a b | .choice a b => a.IsRecognizer rules ∧ b.IsRecognizer rules
  | .repetition _ g | .option g | .attempt g | .attemptPure g | .strict _ g | .trace _ g
  | .shared g | .reference _ g | .define _ g | .rename _ _ g => g.IsRecognizer rules
  | .handle slot => rules (.slot slot)
  | .fixed _ _ rule => rules (.fixed rule)
  | .sepBy _ _ | .discard _ | .except _ _ _ | .token _ | .all _ _ _ | .any _ _ _ => False

namespace Value

@[simp] theorem pushText_empty (v : Value) : v.pushText "" = v := by
  cases v <;> simp [pushText]

theorem pushText_pushText (v : Value) (s t : String) :
    (v.pushText s).pushText t = v.pushText (s ++ t) := by
  cases v <;> simp [pushText, String.append_assoc]

end Value

namespace Config

/-- From one configuration to another one in whose slot the text that was passed has been put behind
what was there. -/
def CopiesTo (c d : Config σ) : Prop :=
  ∃ passed, c.cursor.ahead = passed ++ d.cursor.ahead ∧
    d.slot = c.slot.map (·.pushText (String.ofList passed))

namespace CopiesTo

variable {c d e : Config σ}

theorem of_eq (hahead : d.cursor.ahead = c.cursor.ahead) (hslot : d.slot = c.slot) :
    c.CopiesTo d := by
  refine ⟨[], hahead.symm, ?_⟩
  rw [hslot]
  cases c.slot <;> simp

theorem refl (c : Config σ) : c.CopiesTo c :=
  of_eq rfl rfl

theorem trans (hcd : c.CopiesTo d) (hde : d.CopiesTo e) : c.CopiesTo e := by
  obtain ⟨xs, hxs, hd⟩ := hcd
  obtain ⟨ys, hys, he⟩ := hde
  refine ⟨xs ++ ys, by rw [hxs, hys, List.append_assoc], ?_⟩
  rw [he, hd, Option.map_map]
  congr 1
  funext v
  simp [Value.pushText_pushText, String.ofList_append]

theorem slot_of_text (h : c.CopiesTo d) (honward : c.cursor.Onward d.cursor)
    (hc : c.cursor.place.IsGenuine c.cursor.input) {text : String}
    (htext : c.slot = some (.text text)) :
    ∃ passed, Text.slice? c.cursor.offset d.cursor.offset c.cursor.input = some passed ∧
      d.slot = some (.text (text ++ String.ofList passed)) := by
  obtain ⟨passed, hahead, hslot⟩ := h
  rw [htext] at hslot
  exact ⟨passed, honward.slice?_eq hc hahead, hslot⟩

theorem slot_of_cursor_eq (h : c.CopiesTo d) (hcursor : d.cursor = c.cursor) :
    d.slot = c.slot := by
  obtain ⟨passed, hahead, hslot⟩ := h
  obtain rfl : passed = [] := by simpa [hcursor] using hahead
  rw [hslot]
  cases c.slot <;> simp

end CopiesTo

section Take

variable {c : Config σ} {text later rest : List Char} {s : Char}

/-- Taking a text that lies ahead leads to the place behind it. -/
theorem place_take (h : c.cursor.ahead = text ++ rest) :
    (c.take text).cursor.place = ⟨c.cursor.position.pastAll text, rest⟩ := by
  change Place.reach (c.cursor.offset + Text.byteLength text) c.cursor.position c.cursor.ahead = _
  rw [h]
  exact Place.reach_append c.cursor.position text rest

theorem take_of_ahead (h : c.cursor.ahead = text ++ rest) :
    c.take text = ⟨{ c.cursor with place := ⟨c.cursor.position.pastAll text, rest⟩ },
      c.slot.map (·.pushText (String.ofList text)), c.state⟩ := by
  rw [← place_take h]
  rfl

theorem ahead_take (h : c.cursor.ahead = text ++ rest) : (c.take text).cursor.ahead = rest :=
  congrArg Place.ahead (place_take h)

theorem take_nil (c : Config σ) : c.take [] = c := by
  rw [take_of_ahead (List.nil_append c.cursor.ahead).symm]
  obtain ⟨cursor, slot, state⟩ := c
  cases slot with
  | none => rfl
  | some v => exact congrArg (fun v => Config.mk cursor (some v) state) v.pushText_empty

theorem take_take (h : c.cursor.ahead = text ++ (later ++ rest)) :
    (c.take text).take later = c.take (text ++ later) := by
  rw [take_of_ahead (ahead_take h), take_of_ahead h,
    take_of_ahead (h.trans (List.append_assoc text later rest).symm)]
  simp only [Option.map_map, Position.pastAll_append]
  congr 2
  funext v
  simp [Value.pushText_pushText, String.ofList_append]

theorem takeSymbol_of_ahead (h : c.cursor.ahead = s :: rest) :
    c.takeSymbol = ⟨{ c.cursor with place := ⟨c.cursor.position.past s, rest⟩ },
      c.slot.map (·.pushText s.toString), c.state⟩ := by
  have hsymbol : c.cursor.symbol? = some s := congrArg List.head? h
  have hnext : c.cursor.place.next = ⟨c.cursor.position.past s, rest⟩ := by
    change c.cursor.place.ahead = _ at h
    rw [Place.next, h]
    rfl
  rw [takeSymbol, hsymbol]
  dsimp only
  rw [Cursor.advance, hnext]

theorem takeSymbol_eq_take (h : c.cursor.ahead = s :: rest) : c.takeSymbol = c.take [s] := by
  have hone : c.cursor.ahead = [s] ++ rest := h
  rw [takeSymbol_of_ahead h, take_of_ahead hone]
  rfl

theorem offset_takeSymbol_ne_of_ahead (h : c.cursor.ahead = s :: rest) :
    c.takeSymbol.cursor.offset ≠ c.cursor.offset := by
  have hsize := s.utf8Size_pos
  rw [takeSymbol_of_ahead h]
  change (c.cursor.position.past s).offset ≠ c.cursor.position.offset
  rw [Position.offset_past]
  omega

theorem copiesTo_take (h : text <+: c.cursor.ahead) : c.CopiesTo (c.take text) := by
  obtain ⟨rest, hrest⟩ := h
  exact ⟨text, by rw [ahead_take hrest.symm, hrest], rfl⟩

theorem copiesTo_takeSymbol (c : Config σ) : c.CopiesTo c.takeSymbol := by
  cases hahead : c.cursor.ahead with
  | nil =>
      have hsymbol : c.cursor.symbol? = none := congrArg List.head? hahead
      rw [takeSymbol, hsymbol]
      exact .refl c
  | cons s rest =>
      rw [takeSymbol_of_ahead hahead]
      exact ⟨[s], hahead, rfl⟩

end Take

end Config

/-- A run that copies what it passes, whatever it comes to. -/
abbrev Copies (c : Config σ) (r : Except Stop (Outcome σ)) : Prop :=
  Ends True (fun o => c.CopiesTo o.config) r

namespace Environment

variable (env : Environment σ) {c : Config σ} {o : Outcome σ} {next : Step σ}

theorem Copies.trans {d : Config σ} {r : Except Stop (Outcome σ)} (h : c.CopiesTo d)
    (hr : Copies d r) : Copies c r :=
  Ends.imp hr id fun _ ho => h.trans ho

theorem copies_raiseFor (kind : ErrorKind) (message : String) (g : Grammar σ) (start : Position)
    (c : Config σ) : Copies c (env.raiseFor kind message g start c) :=
  Ends.bind_of_eq fun _ _ => Ends.bind_of_eq fun _ _ => .refl c

theorem copies_andThen (ho : c.CopiesTo o.config) (hnext : Copies o.config (next o.config)) :
    Copies c (o.andThen next) := by
  obtain ⟨verdict, config, records⟩ := o
  cases verdict with
  | matched => exact Ends.map (Copies.trans ho hnext)
  | mismatched => exact ho
  | failed e => exact ho

theorem copies_orElse (ho : c.CopiesTo o.config) (hnext : Copies o.config (next o.config))
    (message : String) (tried : Grammar σ) (start : Position) :
    Copies c (env.orElse message tried start o next) := by
  obtain ⟨verdict, config, records⟩ := o
  cases verdict with
  | matched => exact ho
  | mismatched =>
      unfold orElse
      dsimp only
      split
      · exact Ends.map (Copies.trans ho (env.copies_raiseFor .consumed message tried start config))
      · exact Ends.map (Copies.trans ho hnext)
  | failed e => exact ho

theorem copies_iterate {step : Step σ} (hstep : ∀ c, Copies c (step c)) (blamed : Grammar σ)
    (n owed : Nat) (c : Config σ) : Copies c (env.iterate blamed step n owed c) := by
  induction n generalizing owed c with
  | zero => trivial
  | succ n ih =>
      rw [iterate]
      refine Ends.bind (hstep c) fun o ho => ?_
      have hstop (owed : Nat) (c : Config σ) :
          Copies c (.ok (if owed = 0 then c.matched else c.mismatched)) := by
        split <;> exact .refl c
      split
      · split
        · exact ho
        · exact Ends.map (Copies.trans ho (ih (owed - 1) o.config))
      · exact env.copies_orElse ho (hstop owed o.config) _ _ _

/-- What a speculation takes back it takes back from the cursor and from the slot. -/
theorem copies_speculation {step : Step σ} (horderly : ∀ c, Orderly c.cursor (step c))
    (hstep : ∀ c, Copies c (step c)) (g : Grammar σ) (restores : Bool) (c : Config σ) :
    Copies c (step { c with cursor := c.cursor.checkpoint } >>= env.settle g restores c) := by
  refine Ends.bind_of_eq fun o ho => ?_
  have honward := (horderly { c with cursor := c.cursor.checkpoint }).of_eq_ok ho
  have hcopies := (hstep { c with cursor := c.cursor.checkpoint }).of_eq_ok ho
  by_cases hmatched : o.verdict = .matched
  · rw [env.settle_of_matched honward hmatched]
    exact hcopies
  · rw [env.settle_of_not_matched honward hmatched]
    exact Ends.map (Ends.imp (env.ends_backtrackNote True g c o) id fun _ _ => .of_eq rfl rfl)

variable {env} {rules : RuleName → Prop}

/-- The runs of a recognizer copy what they pass. -/
theorem copies_run
    (hrules : ∀ name body, rules name → env.store.body? name = some body →
      body.IsRecognizer rules)
    (n : Nat) {g : Grammar σ} (hg : g.IsRecognizer rules) (c : Config σ) :
    Copies c (env.run n g c) := by
  -- Not on the grammar: the induction passes through the bodies of rules, which are not smaller.
  induction n generalizing g c with
  | zero => trivial
  | succ n ih =>
      cases g with
      | accept p =>
          rw [run, runLevel]
          split
          · exact c.copiesTo_takeSymbol
          · exact .refl c
      | expect p =>
          rw [run, runLevel]
          split
          · exact c.copiesTo_takeSymbol
          · exact env.copies_raiseFor _ _ _ _ c
      | literal s =>
          rw [run, runLevel]
          split
          · exact Config.copiesTo_take (List.isPrefixOf_iff_prefix.1 ‹_›)
          · exact .refl c
      | pattern source matcher =>
          rw [run, runLevel]
          split
          · exact Config.copiesTo_take (matcher.isPrefix_of_matchAhead? ‹_›)
          · exact .refl c
      | succeed => exact Config.CopiesTo.refl c
      | fail => exact Config.CopiesTo.refl c
      | sequence a b =>
          rw [run, runLevel]
          exact Ends.bind (ih hg.1 c) fun o ho => copies_andThen ho (ih hg.2 o.config)
      | choice a b =>
          rw [run, runLevel]
          exact Ends.bind (ih hg.1 c) fun o ho => env.copies_orElse ho (ih hg.2 o.config) _ _ _
      | repetition atLeast item =>
          rw [run, runLevel]
          exact env.copies_iterate (ih (g := item) hg) item n atLeast c
      | option item =>
          rw [run, runLevel]
          refine Ends.bind (ih (g := item) hg c) fun o ho => ?_
          have hmatched : Copies o.config (.ok o.config.matched) := .refl o.config
          exact env.copies_orElse ho hmatched _ _ _
      | attempt item =>
          rw [run, runLevel]
          exact env.copies_speculation (env.orderly_run n item) (ih (g := item) hg) item _ c
      | attemptPure item =>
          rw [run, runLevel]
          exact env.copies_speculation (env.orderly_run n item) (ih (g := item) hg) item _ c
      | strict message item =>
          rw [run, runLevel]
          refine Ends.bind (ih (g := item) hg c) fun o ho => ?_
          split
          · exact Ends.map (Copies.trans ho (env.copies_raiseFor _ _ _ _ o.config))
          · exact ho
      | trace label item =>
          rw [run, runLevel]
          refine Ends.bind (ih (g := item) hg c) fun o ho => ?_
          exact Ends.bind_of_eq fun _ _ => ho
      | shared item => exact ih (g := item) hg c
      | reference name item => exact ih (g := item) hg c
      | define name item => exact ih (g := item) hg c
      | rename name rank item => exact ih (g := item) hg c
      | handle slot =>
          rw [run, runLevel]
          split
          · exact ih (hrules (.slot slot) _ hg ‹_›) c
          · exact Ends.bind_of_eq fun _ _ => .refl c
      | fixed hold name rule =>
          rw [run, runLevel]
          split
          · exact ih (hrules (.fixed rule) _ hg ‹_›) c
          · exact Ends.bind_of_eq fun _ _ => .refl c
      | sepBy item separator => exact hg.elim
      | discard item => exact hg.elim
      | except kind item forbidden => exact hg.elim
      | token item => exact hg.elim
      | all kind action parts => exact hg.elim
      | any kind action parts => exact hg.elim

/-- Whatever the run of a recognizer comes to, the slot holds what it held before and then the text
between the places where the cursor began and ended. If the cursor did not move, the slot is what it
was. -/
theorem slot_eq_of_isRecognizer
    (hrules : ∀ name body, rules name → env.store.body? name = some body →
      body.IsRecognizer rules)
    (g : Grammar σ) (hg : g.IsRecognizer rules) (c : Config σ)
    (hc : c.cursor.place.IsGenuine c.cursor.input) (text : String)
    (htext : c.slot = some (.text text)) (o : Outcome σ) (ho : env.Yields g c o) :
    (∃ passed, Text.slice? c.cursor.offset o.config.cursor.offset c.cursor.input = some passed ∧
      o.config.slot = some (.text (text ++ String.ofList passed))) ∧
      (o.config.cursor.offset = c.cursor.offset → o.config.slot = c.slot) := by
  obtain ⟨n, hn⟩ := ho
  have honward : c.cursor.Onward o.config.cursor := (env.orderly_run n g c).of_eq_ok hn
  have hcopies : c.CopiesTo o.config := (copies_run hrules n hg c).of_eq_ok hn
  exact ⟨hcopies.slot_of_text honward hc htext, fun hoffset =>
    hcopies.slot_of_cursor_eq (honward.eq_of_offset_eq hoffset)⟩

/-- A rule that refers to itself, on an input in which the first of two parentheses is not closed: it
does not match, with four symbols passed. -/
theorem slot_eq_of_isRecognizer_unclosed :
    let inner : Grammar Nat := .choice (.handle ⟨0, 0⟩) (.manyOne (.accept (.symbol 'ß')))
    let rule : Grammar Nat :=
      .sequence (.accept (.symbol '(')) (.sequence inner (.accept (.symbol ')')))
    let env : Environment Nat := ⟨⟨⟨[some [some (.rule rule)]]⟩, []⟩, .off⟩
    let rules : RuleName → Prop := (· = .slot ⟨0, 0⟩)
    let c : Config Nat := ⟨(Cursor.ofInput ['é', '(', '(', 'ß', ')']).advance, some (.text "v"), 0⟩
    (∀ name body, rules name → env.store.body? name = some body → body.IsRecognizer rules) ∧
      c.cursor.place.IsGenuine c.cursor.input ∧
        ∃ o, env.Yields (.handle ⟨0, 0⟩) c o ∧ o.verdict = .mismatched ∧
          o.config.slot = some (.text "v((ß)") ∧
            ∃ passed, Text.slice? c.cursor.offset o.config.cursor.offset c.cursor.input =
              some passed ∧ o.config.slot = some (.text ("v" ++ String.ofList passed)) := by
  intro inner rule env rules c
  have hrules : ∀ name body, rules name → env.store.body? name = some body →
      body.IsRecognizer rules := by
    rintro name body rfl hbody
    obtain rfl : rule = body := Option.some.inj hbody
    exact ⟨trivial, ⟨rfl, trivial⟩, trivial⟩
  have hc : c.cursor.place.IsGenuine c.cursor.input := ⟨rfl, rfl⟩
  obtain ⟨hslot, -⟩ :=
    slot_eq_of_isRecognizer hrules (.handle ⟨0, 0⟩) rfl c hc "v" rfl _ ⟨16, rfl⟩
  exact ⟨hrules, hc, _, ⟨16, rfl⟩, rfl, rfl, hslot⟩

end Environment

end ParserAlgebra
