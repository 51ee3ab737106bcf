import ParserAlgebra.Proofs.Composition
import ParserAlgebra.Proofs.Recognition

/-!
# Grammars that keep the slot

A branch that is given up in place leaves to the next one what it has put into the slot. It has put
something there only if a part of it matched without moving the cursor and filled the slot, as an
action may do, before another part mismatched. Two notions tell from a grammar that this does not
happen: the matches of a moving grammar move the cursor, and a grammar keeps the slot with a verdict
if it leaves the slot alone wherever it ends in place with that verdict. As with mismatches in
place, both are assumed of the rules of a store.
-/

namespace ParserAlgebra

/-- What is assumed of the rules of a store: beside what a discipline assumes, that they are moving,
and with which verdicts they keep the slot. -/
structure SlotDiscipline extends Discipline where
  moving : RuleName → Prop
  keeping : Verdict → RuleName → Prop

namespace SlotDiscipline

variable {σ : Type}

/-- The grammars whose matches move the cursor, under the assumptions made of rules. -/
inductive Moving (d : SlotDiscipline) : Grammar σ → Prop
  | accept {p : Predicate} (hp : p.accepts none = false) : d.Moving (.accept p)
  | expect {p : Predicate} (hp : p.accepts none = false) : d.Moving (.expect p)
  | literal {text : String} (htext : text.toList ≠ []) : d.Moving (.literal text)
  | fail : d.Moving .fail
  | sequenceFirst {a : Grammar σ} (ha : d.Moving a) (b : Grammar σ) : d.Moving (.sequence a b)
  | sequenceSecond (a : Grammar σ) {b : Grammar σ} (hb : d.Moving b) : d.Moving (.sequence a b)
  | choice {a b : Grammar σ} (ha : d.Moving a) (hb : d.Moving b) : d.Moving (.choice a b)
  | manyOne {item : Grammar σ} (hitem : d.Moving item) : d.Moving (.manyOne item)
  | sepBy {item : Grammar σ} (hitem : d.Moving item) (separator : Grammar σ) :
      d.Moving (.sepBy item separator)
  | discard {item : Grammar σ} (hitem : d.Moving item) : d.Moving (.discard item)
  | except (kind : Kind) {item : Grammar σ} (hitem : d.Moving item) (forbidden : Value) :
      d.Moving (.except kind item forbidden)
  | attempt {item : Grammar σ} (hitem : d.Moving item) : d.Moving (.attempt item)
  | attemptPure {item : Grammar σ} (hitem : d.Moving item) : d.Moving (.attemptPure item)
  | strict (message : String) {item : Grammar σ} (hitem : d.Moving item) :
      d.Moving (.strict message item)
  | trace (label : String) {item : Grammar σ} (hitem : d.Moving item) :
      d.Moving (.trace label item)
  | token {item : Grammar σ} (hitem : d.Moving item) : d.Moving (.token item)
  | shared {item : Grammar σ} (hitem : d.Moving item) : d.Moving (.shared item)
  | reference (name : String) {item : Grammar σ} (hitem : d.Moving item) :
      d.Moving (.reference name item)
  | define (name : String) {item : Grammar σ} (hitem : d.Moving item) :
      d.Moving (.define name item)
  | rename (name : String) (rank : Rank) {item : Grammar σ} (hitem : d.Moving item) :
      d.Moving (.rename name rank item)
  | all (kind : Kind) (action : Action σ) {parts : List (Kind × Grammar σ)}
      {part : Kind × Grammar σ} (hmem : part ∈ parts) (hpart : d.Moving part.2) :
      d.Moving (.all kind action parts)
  | any (kind : Kind) (action : Action σ) {parts : List (Kind × Grammar σ)}
      (hparts : ∀ part ∈ parts, d.Moving part.2) : d.Moving (.any kind action parts)
  | handle {slot : Slot} (hslot : d.moving (.slot slot)) : d.Moving (.handle slot)
  | fixed (hold : Hold) (name : String) {rule : RuleId} (hrule : d.moving (.fixed rule)) :
      d.Moving (.fixed hold name rule)

/-- The grammars that keep the slot with a verdict, under the assumptions made of rules. -/
inductive KeepsSlot (d : SlotDiscipline) : Verdict → Grammar σ → Prop
  | infallible {g : Grammar σ} (hg : d.Infallible g) : d.KeepsSlot .mismatched g
  | moving {g : Grammar σ} (hg : d.Moving g) : d.KeepsSlot .matched g
  | recognizer {verdict : Verdict} {g : Grammar σ} (hg : g.IsRecognizer fun _ => False) :
      d.KeepsSlot verdict g
  | sequence {verdict : Verdict} {a b : Grammar σ} (ha : d.KeepsSlot verdict a)
      (hmatched : d.KeepsSlot .matched a) (hb : d.KeepsSlot verdict b) :
      d.KeepsSlot verdict (.sequence a b)
  | sequenceInfallible {a b : Grammar σ} (ha : d.KeepsSlot .mismatched a) (hb : d.Infallible b) :
      d.KeepsSlot .mismatched (.sequence a b)
  | choice {verdict : Verdict} {a b : Grammar σ} (ha : d.KeepsSlot verdict a)
      (hmismatched : d.KeepsSlot .mismatched a) (hb : d.KeepsSlot verdict b) :
      d.KeepsSlot verdict (.choice a b)
  | repetition {verdict : Verdict} (atLeast : Nat) {item : Grammar σ}
      (hitem : d.KeepsSlot verdict item) (hmatched : d.KeepsSlot .matched item)
      (hmismatched : d.KeepsSlot .mismatched item) :
      d.KeepsSlot verdict (.repetition atLeast item)
  | manyOne {verdict : Verdict} {item : Grammar σ} (hitem : d.KeepsSlot verdict item) :
      d.KeepsSlot verdict (.manyOne item)
  | option {verdict : Verdict} {item : Grammar σ} (hitem : d.KeepsSlot verdict item)
      (hmismatched : d.KeepsSlot .mismatched item) : d.KeepsSlot verdict (.option item)
  | sepBy {verdict : Verdict} {item : Grammar σ} (hitem : d.KeepsSlot verdict item)
      (hmatched : d.KeepsSlot .matched item) (hmismatched : d.KeepsSlot .mismatched item)
      (separator : Grammar σ) : d.KeepsSlot verdict (.sepBy item separator)
  | sepByMismatched {item : Grammar σ} (hitem : d.KeepsSlot .mismatched item)
      (separator : Grammar σ) : d.KeepsSlot .mismatched (.sepBy item separator)
  | discard {verdict : Verdict} (item : Grammar σ) : d.KeepsSlot verdict (.discard item)
  | except (kind : Kind) (item : Grammar σ) (forbidden : Value) :
      d.KeepsSlot .mismatched (.except kind item forbidden)
  | attempt (item : Grammar σ) : d.KeepsSlot .mismatched (.attempt item)
  | attemptMatched {item : Grammar σ} (hitem : d.KeepsSlot .matched item) :
      d.KeepsSlot .matched (.attempt item)
  | attemptPure (item : Grammar σ) : d.KeepsSlot .mismatched (.attemptPure item)
  | attemptPureMatched {item : Grammar σ} (hitem : d.KeepsSlot .matched item) :
      d.KeepsSlot .matched (.attemptPure item)
  | strict (message : String) {item : Grammar σ} (hitem : d.KeepsSlot .matched item) :
      d.KeepsSlot .matched (.strict message item)
  | trace {verdict : Verdict} (label : String) {item : Grammar σ}
      (hitem : d.KeepsSlot verdict item) : d.KeepsSlot verdict (.trace label item)
  | token {verdict : Verdict} {item : Grammar σ} (hitem : d.KeepsSlot verdict item) :
      d.KeepsSlot verdict (.token item)
  | shared {verdict : Verdict} {item : Grammar σ} (hitem : d.KeepsSlot verdict item) :
      d.KeepsSlot verdict (.shared item)
  | reference {verdict : Verdict} (name : String) {item : Grammar σ}
      (hitem : d.KeepsSlot verdict item) : d.KeepsSlot verdict (.reference name item)
  | define {verdict : Verdict} (name : String) {item : Grammar σ}
      (hitem : d.KeepsSlot verdict item) : d.KeepsSlot verdict (.define name item)
  | rename {verdict : Verdict} (name : String) (rank : Rank) {item : Grammar σ}
      (hitem : d.KeepsSlot verdict item) : d.KeepsSlot verdict (.rename name rank item)
  | all (kind : Kind) (action : Action σ) (parts : List (Kind × Grammar σ)) :
      d.KeepsSlot .mismatched (.all kind action parts)
  | any (kind : Kind) (action : Action σ) (parts : List (Kind × Grammar σ)) :
      d.KeepsSlot .mismatched (.any kind action parts)
  | handle {verdict : Verdict} {slot : Slot} (hslot : d.keeping verdict (.slot slot)) :
      d.KeepsSlot verdict (.handle slot)
  | fixed {verdict : Verdict} (hold : Hold) (name : String) {rule : RuleId}
      (hrule : d.keeping verdict (.fixed rule)) : d.KeepsSlot verdict (.fixed hold name rule)

/-- What is assumed of each rule holds of its body, under the same assumptions. -/
structure Consistent (d : SlotDiscipline) (store : Store σ) : Prop extends
    d.toDiscipline.Consistent store where
  moving : ∀ name g, store.body? name = some g → d.moving name → d.Moving g
  keeping : ∀ verdict name g, store.body? name = some g → d.keeping verdict name →
    d.KeepsSlot verdict g

end SlotDiscipline

/-- A cursor that came back to an offset had not left it. -/
theorem Cursor.Onward.offset_eq_of_return {c d e : Cursor} (h : c.Onward d) (h' : d.Onward e)
    (hback : e.offset = c.offset) : d.offset = c.offset := by
  have hle := h.offset_le
  have hle' := h'.offset_le
  omega

variable {σ : Type}

/-- A run that leads onward from a cursor. -/
abbrev LeadsOn (c : Cursor) (r : Except Stop (Outcome σ)) : Prop :=
  Ends True (fun o => c.Onward o.config.cursor) r

theorem OrderlyBy.leadsOn {c : Cursor} {r : Except Stop (Outcome σ)} (h : Orderly c r) :
    LeadsOn c r :=
  Ends.imp h (fun _ => trivial) fun _ ho => ho

/-- A run that matches only if it moves the cursor. -/
abbrev Moves (c : Cursor) (r : Except Stop (Outcome σ)) : Prop :=
  Ends True (fun o => o.verdict = .matched → o.config.cursor.offset ≠ c.offset) r

/-- A run that leaves the slot alone if it ends with a verdict in place. -/
abbrev LeavesSlot (verdict : Verdict) (c : Config σ) (r : Except Stop (Outcome σ)) : Prop :=
  Ends True (fun o => o.verdict = verdict → o.config.cursor.offset = c.cursor.offset →
    o.config.slot = c.slot) r

theorem Moves.leavesSlot {c : Config σ} {r : Except Stop (Outcome σ)} (h : Moves c.cursor r) :
    LeavesSlot .matched c r :=
  Ends.imp h id fun _ ho hmatched hstayed => absurd hstayed (ho hmatched)

theorem NeverMismatches.leavesSlot {r : Except Stop (Outcome σ)} (h : NeverMismatches r)
    (c : Config σ) : LeavesSlot .mismatched c r :=
  Ends.imp h id fun _ ho hmismatched => absurd hmismatched ho

theorem Copies.leavesSlot {verdict : Verdict} {c : Config σ} {r : Except Stop (Outcome σ)}
    (h : Copies c r) (horderly : Orderly c.cursor r) : LeavesSlot verdict c r := by
  refine Ends.of_ok fun o ho _ hstayed => ?_
  have honward : c.cursor.Onward o.config.cursor := horderly.of_eq_ok ho
  exact (h.of_eq_ok ho).slot_of_cursor_eq (honward.eq_of_offset_eq hstayed)

/-- To come back from another configuration with the same slot at the same place. -/
theorem LeavesSlot.trans {verdict : Verdict} {c d : Config σ} {r : Except Stop (Outcome σ)}
    (h : LeavesSlot verdict d r) (hstayed : d.cursor.offset = c.cursor.offset)
    (hslot : d.slot = c.slot) : LeavesSlot verdict c r :=
  Ends.imp h id fun _ ho hverdict hback => (ho hverdict (hback.trans hstayed.symm)).trans hslot

namespace Config

variable {c : Config σ}

theorem offset_take_ne {text : List Char} (htext : text ≠ []) (h : text <+: c.cursor.ahead) :
    (c.take text).cursor.offset ≠ c.cursor.offset := by
  obtain ⟨rest, hrest⟩ := h
  have hoffset : (c.take text).cursor.offset = c.cursor.offset + Text.byteLength text := by
    change (c.take text).cursor.place.position.offset = _
    rw [place_take hrest.symm]
    exact Position.offset_pastAll _ _
  have hlength : Text.byteLength text ≠ 0 := mt Text.byteLength_eq_zero_iff.1 htext
  omega

theorem offset_takeSymbol_ne {p : Predicate} (hp : p.accepts none = false)
    (h : p.accepts c.cursor.symbol? = true) : c.takeSymbol.cursor.offset ≠ c.cursor.offset := by
  cases hahead : c.cursor.ahead with
  | nil =>
      have hsymbol : c.cursor.symbol? = none := congrArg List.head? hahead
      rw [hsymbol, hp] at h
      cases h
  | cons s rest => exact offset_takeSymbol_ne_of_ahead hahead

end Config

namespace Outcome

variable {o : Outcome σ} {next : Step σ}

theorem moves_andThen_of_moved {c : Cursor} (honward : c.Onward o.config.cursor)
    (ho : o.verdict = .matched → o.config.cursor.offset ≠ c.offset)
    (hnext : LeadsOn o.config.cursor (next o.config)) : Moves c (o.andThen next) := by
  obtain ⟨verdict, config, records⟩ := o
  cases verdict with
  | matched =>
      refine Ends.map (Ends.of_ok fun o' ho' _ hback => ?_)
      exact ho rfl (honward.offset_eq_of_return (hnext.of_eq_ok ho') hback)
  | mismatched => exact fun h => Verdict.noConfusion h
  | failed e => exact fun h => Verdict.noConfusion h

theorem moves_andThen {c : Cursor} (honward : c.Onward o.config.cursor)
    (honward' : LeadsOn o.config.cursor (next o.config))
    (hnext : Moves o.config.cursor (next o.config)) : Moves c (o.andThen next) := by
  obtain ⟨verdict, config, records⟩ := o
  cases verdict with
  | matched =>
      refine Ends.map (Ends.of_ok fun o' ho' hmatched hback => ?_)
      have hstayed := honward.offset_eq_of_return (honward'.of_eq_ok ho') hback
      exact hnext.of_eq_ok ho' hmatched (hback.trans hstayed.symm)
  | mismatched => exact fun h => Verdict.noConfusion h
  | failed e => exact fun h => Verdict.noConfusion h

theorem leavesSlot_andThen {verdict : Verdict} {c : Config σ}
    (honward : c.cursor.Onward o.config.cursor)
    (honward' : LeadsOn o.config.cursor (next o.config))
    (ho : o.verdict = verdict → o.config.cursor.offset = c.cursor.offset → o.config.slot = c.slot)
    (hnext : o.verdict = .matched → o.config.cursor.offset = c.cursor.offset →
      LeavesSlot verdict c (next o.config)) : LeavesSlot verdict c (o.andThen next) := by
  obtain ⟨own, config, records⟩ := o
  cases own with
  | matched =>
      refine Ends.map (Ends.of_ok fun o' ho' hverdict hback => ?_)
      -- The next step leads onward, so if it ends where the whole began, the first one ended there.
      have hstayed := honward.offset_eq_of_return (honward'.of_eq_ok ho') hback
      have hkept := (hnext rfl hstayed).of_eq_ok ho'
      exact hkept hverdict hback
  | mismatched => exact ho
  | failed e => exact ho

end Outcome

namespace Environment

variable (env : Environment σ)

/-- An error is no match, and nothing changes on the way to it. -/
theorem ends_raiseFor (kind : ErrorKind) (message : String) (g : Grammar σ) (start : Position)
    (c : Config σ) : Ends True (fun o => o.verdict ≠ .matched ∧ o.config = c)
      (env.raiseFor kind message g start c) :=
  Ends.bind_of_eq fun _ _ => Ends.bind_of_eq fun _ _ => ⟨Verdict.noConfusion, rfl⟩

theorem moves_raiseUndefined (c : Config σ) : Moves c.cursor (env.raiseUndefined c) :=
  Ends.bind_of_eq fun _ _ h => Verdict.noConfusion h

theorem leavesSlot_raiseUndefined (verdict : Verdict) (c : Config σ) :
    LeavesSlot verdict c (env.raiseUndefined c) :=
  Ends.bind_of_eq fun _ _ _ _ => rfl

theorem leadsOn_act (g : Grammar σ) (kind : Kind) (action : Action σ) (args : Arguments)
    (start : Position) (c : Config σ) :
    LeadsOn c.cursor (env.act g kind action args start c) := by
  unfold act
  dsimp only
  split
  · exact Cursor.Onward.refl _
  · exact Ends.bind_of_eq fun _ _ => Ends.bind_of_eq fun _ _ => Cursor.Onward.refl _

theorem moves_orElse {c : Cursor} {o : Outcome σ} {next : Step σ}
    (ho : o.verdict = .matched → o.config.cursor.offset ≠ c.offset)
    (hnext : Moves o.config.cursor (next o.config)) (message : String) (tried : Grammar σ) :
    Moves c (env.orElse message tried c.position o next) := by
  obtain ⟨verdict, config, records⟩ := o
  cases verdict with
  | matched => exact ho
  | mismatched =>
      unfold orElse
      dsimp only
      split
      · refine Ends.map (Ends.imp (env.ends_raiseFor _ _ _ _ config) id fun o' ho' h => ?_)
        exact absurd h ho'.1
      · have hstayed : config.cursor.offset = c.offset := not_not.1 ‹_›
        refine Ends.map (Ends.imp hnext id fun o' ho' hmatched hback => ?_)
        exact ho' hmatched (hback.trans hstayed.symm)
  | failed e => exact ho

theorem leavesSlot_orElse {verdict : Verdict} {c : Config σ} {o : Outcome σ} {next : Step σ}
    (ho : o.verdict = verdict → o.config.cursor.offset = c.cursor.offset → o.config.slot = c.slot)
    (hnext : o.verdict = .mismatched → o.config.cursor.offset = c.cursor.offset →
      LeavesSlot verdict c (next o.config)) (message : String) (tried : Grammar σ) :
    LeavesSlot verdict c (env.orElse message tried c.cursor.position o next) := by
  obtain ⟨own, config, records⟩ := o
  cases own with
  | matched => exact ho
  | mismatched =>
      unfold orElse
      dsimp only
      split
      · rename_i hmoved
        refine Ends.map (Ends.imp (env.ends_raiseFor _ _ _ _ config) id fun o' ho' _ hback => ?_)
        refine absurd ?_ hmoved
        change o'.config.cursor.offset = c.cursor.offset at hback
        rwa [ho'.2] at hback
      · exact Ends.map (hnext rfl (not_not.1 ‹_›))
  | failed e => exact ho

section Iterate

variable {step : Step σ} (horderly : ∀ c, Orderly c.cursor (step c)) (blamed : Grammar σ)

include horderly

theorem moves_iterate_one (hstep : ∀ c : Config σ, Moves c.cursor (step c)) (n : Nat)
    (c : Config σ) : Moves c.cursor (env.iterate blamed step n 1 c) := by
  cases n with
  | zero => trivial
  | succ n =>
      rw [iterate]
      refine Ends.bind_of_eq fun o ho => ?_
      have honward : c.cursor.Onward o.config.cursor := (horderly c).of_eq_ok ho
      have hmoved := (hstep c).of_eq_ok ho
      split
      · rename_i hmatched
        rw [if_neg (hmoved hmatched)]
        refine Ends.map (Ends.of_ok fun o' ho' _ hback => hmoved hmatched ?_)
        have honward' := (env.orderly_iterate horderly blamed n 0 o.config).of_eq_ok ho'
        exact honward.offset_eq_of_return honward' hback
      · refine env.moves_orElse hmoved ?_ _ _
        exact fun h => Verdict.noConfusion h

/-- After an iteration that moved the cursor the whole cannot end in place, so only the end of the
first iteration matters. -/
theorem leavesSlot_iterate {verdict : Verdict} {owed : Nat}
    (hstep : ∀ c, LeavesSlot verdict c (step c))
    (hmatched : ∀ c, ((if owed ≤ 1 then .matched else .mismatched) = verdict →
      LeavesSlot .matched c (step c)))
    (hmismatched : ∀ c, ((if owed = 0 then .matched else .mismatched) = verdict →
      LeavesSlot .mismatched c (step c)))
    (n : Nat) (c : Config σ) : LeavesSlot verdict c (env.iterate blamed step n owed c) := by
  cases n with
  | zero => trivial
  | succ n =>
      rw [iterate]
      refine Ends.bind_of_eq fun o ho => ?_
      have honward : c.cursor.Onward o.config.cursor := (horderly c).of_eq_ok ho
      split
      · rename_i hverdict
        split
        · intro hends hstayed
          have hkept := (hmatched c hends).of_eq_ok ho
          exact hkept hverdict hstayed
        · rename_i hmoved
          refine Ends.map (Ends.of_ok fun o' ho' _ hback => absurd ?_ hmoved)
          have honward' := (env.orderly_iterate horderly blamed n (owed - 1) o.config).of_eq_ok ho'
          exact honward.offset_eq_of_return honward' hback
      · refine env.leavesSlot_orElse ((hstep c).of_eq_ok ho) (fun hverdict hstayed => ?_) _ _
        by_cases howed : owed = 0
        · rw [if_pos howed] at hmismatched ⊢
          intro hends _
          have hkept := (hmismatched c hends).of_eq_ok ho
          exact hkept hverdict hstayed
        · rw [if_neg howed] at hmismatched ⊢
          intro hends _
          have hkept := (hmismatched c hends).of_eq_ok ho
          exact hkept hverdict hstayed

end Iterate

section Parts

variable {run : Grammar σ → Step σ}

theorem moves_runInto {step : Step σ} (hstep : ∀ c : Config σ, Moves c.cursor (step c))
    (kind : Kind) (c : Config σ) :
    Ends True (fun p => p.2.verdict = .matched → p.2.config.cursor.offset ≠ c.cursor.offset)
      (runInto step kind c) :=
  Ends.bind (hstep { c with slot := some kind.default }) fun _ ho => ho

theorem moves_runAll (horderly : ∀ g c, Orderly c.cursor (run g c))
    {parts : List (Kind × Grammar σ)} {part : Kind × Grammar σ} (hmem : part ∈ parts)
    (hpart : ∀ c : Config σ, Moves c.cursor (run part.2 c)) (c : Config σ) :
    Ends True (fun p => p.2.verdict = .matched → p.2.config.cursor.offset ≠ c.cursor.offset)
      (runAll run parts c) := by
  induction parts generalizing c with
  | nil => exact absurd hmem List.not_mem_nil
  | cons other parts ih =>
      obtain ⟨kind, g⟩ := other
      rw [runAll]
      refine Ends.bind_of_eq fun p hp => ?_
      have honward : c.cursor.Onward p.2.config.cursor :=
        (orderly_runInto (horderly g) kind c).of_eq_ok hp
      obtain ⟨v, verdict, config, records⟩ := p
      cases verdict with
      | matched =>
          refine Ends.bind_of_eq fun q hq => ?_
          have honward' := (orderly_runAll horderly parts config).of_eq_ok hq
          intro hmatched hback
          have hstayed := honward.offset_eq_of_return honward' hback
          rcases List.mem_cons.1 hmem with rfl | hmem
          · exact (moves_runInto hpart kind c).of_eq_ok hp rfl hstayed
          · exact (ih hmem config).of_eq_ok hq hmatched (hback.trans hstayed.symm)
      | mismatched => exact fun h => Verdict.noConfusion h
      | failed e => exact fun h => Verdict.noConfusion h

theorem moves_runAny {parts : List (Kind × Grammar σ)}
    (hparts : ∀ part ∈ parts, ∀ c : Config σ, Moves c.cursor (run part.2 c)) {start : Position}
    (i : Nat) {c : Config σ} (hstart : c.cursor.offset = start.offset) :
    Ends True (fun p => p.2.verdict = .matched → p.2.config.cursor.offset ≠ c.cursor.offset)
      (env.runAny run start i parts c) := by
  induction parts generalizing i c with
  | nil => exact fun h => Verdict.noConfusion h
  | cons part parts ih =>
      rw [List.forall_mem_cons] at hparts
      obtain ⟨hpart, hparts⟩ := hparts
      obtain ⟨kind, g⟩ := part
      rw [runAny]
      refine Ends.bind (moves_runInto hpart kind c) fun p hp => ?_
      obtain ⟨v, verdict, config, records⟩ := p
      cases verdict with
      | matched => exact hp
      | mismatched =>
          dsimp only
          split
          · refine Ends.bind (env.ends_raiseFor _ _ _ _ config) fun o ho hmatched => ?_
            exact absurd hmatched ho.1
          · have hstayed : config.cursor.offset = start.offset := not_not.1 ‹_›
            refine Ends.bind (ih hparts (i + 1) hstayed) fun q hq hmatched hback => ?_
            exact hq hmatched (hback.trans (hstart.trans hstayed.symm))
      | failed e => exact hp

/-- The value of a part goes into a fresh slot. -/
theorem slot_runInto (step : Step σ) (kind : Kind) (c : Config σ) :
    Ends True (fun p => p.2.config.slot = c.slot) (runInto step kind c) :=
  Ends.bind_of_eq fun _ _ => rfl

theorem slot_runAll (run : Grammar σ → Step σ) (parts : List (Kind × Grammar σ)) (c : Config σ) :
    Ends True (fun p => p.2.config.slot = c.slot) (runAll run parts c) := by
  induction parts generalizing c with
  | nil => exact rfl
  | cons part parts ih =>
      obtain ⟨kind, g⟩ := part
      rw [runAll]
      refine Ends.bind (slot_runInto (run g) kind c) fun p hp => ?_
      obtain ⟨v, verdict, config, records⟩ := p
      cases verdict with
      | matched => exact Ends.bind (ih config) fun q hq => hq.trans hp
      | mismatched => exact hp
      | failed e => exact hp

theorem slot_runAny (run : Grammar σ → Step σ) (start : Position) (i : Nat)
    (parts : List (Kind × Grammar σ)) (c : Config σ) :
    Ends True (fun p => p.2.config.slot = c.slot) (env.runAny run start i parts c) := by
  induction parts generalizing i c with
  | nil => exact rfl
  | cons part parts ih =>
      obtain ⟨kind, g⟩ := part
      rw [runAny]
      refine Ends.bind (slot_runInto (run g) kind c) fun p hp => ?_
      obtain ⟨v, verdict, config, records⟩ := p
      cases verdict with
      | matched => exact hp
      | mismatched =>
          dsimp only
          split
          · refine Ends.bind (env.ends_raiseFor _ _ _ _ config) fun o ho => ?_
            exact (congrArg Config.slot ho.2).trans hp
          · exact Ends.bind (ih (i + 1) config) fun q hq => hq.trans hp
      | failed e => exact hp

/-- An action is called after a match only, and its call is no mismatch. -/
theorem leavesSlot_act {c : Config σ} {o : Outcome σ} (ho : o.config.slot = c.slot)
    (g : Grammar σ) (kind : Kind) (action : Action σ) (args : Arguments) (start : Position) :
    LeavesSlot .mismatched c (o.andThen (env.act g kind action args start)) := by
  obtain ⟨verdict, config, records⟩ := o
  cases verdict with
  | matched =>
      have hact := env.neverMismatches_act g kind action args start config
      exact Ends.map (Ends.imp hact id fun o' ho' hmismatched => absurd hmismatched ho')
  | mismatched => exact fun _ _ => ho
  | failed e => exact fun h => Verdict.noConfusion h

end Parts

section Speculation

variable {step : Step σ} (horderly : ∀ c, Orderly c.cursor (step c))

include horderly

theorem moves_speculation (hstep : ∀ c : Config σ, Moves c.cursor (step c)) (g : Grammar σ)
    (restores : Bool) (c : Config σ) :
    Moves c.cursor (step { c with cursor := c.cursor.checkpoint } >>= env.settle g restores c) := by
  refine Ends.bind_of_eq fun o ho => ?_
  have honward := (horderly { c with cursor := c.cursor.checkpoint }).of_eq_ok ho
  have hmoved := (hstep { c with cursor := c.cursor.checkpoint }).of_eq_ok ho
  by_cases hmatched : o.verdict = .matched
  · rw [env.settle_of_matched honward hmatched]
    exact hmoved
  · rw [env.settle_of_not_matched honward hmatched]
    exact Ends.map (Ends.imp (env.ends_backtrackNote True g c o) id fun _ _ h => absurd h hmatched)

/-- What is not a match is taken back from the slot as well. -/
theorem leavesSlot_speculation {verdict : Verdict}
    (hstep : verdict = .matched → ∀ c, LeavesSlot .matched c (step c)) (g : Grammar σ)
    (restores : Bool) (c : Config σ) :
    LeavesSlot verdict c
      (step { c with cursor := c.cursor.checkpoint } >>= env.settle g restores c) := by
  refine Ends.bind_of_eq fun o ho => ?_
  have honward := (horderly { c with cursor := c.cursor.checkpoint }).of_eq_ok ho
  by_cases hmatched : o.verdict = .matched
  · rw [env.settle_of_matched honward hmatched]
    intro hverdict hstayed
    have hkept := (hstep (hverdict.symm.trans hmatched)
      { c with cursor := c.cursor.checkpoint }).of_eq_ok ho
    exact hkept hmatched hstayed
  · rw [env.settle_of_not_matched honward hmatched]
    exact Ends.map (Ends.imp (env.ends_backtrackNote True g c o) id fun _ _ _ _ => rfl)

end Speculation

section Except

variable {c : Config σ} {o : Outcome σ} (h : c.cursor.checkpoint.Onward o.config.cursor)

include h

theorem moves_settleExcept
    (ho : o.verdict = .matched → o.config.cursor.offset ≠ c.cursor.offset) (mayAct : Bool)
    (forbidden : Value) : Moves c.cursor (env.settleExcept mayAct forbidden c o) := by
  by_cases hmatched : o.verdict = .matched
  · by_cases hslot : o.config.slot = some forbidden
    · rw [env.settleExcept_of_forbidden h hmatched hslot]
      exact fun h => Verdict.noConfusion h
    · rw [env.settleExcept_of_not_forbidden h hmatched hslot]
      exact ho
  · rw [env.settleExcept_of_not_matched h hmatched]
    exact ho

theorem leavesSlot_settleExcept (mayAct : Bool) (forbidden : Value) :
    LeavesSlot .mismatched c (env.settleExcept mayAct forbidden c o) := by
  by_cases hmatched : o.verdict = .matched
  · by_cases hslot : o.config.slot = some forbidden
    · rw [env.settleExcept_of_forbidden h hmatched hslot]
      exact fun _ _ => rfl
    · rw [env.settleExcept_of_not_forbidden h hmatched hslot]
      intro hmismatched
      cases hmatched.symm.trans hmismatched
  · rw [env.settleExcept_of_not_matched h hmatched]
    exact fun _ _ => rfl

end Except

variable {env} {d : SlotDiscipline}

/-- The matches of a moving grammar move the cursor. -/
theorem moves_run (hd : d.Consistent env.store) (n : Nat) {g : Grammar σ} (hg : d.Moving g)
    (c : Config σ) : Moves c.cursor (env.run n g c) := by
  -- The bodies of rules are not smaller than the rules, so the induction is on the bound.
  induction n generalizing g c with
  | zero => trivial
  | succ n ih =>
      cases hg with
      | @accept p hp =>
          rw [run, runLevel]
          split
          · exact fun _ => Config.offset_takeSymbol_ne hp ‹_›
          · exact fun h => Verdict.noConfusion h
      | @expect p hp =>
          rw [run, runLevel]
          split
          · exact fun _ => Config.offset_takeSymbol_ne hp ‹_›
          · exact Ends.imp (env.ends_raiseFor _ _ _ _ c) id fun _ ho h => absurd h ho.1
      | @literal text htext =>
          rw [run, runLevel]
          split
          · exact fun _ => Config.offset_take_ne htext (List.isPrefixOf_iff_prefix.1 ‹_›)
          · exact fun h => Verdict.noConfusion h
      | fail => exact fun h => Verdict.noConfusion h
      | @sequenceFirst a ha b =>
          rw [run, runLevel]
          refine Ends.bind_of_eq fun o ho => ?_
          have honward : c.cursor.Onward o.config.cursor := (env.orderly_run n a c).of_eq_ok ho
          exact o.moves_andThen_of_moved honward ((ih ha c).of_eq_ok ho)
            (env.orderly_run n b o.config).leadsOn
      | @sequenceSecond a b hb =>
          rw [run, runLevel]
          refine Ends.bind_of_eq fun o ho => ?_
          have honward : c.cursor.Onward o.config.cursor := (env.orderly_run n a c).of_eq_ok ho
          exact o.moves_andThen honward (env.orderly_run n b o.config).leadsOn (ih hb o.config)
      | @choice a b ha hb =>
          rw [run, runLevel]
          refine Ends.bind (ih ha c) fun o ho => ?_
          exact env.moves_orElse ho (ih hb o.config) _ _
      | @manyOne item hitem =>
          rw [run, runLevel]
          exact env.moves_iterate_one (env.orderly_run n item) item (ih hitem) n c
      | @sepBy item hitem separator =>
          rw [run, runLevel]
          refine Ends.bind_of_eq fun o ho => ?_
          have honward : c.cursor.Onward o.config.cursor := (env.orderly_run n item c).of_eq_ok ho
          refine o.moves_andThen_of_moved honward ((ih hitem c).of_eq_ok ho) ?_
          have hiterate := env.orderly_iterate (env.orderly_separated n item separator)
          exact (hiterate _ n 0 o.config).leadsOn
      | @discard item hitem =>
          rw [run, runLevel]
          exact Ends.bind (ih hitem _) fun o ho => ho
      | @except kind item hitem forbidden =>
          rw [run, runLevel]
          refine Ends.bind_of_eq fun o ho => ?_
          have honward := (env.orderly_run n item _).of_eq_ok ho
          have hmoved := (ih hitem _).of_eq_ok ho
          exact env.moves_settleExcept honward hmoved _ forbidden
      | @attempt item hitem =>
          rw [run, runLevel]
          exact env.moves_speculation (env.orderly_run n item) (ih hitem) item _ c
      | @attemptPure item hitem =>
          rw [run, runLevel]
          exact env.moves_speculation (env.orderly_run n item) (ih hitem) item _ c
      | @strict message item hitem =>
          rw [run, runLevel]
          refine Ends.bind (ih hitem c) fun o ho => ?_
          split
          · exact Ends.map (Ends.imp (env.ends_raiseFor _ _ _ _ o.config) id
              fun _ ho' h => absurd h ho'.1)
          · exact ho
      | @trace label item hitem =>
          rw [run, runLevel]
          refine Ends.bind (ih hitem c) fun o ho => ?_
          exact Ends.bind_of_eq fun _ _ => ho
      | @token item hitem =>
          rw [run, runLevel]
          refine Ends.bind_of_eq fun o ho => ?_
          have honward : c.cursor.Onward o.config.cursor := (env.orderly_run n item c).of_eq_ok ho
          exact o.moves_andThen_of_moved honward ((ih hitem c).of_eq_ok ho)
            (o.config.cursor.onward_skipWhile Unicode.isBlank)
      | shared hitem => exact ih hitem c
      | reference name hitem => exact ih hitem c
      | define name hitem => exact ih hitem c
      | rename name rank hitem => exact ih hitem c
      | @all kind action parts part hmem hpart =>
          rw [run, runLevel]
          refine Ends.bind_of_eq fun p hp => ?_
          have honward := (orderly_runAll (env.orderly_run n) parts c).of_eq_ok hp
          have hmoved := (moves_runAll (env.orderly_run n) hmem (ih hpart) c).of_eq_ok hp
          exact p.2.moves_andThen_of_moved honward hmoved (env.leadsOn_act _ kind action _ _ _)
      | @any kind action parts hparts =>
          rw [run, runLevel]
          refine Ends.bind_of_eq fun p hp => ?_
          have honward := (env.orderly_runAny (env.orderly_run n) parts 0 (.refl _)).of_eq_ok hp
          have hmoved := (env.moves_runAny (fun part h => ih (hparts part h)) 0 rfl).of_eq_ok hp
          split
          · have hact := env.leadsOn_act (.any kind action parts) kind action
            exact Outcome.moves_andThen_of_moved honward hmoved (hact _ _ _)
          · exact hmoved
      | @handle slot hslot =>
          rw [run, runLevel]
          split
          · exact ih (hd.moving (.slot slot) _ ‹_› hslot) c
          · exact env.moves_raiseUndefined c
      | @fixed hold name rule hrule =>
          rw [run, runLevel]
          split
          · exact ih (hd.moving (.fixed rule) _ ‹_› hrule) c
          · exact env.moves_raiseUndefined c

/-- Where a grammar that keeps the slot with a verdict ends with it in place, the slot is what it
was. -/
theorem leavesSlot_run (hd : d.Consistent env.store) (n : Nat) {verdict : Verdict} {g : Grammar σ}
    (hg : d.KeepsSlot verdict g) (c : Config σ) : LeavesSlot verdict c (env.run n g c) := by
  induction n generalizing verdict g c with
  | zero => trivial
  | succ n ih =>
      have honward {g : Grammar σ} {c : Config σ} {o : Outcome σ} (ho : env.run n g c = .ok o) :
          c.cursor.Onward o.config.cursor := (env.orderly_run n g c).of_eq_ok ho
      cases hg with
      | infallible hg =>
          exact (neverMismatches_run hd.toConsistent (n + 1) hg c).leavesSlot c
      | moving hg => exact (moves_run hd (n + 1) hg c).leavesSlot
      | recognizer hg =>
          have hcopies : Copies c (env.run (n + 1) g c) :=
            copies_run (fun _ _ hrule => hrule.elim) (n + 1) hg c
          exact hcopies.leavesSlot (env.orderly_run (n + 1) g c)
      | @sequence _ a b ha hmatched hb =>
          rw [run, runLevel]
          refine Ends.bind_of_eq fun o ho => ?_
          refine o.leavesSlot_andThen (honward ho) (env.orderly_run n b o.config).leadsOn
            ((ih ha c).of_eq_ok ho) fun hverdict hstayed => ?_
          exact (ih hb o.config).trans hstayed ((ih hmatched c).of_eq_ok ho hverdict hstayed)
      | @sequenceInfallible a b ha hb =>
          rw [run, runLevel]
          refine Ends.bind_of_eq fun o ho => ?_
          refine o.leavesSlot_andThen (honward ho) (env.orderly_run n b o.config).leadsOn
            ((ih ha c).of_eq_ok ho) fun _ _ => ?_
          exact (neverMismatches_run hd.toConsistent n hb o.config).leavesSlot c
      | @choice _ a b ha hmismatched hb =>
          rw [run, runLevel]
          refine Ends.bind_of_eq fun o ho => ?_
          refine env.leavesSlot_orElse ((ih ha c).of_eq_ok ho) (fun hverdict hstayed => ?_) _ _
          exact (ih hb o.config).trans hstayed ((ih hmismatched c).of_eq_ok ho hverdict hstayed)
      | @repetition _ atLeast item hitem hmatched hmismatched =>
          rw [run, runLevel]
          exact env.leavesSlot_iterate (env.orderly_run n item) item (ih hitem)
            (fun c _ => ih hmatched c) (fun c _ => ih hmismatched c) n c
      | @manyOne _ item hitem =>
          rw [run, runLevel]
          refine env.leavesSlot_iterate (env.orderly_run n item) item (ih hitem)
            (fun c hends => ?_) (fun c hends => ?_) n c
          · obtain rfl : .matched = verdict := hends
            exact ih hitem c
          · obtain rfl : .mismatched = verdict := hends
            exact ih hitem c
      | @option _ item hitem hmismatched =>
          rw [run, runLevel]
          refine Ends.bind_of_eq fun o ho => ?_
          have hkept := (ih hmismatched c).of_eq_ok ho
          refine env.leavesSlot_orElse ((ih hitem c).of_eq_ok ho) (fun hverdict hstayed => ?_) _ _
          exact fun _ _ => hkept hverdict hstayed
      | @sepBy _ item hitem hmatched hmismatched separator =>
          rw [run, runLevel]
          have hstep {verdict : Verdict} (hitem : d.KeepsSlot verdict item) (c : Config σ) :
              LeavesSlot verdict c (separated (env.run n) item separator c) := by
            refine Ends.bind_of_eq fun o ho => ?_
            have hseparator := honward ho
            refine Outcome.leavesSlot_andThen (o := o.withSlot c.slot) hseparator
              (env.orderly_run n item _).leadsOn (fun _ _ => rfl) fun _ hstayed => ?_
            exact (ih hitem (o.withSlot c.slot).config).trans hstayed rfl
          refine Ends.bind_of_eq fun o ho => ?_
          have hiterate := env.orderly_iterate (env.orderly_separated n item separator)
          refine o.leavesSlot_andThen (honward ho) (hiterate _ n 0 o.config).leadsOn
            ((ih hitem c).of_eq_ok ho) fun hverdict hstayed => ?_
          refine LeavesSlot.trans ?_ hstayed ((ih hmatched c).of_eq_ok ho hverdict hstayed)
          exact env.leavesSlot_iterate (env.orderly_separated n item separator) _ (hstep hitem)
            (fun c _ => hstep hmatched c) (fun c _ => hstep hmismatched c) n o.config
      | @sepByMismatched item hitem separator =>
          rw [run, runLevel]
          refine Ends.bind_of_eq fun o ho => ?_
          have hiterate := env.orderly_iterate (env.orderly_separated n item separator)
          refine o.leavesSlot_andThen (honward ho) (hiterate _ n 0 o.config).leadsOn
            ((ih hitem c).of_eq_ok ho) fun _ _ => ?_
          exact (env.neverMismatches_iterate_zero _ n o.config).leavesSlot c
      | discard item =>
          rw [run, runLevel]
          exact Ends.bind_of_eq fun _ _ _ _ => rfl
      | except kind item forbidden =>
          rw [run, runLevel]
          refine Ends.bind_of_eq fun o ho => ?_
          exact env.leavesSlot_settleExcept (honward ho) _ forbidden
      | attempt item =>
          rw [run, runLevel]
          exact env.leavesSlot_speculation (env.orderly_run n item) Verdict.noConfusion item _ c
      | attemptPure item =>
          rw [run, runLevel]
          exact env.leavesSlot_speculation (env.orderly_run n item) Verdict.noConfusion item _ c
      | @attemptMatched item hitem =>
          rw [run, runLevel]
          exact env.leavesSlot_speculation (env.orderly_run n item) (fun _ => ih hitem) item _ c
      | @attemptPureMatched item hitem =>
          rw [run, runLevel]
          exact env.leavesSlot_speculation (env.orderly_run n item) (fun _ => ih hitem) item _ c
      | @strict message item hitem =>
          rw [run, runLevel]
          refine Ends.bind (ih hitem c) fun o ho => ?_
          split
          · exact Ends.map (Ends.imp (env.ends_raiseFor _ _ _ _ o.config) id
              fun _ ho' h => absurd h ho'.1)
          · exact ho
      | @trace _ label item hitem =>
          rw [run, runLevel]
          refine Ends.bind (ih hitem c) fun o ho => ?_
          exact Ends.bind_of_eq fun _ _ => ho
      | @token _ item hitem =>
          rw [run, runLevel]
          refine Ends.bind_of_eq fun o ho => ?_
          have hkept := (ih hitem c).of_eq_ok ho
          refine o.leavesSlot_andThen (honward ho)
            (o.config.cursor.onward_skipWhile Unicode.isBlank) hkept fun hverdict hstayed => ?_
          exact fun hends _ => hkept (hverdict.trans hends) hstayed
      | shared hitem => exact ih hitem c
      | reference name hitem => exact ih hitem c
      | define name hitem => exact ih hitem c
      | rename name rank hitem => exact ih hitem c
      | all kind action parts =>
          rw [run, runLevel]
          refine Ends.bind (slot_runAll (env.run n) parts c) fun p hp => ?_
          exact env.leavesSlot_act hp _ kind action _ _
      | any kind action parts =>
          rw [run, runLevel]
          refine Ends.bind (env.slot_runAny (env.run n) _ 0 parts c) fun p hp => ?_
          split
          · exact env.leavesSlot_act hp _ kind action _ _
          · exact fun _ _ => hp
      | @handle _ slot hslot =>
          rw [run, runLevel]
          split
          · exact ih (hd.keeping verdict (.slot slot) _ ‹_› hslot) c
          · exact env.leavesSlot_raiseUndefined verdict c
      | @fixed _ hold name rule hrule =>
          rw [run, runLevel]
          split
          · exact ih (hd.keeping verdict (.fixed rule) _ ‹_› hrule) c
          · exact env.leavesSlot_raiseUndefined verdict c

end Environment

end ParserAlgebra
