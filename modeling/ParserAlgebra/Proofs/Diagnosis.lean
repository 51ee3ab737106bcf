import Mathlib.Data.List.DropRight
import ParserAlgebra.Parse
import ParserAlgebra.Proofs.Nesting
import ParserAlgebra.Proofs.Upkeep

/-!
# Where diagnostics point

Errors come out of many steps, some from where a rule began, some from where the cursor stopped, and
some are passed on through speculations that go back afterwards. All of them are raised the same
way: a rule began at a place onward from the beginning of the run, the cursor moved on from there,
and the error reports the place where the cursor is, or, if an action failed, the one where the rule
began. From a genuine place that determines the span, the row, the column and the symbol found.
-/

namespace ParserAlgebra

namespace Text

/-- The row of the symbol behind a text, counted from one. -/
def rowBehind (before : List Char) : Nat :=
  before.count '\n' + 1

/-- The column of the symbol behind a text, counted in symbols from one. -/
def columnBehind (before : List Char) : Nat :=
  (before.rtakeWhile (· ≠ '\n')).length + 1

example : rowBehind "é\nßa".toList = 2 ∧ columnBehind "é\nßa".toList = 3 := by decide

end Text

namespace Position

theorem row_pastAll (cs : List Char) : (start.pastAll cs).row = Text.rowBehind cs := by
  induction cs using List.reverseRecOn with
  | nil => rfl
  | append_singleton cs c ih =>
      rw [pastAll_append, pastAll_cons, pastAll_nil, Text.rowBehind, List.count_append]
      by_cases hc : c = '\n'
      · subst hc
        change (start.pastAll cs).row + 1 = _
        rw [ih, Text.rowBehind]
        rfl
      · have hcount : List.count '\n' [c] = 0 := List.count_eq_zero.2 (by simp [Ne.symm hc])
        rw [past, if_neg hc, hcount]
        exact ih

theorem column_pastAll (cs : List Char) :
    (start.pastAll cs).column = Text.columnBehind cs := by
  induction cs using List.reverseRecOn with
  | nil => rfl
  | append_singleton cs c ih =>
      rw [pastAll_append, pastAll_cons, pastAll_nil, Text.columnBehind, past]
      by_cases hc : c = '\n'
      · rw [if_pos hc, List.rtakeWhile_concat_neg _ _ _ (by simp [hc])]
        rfl
      · rw [if_neg hc, List.rtakeWhile_concat_pos _ _ _ (by simp [hc]), List.length_append]
        exact congrArg (· + 1) ih

end Position

namespace ParseError

/-- The offset that an error reports. -/
def offset (e : ParseError) : Nat :=
  if e.kind = .action then e.span.start else e.span.stop

/-- An error that is located coherently in an input, not before an offset: its span lies between
symbol boundaries, and the row, the column and the symbol found are those of the offset reported. -/
structure LocatedIn (input : List Char) (first : Nat) (e : ParseError) : Prop where
  first_le_start : first ≤ e.span.start
  start_le_stop : e.span.start ≤ e.span.stop
  stop_le_length : e.span.stop ≤ Text.byteLength input
  start_boundary : ∃ before ahead, input = before ++ ahead ∧ Text.byteLength before = e.span.start
  stop_boundary : ∃ before ahead, input = before ++ ahead ∧ Text.byteLength before = e.span.stop
  reported : ∃ before ahead, input = before ++ ahead ∧ Text.byteLength before = e.offset ∧
    e.row = Text.rowBehind before ∧ e.column = Text.columnBehind before ∧ e.found = ahead.head?
  found_eq_none_iff : e.found = none ↔ e.offset = Text.byteLength input

/-- An error that is raised in an input by a rule that began at a place or onward from it. -/
def RaisedFrom (input : List Char) (first : Place) (e : ParseError) : Prop :=
  ∃ (start : Place) (c : Cursor), c.input = input ∧ first.Onward start ∧ start.Onward c.place ∧
    locate e.kind e.message e.expectation start.position
      (if e.kind = .action then start.position else c.position) c = .ok e

theorem RaisedFrom.onward {input : List Char} {p q : Place} {e : ParseError}
    (h : e.RaisedFrom input q) (honward : p.Onward q) : e.RaisedFrom input p := by
  obtain ⟨start, c, hinput, hstart, hc, he⟩ := h
  exact ⟨start, c, hinput, honward.trans hstart, hc, he⟩

/-- An error that reports a genuine place, with that place being where the rule began or where the
cursor was. -/
theorem RaisedFrom.locatedIn {input : List Char} {first : Place} {e : ParseError}
    (h : e.RaisedFrom input first) (hfirst : first.IsGenuine input) :
    e.LocatedIn input first.position.offset := by
  obtain ⟨start, c, rfl, hstart, honward, he⟩ := h
  have hstart' : start.IsGenuine c.input := hfirst.onward hstart
  have hstop : c.place.IsGenuine c.input := hstart'.onward honward
  -- The place reported is one of the two, so it is genuine as well.
  obtain ⟨reported, hreported, hposition, hoffset⟩ : ∃ reported : Place,
      reported.IsGenuine c.input ∧
      (if e.kind = .action then start.position else c.position) = reported.position ∧
      (if e.kind = .action then start.position.offset else c.offset) =
        reported.position.offset := by
    by_cases hkind : e.kind = .action
    · exact ⟨start, hstart', if_pos hkind, if_pos hkind⟩
    · exact ⟨c.place, hstop, if_neg hkind, if_neg hkind⟩
  rw [hposition] at he
  obtain ⟨found, excerpt, hfound, -, he⟩ := eq_of_locate he
  have hspan : e.span = ⟨start.position.offset, c.offset⟩ := by rw [he]; rfl
  have heoffset : e.offset = reported.position.offset := by rw [offset, hspan]; exact hoffset
  have hhead : e.found = reported.ahead.head? := by
    rw [Cursor.symbolAt, hreported.1] at hfound
    cases hfound
    rw [he]
  have hrow : e.row = reported.position.row := by rw [he]
  have hcolumn : e.column = reported.position.column := by rw [he]
  obtain ⟨before, hinput, hbefore⟩ := hreported.exists_before
  have hlength : Text.byteLength before = e.offset := by
    rw [heoffset, hbefore, Position.offset_pastAll]
    exact (Nat.zero_add _).symm
  obtain ⟨fromStart, hstartInput, hstartOffset⟩ := hstart'.exists_boundary
  obtain ⟨toStop, hstopInput, hstopOffset⟩ := hstop.exists_boundary
  refine ⟨?_, ?_, ?_, ⟨fromStart, _, hstartInput, ?_⟩, ⟨toStop, _, hstopInput, ?_⟩,
    ⟨before, _, hinput, hlength, ?_, ?_, hhead⟩, ?_⟩
  · rw [hspan]
    exact hstart.offset_le
  · rw [hspan]
    exact honward.offset_le
  · have htotal := congrArg Text.byteLength hstopInput
    rw [Text.byteLength_append, hstopOffset] at htotal
    rw [hspan, htotal]
    exact Nat.le_add_right _ _
  · rw [hstartOffset, hspan]
  · rw [hstopOffset, hspan]
    rfl
  · rw [hrow, hbefore, Position.row_pastAll]
  · rw [hcolumn, hbefore, Position.column_pastAll]
  · have htotal := congrArg Text.byteLength hinput
    rw [Text.byteLength_append, hlength] at htotal
    rw [hhead, List.head?_eq_none_iff, ← Text.byteLength_eq_zero_iff, htotal]
    omega

end ParseError

variable {σ : Type}

/-- An outcome whose error, if it is one, was raised behind a cursor. -/
def Outcome.ErrorFrom (c : Cursor) (o : Outcome σ) : Prop :=
  ∀ e, o.verdict = .failed e → e.RaisedFrom c.input c.place

/-- A run that, if it ends with an error, raised it behind a cursor. -/
abbrev Reports (c : Cursor) (r : Except Stop (Outcome σ)) : Prop :=
  Ends True (Outcome.ErrorFrom c) r

namespace Outcome

variable {c d : Cursor} {o : Outcome σ}

theorem ErrorFrom.trans (h : o.ErrorFrom d) (honward : c.Onward d) : o.ErrorFrom c := by
  intro e he
  have hraised := h e he
  rw [honward.input] at hraised
  exact hraised.onward honward.place

theorem errorFrom_of_ne (h : ∀ e, o.verdict ≠ .failed e) : o.ErrorFrom c :=
  fun e he => absurd he (h e)

theorem reports_andThen {next : Step σ} (ho : o.ErrorFrom c)
    (hnext : Reports c (next o.config)) : Reports c (o.andThen next) := by
  obtain ⟨verdict, config, records⟩ := o
  cases verdict with
  | matched => exact Ends.map hnext
  | mismatched => exact ho
  | failed e => exact ho

end Outcome

namespace Reports

variable {c d : Cursor} {r : Except Stop (Outcome σ)}

theorem trans (h : Reports d r) (honward : c.Onward d) : Reports c r :=
  Ends.imp h id fun _ ho => ho.trans honward

end Reports

namespace Environment

variable (env : Environment σ) {c₀ : Cursor} {c : Config σ} {o : Outcome σ}

/-- The one way in which errors come about. -/
theorem reports_raise (honward : c₀.Onward c.cursor) (kind : ErrorKind) (message : String)
    (expectation : Expectation) {reported : Position}
    (hreported : reported = if kind = .action then c₀.position else c.cursor.position) :
    Reports c₀ (env.raise kind message expectation c₀.position reported c) := by
  refine Ends.bind_of_eq fun e he e' he' => ?_
  obtain rfl := Verdict.failed.inj he'
  cases hlocate : ParseError.locate kind message expectation c₀.position reported c.cursor with
  | error f =>
      rw [hlocate] at he
      cases he
  | ok e' =>
      rw [hlocate] at he
      obtain rfl := Except.ok.inj he
      obtain ⟨found, excerpt, -, -, hfields⟩ := ParseError.eq_of_locate hlocate
      refine ⟨c₀.place, c.cursor, honward.input, .refl _, honward.place, ?_⟩
      have hkind : e'.kind = kind := by rw [hfields]
      have hmessage : e'.message = message := by rw [hfields]
      have hexpectation : e'.expectation = expectation := by rw [hfields]
      rw [hkind, hmessage, hexpectation, ← hlocate, hreported]
      rfl

theorem reports_raiseFor (honward : c₀.Onward c.cursor) {kind : ErrorKind} (hkind : kind ≠ .action)
    (message : String) (g : Grammar σ) :
    Reports c₀ (env.raiseFor kind message g c₀.position c) := by
  refine Ends.bind_of_eq fun expectation _ => ?_
  exact env.reports_raise honward kind message expectation (if_neg hkind).symm

theorem reports_raiseUndefined (c : Config σ) : Reports c.cursor (env.raiseUndefined c) :=
  env.reports_raise (.refl _) _ _ _ rfl

theorem reports_act (honward : c₀.Onward c.cursor) (g : Grammar σ) (kind : Kind)
    (action : Action σ) (args : Arguments) :
    Reports c₀ (env.act g kind action args c₀.position c) := by
  unfold act
  dsimp only
  split
  · exact fun _ h => Verdict.noConfusion h
  · refine Ends.bind_of_eq fun expectation _ => ?_
    exact env.reports_raise (by exact honward) .action _ expectation rfl

theorem reports_orElse {next : Step σ} (honward : c₀.Onward o.config.cursor)
    (ho : o.ErrorFrom c₀) (hnext : Reports c₀ (next o.config)) (message : String)
    (tried : Grammar σ) : Reports c₀ (env.orElse message tried c₀.position o next) := by
  obtain ⟨verdict, config, records⟩ := o
  cases verdict with
  | matched => exact ho
  | mismatched =>
      unfold orElse
      dsimp only
      split
      · exact Ends.map (env.reports_raiseFor honward (by decide) message tried)
      · exact Ends.map hnext
  | failed e => exact ho

theorem reports_iterate {step : Step σ} (horderly : ∀ c, Orderly c.cursor (step c))
    (hstep : ∀ c, Reports c.cursor (step c)) (blamed : Grammar σ) (n owed : Nat) (c : Config σ) :
    Reports c.cursor (env.iterate blamed step n owed c) := by
  induction n generalizing owed c with
  | zero => trivial
  | succ n ih =>
      rw [iterate]
      refine Ends.bind_of_eq fun o ho => ?_
      have honward : c.cursor.Onward o.config.cursor := (horderly c).of_eq_ok ho
      have herror : o.ErrorFrom c.cursor := (hstep c).of_eq_ok ho
      split
      · split
        · refine Outcome.errorFrom_of_ne fun e h => ?_
          by_cases howed : owed ≤ 1
          · cases (if_pos howed).symm.trans h
          · cases (if_neg howed).symm.trans h
        · exact Ends.map (Reports.trans (ih (owed - 1) o.config) honward)
      · have hstop : Reports c.cursor
            (.ok (if owed = 0 then o.config.matched else o.config.mismatched)) := by
          by_cases howed : owed = 0
          · rw [if_pos howed]
            exact fun _ h => Verdict.noConfusion h
          · rw [if_neg howed]
            exact fun _ h => Verdict.noConfusion h
        exact env.reports_orElse honward herror hstop _ _

section Parts

variable {run : Grammar σ → Step σ} (horderly : ∀ g c, Orderly c.cursor (run g c))
  (hrun : ∀ g c, Reports c.cursor (run g c))

include hrun in
theorem reports_runInto (g : Grammar σ) (kind : Kind) (c : Config σ) :
    Ends True (fun p => p.2.ErrorFrom c.cursor) (runInto (run g) kind c) :=
  Ends.bind (hrun g { c with slot := some kind.default }) fun _ ho => ho

include horderly hrun

theorem reports_runAll (parts : List (Kind × Grammar σ)) (c : Config σ) :
    Ends True (fun p => p.2.ErrorFrom c.cursor) (runAll run parts c) := by
  induction parts generalizing c with
  | nil => exact Outcome.errorFrom_of_ne fun _ => Verdict.noConfusion
  | cons part parts ih =>
      obtain ⟨kind, g⟩ := part
      rw [runAll]
      refine Ends.bind_of_eq fun p hp => ?_
      have honward : c.cursor.Onward p.2.config.cursor :=
        (orderly_runInto (horderly g) kind c).of_eq_ok hp
      have herror : p.2.ErrorFrom c.cursor := (reports_runInto hrun g kind c).of_eq_ok hp
      obtain ⟨v, verdict, config, records⟩ := p
      cases verdict with
      | matched => exact Ends.bind (ih config) fun q hq => hq.trans honward
      | mismatched => exact herror
      | failed e => exact herror

theorem reports_runAny (parts : List (Kind × Grammar σ)) (i : Nat) (h : c₀.Onward c.cursor) :
    Ends True (fun p => p.2.ErrorFrom c₀) (env.runAny run c₀.position i parts c) := by
  induction parts generalizing i c with
  | nil => exact Outcome.errorFrom_of_ne fun _ => Verdict.noConfusion
  | cons part parts ih =>
      obtain ⟨kind, g⟩ := part
      rw [runAny]
      refine Ends.bind_of_eq fun p hp => ?_
      have honward : c.cursor.Onward p.2.config.cursor :=
        (orderly_runInto (horderly g) kind c).of_eq_ok hp
      have herror : p.2.ErrorFrom c₀ := ((reports_runInto hrun g kind c).of_eq_ok hp).trans h
      obtain ⟨v, verdict, config, records⟩ := p
      cases verdict with
      | matched => exact herror
      | mismatched =>
          have hmoved : c₀.Onward config.cursor := h.trans honward
          dsimp only
          split
          · have hconsumed : ErrorKind.consumed ≠ .action := by decide
            have hraise := env.reports_raiseFor hmoved hconsumed branchConsumed g
            exact Ends.bind hraise fun _ ho => ho
          · exact Ends.bind (ih (i + 1) hmoved) fun _ hq => hq
      | failed e => exact herror

end Parts

/-- What is taken back behind an error does not change the error. -/
theorem reports_settle {c : Config σ} (h : c.cursor.checkpoint.Onward o.config.cursor)
    (ho : o.ErrorFrom c.cursor) (g : Grammar σ) (restores : Bool) :
    Reports c.cursor (env.settle g restores c o) := by
  by_cases hmatched : o.verdict = .matched
  · rw [env.settle_of_matched h hmatched]
    exact ho
  · rw [env.settle_of_not_matched h hmatched]
    exact Ends.map (Ends.imp (env.ends_backtrackNote True g c o) id fun _ _ => ho)

theorem reports_settleExcept {c : Config σ} (h : c.cursor.checkpoint.Onward o.config.cursor)
    (ho : o.ErrorFrom c.cursor) (mayAct : Bool) (forbidden : Value) :
    Reports c.cursor (env.settleExcept mayAct forbidden c o) := by
  by_cases hmatched : o.verdict = .matched
  · by_cases hslot : o.config.slot = some forbidden
    · rw [env.settleExcept_of_forbidden h hmatched hslot]
      exact fun _ h => Verdict.noConfusion h
    · rw [env.settleExcept_of_not_forbidden h hmatched hslot]
      exact ho
  · rw [env.settleExcept_of_not_matched h hmatched]
    exact ho

/-- Whatever error a run ends with, it was raised where the run began or onward from there. -/
theorem reports_run (n : Nat) (g : Grammar σ) (c : Config σ) :
    Reports c.cursor (env.run n g c) := by
  induction n generalizing g c with
  | zero => trivial
  | succ n ih =>
      have honward {g : Grammar σ} {c : Config σ} {o : Outcome σ} (ho : env.run n g c = .ok o) :
          c.cursor.Onward o.config.cursor := (env.orderly_run n g c).of_eq_ok ho
      have herror {g : Grammar σ} {c : Config σ} {o : Outcome σ} (ho : env.run n g c = .ok o) :
          o.ErrorFrom c.cursor := (ih g c).of_eq_ok ho
      have hseparated (item separator : Grammar σ) (c : Config σ) :
          Reports c.cursor (separated (env.run n) item separator c) := by
        refine Ends.bind_of_eq fun o ho => ?_
        have hmoved := honward ho
        have hfailed := herror ho
        have hnext := (ih item (o.withSlot c.slot).config).trans hmoved
        exact (o.withSlot c.slot).reports_andThen hfailed hnext
      cases g with
      | accept p =>
          rw [run, runLevel]
          refine Outcome.errorFrom_of_ne fun e => ?_
          split <;> exact Verdict.noConfusion
      | expect p =>
          rw [run, runLevel]
          split
          · exact fun _ h => Verdict.noConfusion h
          · exact env.reports_raiseFor (.refl _) (by decide) _ _
      | literal s =>
          rw [run, runLevel]
          refine Outcome.errorFrom_of_ne fun e => ?_
          split <;> exact Verdict.noConfusion
      | pattern source matcher =>
          rw [run, runLevel]
          split
          · exact fun _ h => Verdict.noConfusion h
          · exact fun _ h => Verdict.noConfusion h
      | succeed => exact fun _ h => Verdict.noConfusion h
      | fail => exact fun _ h => Verdict.noConfusion h
      | sequence a b =>
          rw [run, runLevel]
          refine Ends.bind_of_eq fun o ho => ?_
          exact o.reports_andThen (herror ho) ((ih b o.config).trans (honward ho))
      | choice a b =>
          rw [run, runLevel]
          refine Ends.bind_of_eq fun o ho => ?_
          exact env.reports_orElse (honward ho) (herror ho) ((ih b o.config).trans (honward ho)) _ _
      | repetition atLeast item =>
          rw [run, runLevel]
          exact env.reports_iterate (env.orderly_run n item) (ih item) item n atLeast c
      | option item =>
          rw [run, runLevel]
          refine Ends.bind_of_eq fun o ho => ?_
          have hmatched : Reports c.cursor (.ok o.config.matched) :=
            fun _ h => Verdict.noConfusion h
          exact env.reports_orElse (honward ho) (herror ho) hmatched _ _
      | sepBy item separator =>
          rw [run, runLevel]
          refine Ends.bind_of_eq fun o ho => ?_
          refine o.reports_andThen (herror ho) (Reports.trans ?_ (honward ho))
          exact env.reports_iterate (env.orderly_separated n item separator)
            (hseparated item separator) _ n 0 o.config
      | discard item =>
          rw [run, runLevel]
          exact Ends.bind (ih item _) fun _ ho => ho
      | except kind item forbidden =>
          rw [run, runLevel]
          refine Ends.bind_of_eq fun o ho => ?_
          have hfailed := herror ho
          exact env.reports_settleExcept (honward ho) hfailed _ forbidden
      | attempt item =>
          rw [run, runLevel]
          refine Ends.bind_of_eq fun o ho => ?_
          have hfailed := herror ho
          exact env.reports_settle (honward ho) hfailed item _
      | attemptPure item =>
          rw [run, runLevel]
          refine Ends.bind_of_eq fun o ho => ?_
          have hfailed := herror ho
          exact env.reports_settle (honward ho) hfailed item _
      | strict message item =>
          rw [run, runLevel]
          refine Ends.bind_of_eq fun o ho => ?_
          split
          · exact Ends.map (env.reports_raiseFor (honward ho) (by decide) message item)
          · exact herror ho
      | trace label item =>
          rw [run, runLevel]
          refine Ends.bind (ih item c) fun o ho => ?_
          exact Ends.bind_of_eq fun _ _ => ho
      | token item =>
          rw [run, runLevel]
          refine Ends.bind_of_eq fun o ho => ?_
          exact o.reports_andThen (herror ho) fun _ h => Verdict.noConfusion h
      | shared item => exact ih item c
      | reference name item => exact ih item c
      | define name item => exact ih item c
      | rename name rank item => exact ih item c
      | all kind action parts =>
          rw [run, runLevel]
          refine Ends.bind_of_eq fun p hp => ?_
          have honward : c.cursor.Onward p.2.config.cursor :=
            (orderly_runAll (env.orderly_run n) parts c).of_eq_ok hp
          have herror : p.2.ErrorFrom c.cursor :=
            (reports_runAll (env.orderly_run n) ih parts c).of_eq_ok hp
          exact p.2.reports_andThen herror (env.reports_act honward _ kind action _)
      | any kind action parts =>
          rw [run, runLevel]
          refine Ends.bind_of_eq fun p hp => ?_
          have honward : c.cursor.Onward p.2.config.cursor :=
            (env.orderly_runAny (env.orderly_run n) parts 0 (.refl _)).of_eq_ok hp
          have herror : p.2.ErrorFrom c.cursor :=
            (env.reports_runAny (env.orderly_run n) ih parts 0 (.refl _)).of_eq_ok hp
          split
          · exact Outcome.reports_andThen herror (env.reports_act honward _ kind action _)
          · exact herror
      | handle slot =>
          rw [run, runLevel]
          split
          · exact ih _ c
          · exact env.reports_raiseUndefined c
      | fixed hold name rule =>
          rw [run, runLevel]
          split
          · exact ih _ c
          · exact env.reports_raiseUndefined c

variable {env}

theorem Yields.errorFrom {g : Grammar σ} {c : Config σ} {o : Outcome σ} (h : env.Yields g c o) :
    o.ErrorFrom c.cursor := by
  obtain ⟨n, hn⟩ := h
  exact (env.reports_run n g c).of_eq_ok hn

/-- The errors that are made of a mismatch and of input that is left are raised at the place where
the run ended. -/
theorem reports_parseComplete (limit : Nat) (kind : Kind) (g : Grammar σ) (input : List Char)
    (state : σ) : Reports (.ofInput input) (env.parseComplete limit kind g input state) := by
  refine Ends.bind_of_eq fun o ho => ?_
  have honward : (Cursor.ofInput input).Onward o.config.cursor :=
    (env.orderly_run limit g (startOf kind input state)).of_eq_ok ho
  have herror : o.ErrorFrom (.ofInput input) :=
    (env.reports_run limit g (startOf kind input state)).of_eq_ok ho
  split
  · exact herror
  · exact Ends.map (env.reports_raiseFor honward (by decide) _ g)
  · split
    · exact herror
    · exact Ends.map (env.reports_raiseFor honward (by decide) _ g)

/-- Every error is located coherently: those of runs from a genuine place behind that place, and
those of parsing an input behind its beginning. -/
theorem error_locatedIn (env : Environment σ) (g : Grammar σ) :
    (∀ c o e, c.cursor.place.IsGenuine c.cursor.input → env.Yields g c o →
      o.verdict = .failed e → e.LocatedIn c.cursor.input c.cursor.offset) ∧
    (∀ limit kind input state o e, env.parse limit kind g input state = .ok o →
      o.verdict = .failed e → e.LocatedIn input 0) ∧
    ∀ limit kind input state o e, env.parseComplete limit kind g input state = .ok o →
      o.verdict = .failed e → e.LocatedIn input 0 := by
  have hbeginning (input : List Char) :
      (Cursor.ofInput input).place.IsGenuine (Cursor.ofInput input).input :=
    (Cursor.wellFormed_ofInput input).place
  refine ⟨?_, ?_, ?_⟩
  · intro c o e hc ho he
    exact (ho.errorFrom e he).locatedIn hc
  · intro limit kind input state o e ho he
    have herror : o.ErrorFrom (.ofInput input) :=
      (env.reports_run limit g (startOf kind input state)).of_eq_ok ho
    exact (herror e he).locatedIn (hbeginning input)
  · intro limit kind input state o e ho he
    have herror := (env.reports_parseComplete limit kind g input state).of_eq_ok ho
    exact (herror e he).locatedIn (hbeginning input)

/-- An action fails on the second row, behind which a symbol of two bytes has been passed. The error
is reported where the rule began. -/
theorem error_locatedIn_secondRow :
    let refused : Grammar Nat :=
      .all .text (fun _ v n => ⟨v, n, some ⟨"refused", []⟩⟩) [(.text, .literal "ß")]
    let env : Environment Nat := ⟨.empty, .off⟩
    let input := ['é', '\n', 'ß', 'a']
    let c : Config Nat := ⟨.ofInput input, some (.text ""), 0⟩
    c.cursor.place.IsGenuine input ∧
      ∃ o e, env.Yields (.attempt (.sequence (.literal "é\n") refused)) c o ∧
        o.verdict = .failed e ∧ e.span = ⟨3, 5⟩ ∧ e.row = 2 ∧ e.column = 1 ∧ e.found = some 'ß' ∧
          e.LocatedIn input 0 := by
  intro refused env input c
  have hc : c.cursor.place.IsGenuine input := ⟨rfl, rfl⟩
  obtain ⟨hrun, -⟩ := error_locatedIn env (.attempt (.sequence (.literal "é\n") refused))
  exact ⟨hc, _, _, ⟨9, rfl⟩, rfl, rfl, rfl, rfl, rfl, hrun c _ _ hc ⟨9, rfl⟩ rfl⟩

end Environment

end ParserAlgebra
