import ParserAlgebra.Proofs.Ending
import ParserAlgebra.Proofs.Location

/-!
# Runs keep the cursor in order

A run leads its cursor onward on the same input and gives back the checkpoints it was given. It
closes no checkpoint that it did not open, and at a genuine place it meets no fault. The invariant
is `Orderly`; there is one lemma for each way in which steps are put together, and `orderly_run` is
the induction over grammars.
-/

namespace ParserAlgebra

/-- From one cursor onward to another one on the same input, with the same open checkpoints. -/
structure Cursor.Onward (c d : Cursor) : Prop where
  input : d.input = c.input
  checkpoints : d.checkpoints = c.checkpoints
  place : c.place.Onward d.place

/-- A cursor whose place and open checkpoints are genuine places of its input. -/
structure Cursor.WellFormed (c : Cursor) : Prop where
  place : c.place.IsGenuine c.input
  checkpoints : ∀ p ∈ c.checkpoints, p.IsGenuine c.input

namespace Cursor

/-- A cursor at the same place with other open checkpoints. -/
def withCheckpoints (checkpoints : List Place) (c : Cursor) : Cursor :=
  { c with checkpoints }

theorem wellFormed_ofInput (input : List Char) : (ofInput input).WellFormed :=
  ⟨Place.isGenuine_iff.2 (Place.Onward.refl _), by simp [ofInput]⟩

theorem WellFormed.checkpoint {c : Cursor} (h : c.WellFormed) : c.checkpoint.WellFormed :=
  ⟨h.place, List.forall_mem_cons.2 ⟨h.place, h.checkpoints⟩⟩

namespace Onward

variable {c d e : Cursor}

theorem refl (c : Cursor) : c.Onward c :=
  ⟨rfl, rfl, Place.Onward.refl _⟩

theorem trans (hcd : c.Onward d) (hde : d.Onward e) : c.Onward e :=
  ⟨hde.input.trans hcd.input, hde.checkpoints.trans hcd.checkpoints, hcd.place.trans hde.place⟩

theorem offset_le (h : c.Onward d) : c.offset ≤ d.offset :=
  h.place.offset_le

theorem isGenuine (h : c.Onward d) (hc : c.place.IsGenuine c.input) :
    d.place.IsGenuine d.input := by
  rw [h.input]
  exact hc.onward h.place

theorem wellFormed (h : c.Onward d) (hc : c.WellFormed) : d.WellFormed := by
  refine ⟨h.isGenuine hc.place, ?_⟩
  rw [h.checkpoints, h.input]
  exact hc.checkpoints

/-- A cursor that did not move past a symbol is the same cursor. -/
theorem eq_of_offset_eq (h : c.Onward d) (hoffset : d.offset = c.offset) : d = c := by
  have hplace := h.place.eq_of_offset_eq hoffset
  cases c
  cases d
  cases h.input
  cases h.checkpoints
  cases hplace
  rfl

theorem commit_eq (h : c.checkpoint.Onward d) :
    d.commit = .ok (d.withCheckpoints c.checkpoints) := by
  simp [commit, h.checkpoints, checkpoint, withCheckpoints]

theorem backtrack_eq (h : c.checkpoint.Onward d) : d.backtrack = .ok c := by
  have hinput : d.input = c.input := h.input
  simp [backtrack, h.checkpoints, checkpoint, hinput]

theorem of_checkpoint (h : c.checkpoint.Onward d) :
    c.Onward (d.withCheckpoints c.checkpoints) :=
  ⟨h.input, rfl, h.place⟩

/-- What is looked up between the offsets of two cursors is the text that was passed on the way from
one to the other. -/
theorem slice?_eq (h : c.Onward d) (hc : c.place.IsGenuine c.input) {passed : List Char}
    (hpassed : c.ahead = passed ++ d.ahead) :
    Text.slice? c.offset d.offset c.input = some passed := by
  obtain ⟨taken, hahead, hposition⟩ := h.place
  obtain rfl : taken = passed := List.append_cancel_right (hahead.symm.trans hpassed)
  have hstop : d.offset = c.offset + Text.byteLength taken := by
    change d.place.position.offset = c.place.position.offset + _
    rw [hposition, Position.offset_pastAll]
  have hdrop : Text.dropBytes? c.offset c.input = some (taken ++ d.ahead) :=
    hc.1.trans (congrArg some hahead)
  have htake : Text.takeBytes? (d.offset - c.offset) (taken ++ d.ahead) = some taken := by
    rw [hstop, Nat.add_sub_cancel_left]
    exact Text.takeBytes?_append _ _
  simp [Text.slice?, h.offset_le, hdrop, htake]

/-- The text that was passed on the way from one cursor to another can be looked up. -/
theorem exists_slice (h : c.Onward d) (hc : c.place.IsGenuine c.input) :
    ∃ cs, d.slice (d.spanFrom c.position) = .ok cs := by
  obtain ⟨taken, hahead, -⟩ := h.place
  have hslice : Text.slice? c.position.offset d.offset c.input = some taken := h.slice?_eq hc hahead
  exact ⟨taken, by simp [slice, spanFrom, h.input, hslice]⟩

end Onward

/-- A cursor at a genuine place of an input. -/
structure LiesIn (input : List Char) (c : Cursor) : Prop where
  input_eq : c.input = input
  isGenuine : c.place.IsGenuine input

namespace LiesIn

variable {input : List Char} {c d : Cursor}

theorem checkpoint (hc : c.LiesIn input) : c.checkpoint.LiesIn input :=
  ⟨hc.input_eq, hc.isGenuine⟩

theorem onward (hc : c.LiesIn input) (h : c.Onward d) : d.LiesIn input := by
  obtain ⟨rfl, hgenuine⟩ := hc
  refine ⟨h.input, ?_⟩
  rw [← h.input]
  exact h.isGenuine hgenuine

/-- What was passed is the text between the offsets. -/
theorem slice?_eq (hc : c.LiesIn input) (h : c.Onward d) {passed : List Char}
    (hpassed : c.ahead = passed ++ d.ahead) : Text.slice? c.offset d.offset input = some passed := by
  obtain ⟨rfl, hgenuine⟩ := hc
  exact h.slice?_eq hgenuine hpassed

/-- What lies before the cursor. -/
theorem exists_append (hc : c.LiesIn input) :
    ∃ before, input = before ++ c.ahead ∧ c.offset = Text.byteLength before := by
  obtain ⟨before, hinput, hlength⟩ := hc.isGenuine.exists_boundary
  exact ⟨before, hinput, hlength.symm⟩

end LiesIn

theorem onward_advance (c : Cursor) : c.Onward c.advance :=
  ⟨rfl, rfl, c.place.onward_next⟩

theorem onward_advanceTo (target : Nat) (c : Cursor) : c.Onward (c.advanceTo target) :=
  ⟨rfl, rfl, Place.onward_reach target c.position c.ahead⟩

theorem onward_skipWhile (test : Char → Bool) (c : Cursor) : c.Onward (c.skipWhile test) :=
  ⟨rfl, rfl, Place.onward_skipWhile test c.position c.ahead⟩

end Cursor

variable {σ α : Type}

namespace Config

theorem onward_takeSymbol (c : Config σ) : c.cursor.Onward c.takeSymbol.cursor := by
  unfold takeSymbol
  split
  · exact .refl _
  · exact c.cursor.onward_advance

theorem onward_take (text : List Char) (c : Config σ) : c.cursor.Onward (c.take text).cursor :=
  c.cursor.onward_advanceTo _

/-- A configuration that is gone back to from one with the state `left`, which stays if it is not to
be restored. -/
def takenBack (restores : Bool) (left : σ) (c : Config σ) : Config σ :=
  { c with state := if restores then c.state else left }

end Config

namespace Outcome

/-- An outcome at the same place with other open checkpoints. -/
def withCheckpoints (checkpoints : List Place) (o : Outcome σ) : Outcome σ :=
  { o with config := { o.config with cursor := o.config.cursor.withCheckpoints checkpoints } }

theorem commit_eq {c : Cursor} {o : Outcome σ} (h : c.checkpoint.Onward o.config.cursor) :
    o.commit = .ok (o.withCheckpoints c.checkpoints) := by
  simp only [commit, h.commit_eq]
  rfl

theorem backtrack_eq {c : Cursor} {o : Outcome σ} (h : c.checkpoint.Onward o.config.cursor) :
    o.backtrack = .ok { o with config := { o.config with cursor := c } } := by
  simp only [backtrack, h.backtrack_eq]
  rfl

end Outcome

/-- Steps that begin at a cursor lead onward from it. They meet a fault only if it does not stand at
a genuine place. -/
def OrderlyBy (view : α → Cursor) (c : Cursor) : Except Stop α → Prop :=
  Ends (¬ c.place.IsGenuine c.input) fun a => c.Onward (view a)

/-- A run that begins at a cursor leads onward from it. -/
abbrev Orderly (c : Cursor) : Except Stop (Outcome σ) → Prop :=
  OrderlyBy (fun o => o.config.cursor) c

theorem OrderlyBy.trans {view : α → Cursor} {c d : Cursor} (h : c.Onward d) {r : Except Stop α}
    (hr : OrderlyBy view d r) : OrderlyBy view c r :=
  Ends.imp hr (fun hd hc => hd (h.isGenuine hc)) fun _ ha => h.trans ha

/-- A checkpoint opened at a cursor does not change whether its place is genuine. -/
theorem OrderlyBy.checkpoint {view : α → Cursor} {c : Cursor} {r : Except Stop α}
    (hr : OrderlyBy view c.checkpoint r) :
    Ends (¬ c.place.IsGenuine c.input) (fun a => c.checkpoint.Onward (view a)) r :=
  hr

namespace Environment

variable (env : Environment σ)

theorem ends_expectationOf (excuse : Prop) (g : Grammar σ) :
    Ends excuse (fun _ => True) (env.expectationOf g) := by
  unfold expectationOf
  split <;> trivial

variable {c₀ : Cursor} {c : Config σ}

theorem orderly_raise (h : c₀.Onward c.cursor) (kind : ErrorKind) (message : String)
    (expectation : Expectation) {reported : Position}
    (hreported : reported = c₀.position ∨ reported = c.cursor.position) :
    Orderly c₀ (env.raise kind message expectation c₀.position reported c) := by
  unfold raise
  cases hlocate : ParseError.locate kind message expectation c₀.position reported c.cursor with
  | ok e => exact h
  | error f =>
      intro hgenuine
      have hp : c₀.place.IsGenuine c.cursor.input := by rw [h.input]; exact hgenuine
      have hq := h.isGenuine hgenuine
      obtain ⟨e, he⟩ : ∃ e, ParseError.locate kind message expectation c₀.position reported
          c.cursor = .ok e := by
        rcases hreported with rfl | rfl
        · exact ParseError.exists_locate hp hp kind message expectation
        · exact ParseError.exists_locate hp hq kind message expectation
      rw [he] at hlocate
      cases hlocate

theorem orderly_raiseFor (h : c₀.Onward c.cursor) (kind : ErrorKind) (message : String)
    (g : Grammar σ) : Orderly c₀ (env.raiseFor kind message g c₀.position c) :=
  (env.ends_expectationOf _ g).bind fun expectation _ =>
    env.orderly_raise h kind message expectation (.inr rfl)

theorem orderly_raiseUndefined (c : Config σ) : Orderly c.cursor (env.raiseUndefined c) :=
  env.orderly_raise (.refl _) _ _ _ (.inl rfl)

theorem orderly_andThen {o : Outcome σ} {next : Step σ} (h : c₀.Onward o.config.cursor)
    (hnext : Orderly c₀ (next o.config)) : Orderly c₀ (o.andThen next) := by
  obtain ⟨verdict, config, records⟩ := o
  cases verdict with
  | matched => exact Ends.map hnext
  | mismatched => exact h
  | failed e => exact h

theorem orderly_orElse {o : Outcome σ} {next : Step σ} (h : c₀.Onward o.config.cursor)
    (hnext : Orderly c₀ (next o.config)) (message : String) (tried : Grammar σ) :
    Orderly c₀ (env.orElse message tried c₀.position o next) := by
  obtain ⟨verdict, config, records⟩ := o
  cases verdict with
  | matched => exact h
  | mismatched =>
      unfold orElse
      dsimp only
      split
      · exact Ends.map (env.orderly_raiseFor h .consumed message tried)
      · exact Ends.map hnext
  | failed e => exact h

theorem orderly_iterate {step : Step σ} (hstep : ∀ c, Orderly c.cursor (step c))
    (blamed : Grammar σ) (n owed : Nat) (c : Config σ) :
    Orderly c.cursor (env.iterate blamed step n owed c) := by
  induction n generalizing owed c with
  | zero => trivial
  | succ n ih =>
      rw [iterate]
      refine Ends.bind (hstep c) fun o ho => ?_
      have hstop : Orderly c.cursor
          (env.orElse iterationConsumed blamed c.cursor.position o fun c =>
            .ok (if owed = 0 then c.matched else c.mismatched)) := by
        refine env.orderly_orElse ho ?_ _ _
        by_cases howed : owed = 0
        · rw [if_pos howed]
          exact ho
        · rw [if_neg howed]
          exact ho
      obtain ⟨verdict, config, records⟩ := o
      cases verdict with
      | matched =>
          dsimp only
          split
          · exact ho
          · exact Ends.map (OrderlyBy.trans ho (ih _ config))
      | mismatched => exact hstop
      | failed e => exact hstop

theorem orderly_runInto {step : Step σ} (hstep : ∀ c, Orderly c.cursor (step c)) (kind : Kind)
    (c : Config σ) : OrderlyBy (fun p => p.2.config.cursor) c.cursor (runInto step kind c) :=
  Ends.bind (hstep { c with slot := some kind.default }) fun _ ho => ho

theorem orderly_runAll {run : Grammar σ → Step σ} (hrun : ∀ g c, Orderly c.cursor (run g c))
    (parts : List (Kind × Grammar σ)) (c : Config σ) :
    OrderlyBy (fun p => p.2.config.cursor) c.cursor (runAll run parts c) := by
  induction parts generalizing c with
  | nil => exact Cursor.Onward.refl _
  | cons part parts ih =>
      obtain ⟨kind, g⟩ := part
      rw [runAll]
      refine Ends.bind (orderly_runInto (hrun g) kind c) fun p hp => ?_
      obtain ⟨v, verdict, config, records⟩ := p
      cases verdict with
      | matched => exact Ends.bind (OrderlyBy.trans hp (ih config)) fun _ h => h
      | mismatched => exact hp
      | failed e => exact hp

theorem orderly_runAny {run : Grammar σ → Step σ} (hrun : ∀ g c, Orderly c.cursor (run g c))
    (parts : List (Kind × Grammar σ)) (i : Nat) (h : c₀.Onward c.cursor) :
    OrderlyBy (fun p => p.2.config.cursor) c₀ (env.runAny run c₀.position i parts c) := by
  induction parts generalizing i c with
  | nil => exact h
  | cons part parts ih =>
      obtain ⟨kind, g⟩ := part
      rw [runAny]
      refine Ends.bind (OrderlyBy.trans h (orderly_runInto (hrun g) kind c)) fun p hp => ?_
      obtain ⟨v, verdict, config, records⟩ := p
      cases verdict with
      | matched => exact hp
      | mismatched =>
          dsimp only
          split
          · exact Ends.bind (env.orderly_raiseFor hp .consumed branchConsumed g) fun _ h => h
          · exact Ends.bind (ih (i + 1) hp) fun _ h => h
      | failed e => exact hp

theorem orderly_act (h : c₀.Onward c.cursor) (g : Grammar σ) (kind : Kind) (action : Action σ)
    (args : Arguments) : Orderly c₀ (env.act g kind action args c₀.position c) := by
  unfold act
  dsimp only
  split
  · exact h
  · refine Ends.bind (env.ends_expectationOf _ g) fun expectation _ => ?_
    exact env.orderly_raise (by exact h) .action _ expectation (.inl rfl)

/-- After a match, the end of a speculation closes the checkpoint. -/
theorem settle_of_matched {o : Outcome σ} (h : c.cursor.checkpoint.Onward o.config.cursor)
    (hmatched : o.verdict = .matched) (g : Grammar σ) (restores : Bool) :
    env.settle g restores c o = .ok (o.withCheckpoints c.cursor.checkpoints) := by
  unfold settle
  split
  · exact Outcome.commit_eq h
  · exact absurd hmatched ‹_›

/-- The record that a speculation makes before it goes back. -/
def backtrackNote (g : Grammar σ) (c : Config σ) (o : Outcome σ) :
    Except Stop (List LogRecord) :=
  if env.verbosity.shows .trace then
    match env.store.ebnf g with
    | some text =>
      .ok <| env.verbosity.record .trace <|
        "backtracking from " ++ toString o.config.cursor.offset ++ " to " ++
          toString c.cursor.offset ++ " after " ++ text
    | none => .error .nestingLimit
  else
    .ok []

theorem ends_backtrackNote (excuse : Prop) (g : Grammar σ) (c : Config σ) (o : Outcome σ) :
    Ends excuse (fun _ => True) (env.backtrackNote g c o) := by
  unfold backtrackNote
  split
  · split <;> trivial
  · trivial

/-- Without a match, the end of a speculation goes back to its beginning; only the state stays if it
is not to be restored. -/
theorem settle_of_not_matched {o : Outcome σ} (h : c.cursor.checkpoint.Onward o.config.cursor)
    (hmatched : o.verdict ≠ .matched) (g : Grammar σ) (restores : Bool) :
    env.settle g restores c o = (env.backtrackNote g c o).map fun note =>
      ⟨o.verdict, c.takenBack restores o.config.state, o.records ++ note⟩ := by
  have hback (note : List LogRecord) : (do
      let back ← { o with records := o.records ++ note }.backtrack
      pure ((back.restoreState restores c.state).withSlot c.slot)) =
        .ok ⟨o.verdict, c.takenBack restores o.config.state, o.records ++ note⟩ := by
    rw [Outcome.backtrack_eq (o := { o with records := o.records ++ note }) h]
    cases restores <;> rfl
  unfold settle backtrackNote
  split
  · exact absurd ‹_› hmatched
  · dsimp only
    split
    · cases env.store.ebnf g with
      | none => rfl
      | some text => exact hback _
    · exact hback _

theorem orderly_settle {o : Outcome σ} (h : c.cursor.checkpoint.Onward o.config.cursor)
    (g : Grammar σ) (restores : Bool) : Orderly c.cursor (env.settle g restores c o) := by
  by_cases hmatched : o.verdict = .matched
  · rw [env.settle_of_matched h hmatched]
    exact h.of_checkpoint
  · rw [env.settle_of_not_matched h hmatched]
    exact Ends.map (Ends.imp (env.ends_backtrackNote _ g c o) id fun _ _ => .refl _)

/-- A match with the forbidden value is taken back as a whole. -/
theorem settleExcept_of_forbidden {o : Outcome σ} {forbidden : Value}
    (h : c.cursor.checkpoint.Onward o.config.cursor) (hmatched : o.verdict = .matched)
    (hslot : o.config.slot = some forbidden) (mayAct : Bool) :
    env.settleExcept mayAct forbidden c o =
      .ok ⟨.mismatched, c.takenBack mayAct o.config.state, o.records ++
        env.verbosity.record .trace ("rejected " ++ forbidden.written ++ " at offset " ++
          toString o.config.cursor.offset)⟩ := by
  rw [settleExcept, hmatched]
  dsimp only
  rw [if_pos hslot, Outcome.backtrack_eq (o := ⟨.mismatched, o.config, _⟩) h]
  cases mayAct <;> rfl

/-- A match with another value is kept, and the value replaces what the slot holds. -/
theorem settleExcept_of_not_forbidden {o : Outcome σ} {forbidden : Value}
    (h : c.cursor.checkpoint.Onward o.config.cursor) (hmatched : o.verdict = .matched)
    (hslot : o.config.slot ≠ some forbidden) (mayAct : Bool) :
    env.settleExcept mayAct forbidden c o =
      .ok ((o.withCheckpoints c.cursor.checkpoints).withSlot
        (if c.slot.isSome then o.config.slot else none)) := by
  unfold settleExcept
  split
  · rw [if_neg hslot, Outcome.commit_eq h]
    rfl
  · exact absurd hmatched ‹_›

/-- Any other verdict stands, and so does what was taken. -/
theorem settleExcept_of_not_matched {o : Outcome σ}
    (h : c.cursor.checkpoint.Onward o.config.cursor) (hmatched : o.verdict ≠ .matched)
    (mayAct : Bool) (forbidden : Value) :
    env.settleExcept mayAct forbidden c o =
      .ok ((o.withCheckpoints c.cursor.checkpoints).withSlot c.slot) := by
  unfold settleExcept
  split
  · exact absurd ‹_› hmatched
  · rw [Outcome.commit_eq h]
    rfl

theorem orderly_settleExcept {o : Outcome σ} (h : c.cursor.checkpoint.Onward o.config.cursor)
    (mayAct : Bool) (forbidden : Value) :
    Orderly c.cursor (env.settleExcept mayAct forbidden c o) := by
  by_cases hmatched : o.verdict = .matched
  · by_cases hslot : o.config.slot = some forbidden
    · rw [env.settleExcept_of_forbidden h hmatched hslot]
      exact Cursor.Onward.refl _
    · rw [env.settleExcept_of_not_forbidden h hmatched hslot]
      exact h.of_checkpoint
  · rw [env.settleExcept_of_not_matched h hmatched]
    exact h.of_checkpoint

theorem ends_traceRecords {o : Outcome σ} (h : c₀.Onward o.config.cursor) (label : String) :
    Ends (¬ c₀.place.IsGenuine c₀.input) (fun _ => True)
      (env.traceRecords label c₀.position o) := by
  unfold traceRecords
  dsimp only
  split
  · split
    · refine Ends.bind (P := fun _ => True) ?_ fun _ _ => trivial
      cases hslice : o.config.cursor.slice (o.config.cursor.spanFrom c₀.position) with
      | ok text => trivial
      | error f =>
          intro hgenuine
          obtain ⟨text, htext⟩ := h.exists_slice hgenuine
          rw [htext] at hslice
          cases hslice
    · trivial
  · trivial
  · trivial

/-- Every run leads its cursor onward, gives back its checkpoints and meets no fault at a genuine
place. -/
theorem orderly_run (n : Nat) (g : Grammar σ) (c : Config σ) :
    Orderly c.cursor (env.run n g c) := by
  induction n generalizing g c with
  | zero => trivial
  | succ n ih =>
      cases g with
      | accept p =>
          rw [run, runLevel]
          split
          · exact c.onward_takeSymbol
          · exact .refl _
      | expect p =>
          rw [run, runLevel]
          split
          · exact c.onward_takeSymbol
          · exact env.orderly_raiseFor (.refl _) _ _ _
      | literal s =>
          rw [run, runLevel]
          split
          · exact c.onward_take _
          · exact .refl _
      | pattern source matcher =>
          rw [run, runLevel]
          split
          · exact c.onward_take _
          · exact .refl _
      | succeed => exact Cursor.Onward.refl _
      | fail => exact Cursor.Onward.refl _
      | sequence a b =>
          rw [run, runLevel]
          refine Ends.bind (ih a c) fun o ho => ?_
          exact orderly_andThen ho (.trans ho (ih b o.config))
      | choice a b =>
          rw [run, runLevel]
          refine Ends.bind (ih a c) fun o ho => ?_
          exact env.orderly_orElse ho (.trans ho (ih b o.config)) _ _
      | repetition atLeast item =>
          rw [run, runLevel]
          exact env.orderly_iterate (ih item) item n atLeast c
      | option item =>
          rw [run, runLevel]
          refine Ends.bind (ih item c) fun o ho => ?_
          have hmatched : Orderly c.cursor ((fun c : Config σ => .ok c.matched) o.config) := ho
          exact env.orderly_orElse ho hmatched _ _
      | sepBy item separator =>
          rw [run, runLevel]
          refine Ends.bind (ih item c) fun o ho => ?_
          refine orderly_andThen ho (.trans ho ?_)
          refine env.orderly_iterate (fun c => ?_) _ n 0 o.config
          refine Ends.bind (ih separator { c with slot := none }) fun o ho => ?_
          exact orderly_andThen (o := o.withSlot c.slot) ho (.trans ho (ih item _))
      | discard item =>
          rw [run, runLevel]
          exact Ends.bind (ih item { c with slot := none }) fun o ho => ho
      | except kind item forbidden =>
          rw [run, runLevel]
          refine Ends.bind (OrderlyBy.checkpoint (ih item _)) fun o ho => ?_
          exact env.orderly_settleExcept ho _ forbidden
      | attempt item =>
          rw [run, runLevel]
          refine Ends.bind (OrderlyBy.checkpoint (ih item _)) fun o ho => ?_
          exact env.orderly_settle ho item _
      | attemptPure item =>
          rw [run, runLevel]
          refine Ends.bind (OrderlyBy.checkpoint (ih item _)) fun o ho => ?_
          exact env.orderly_settle ho item _
      | strict message item =>
          rw [run, runLevel]
          refine Ends.bind (ih item c) fun o ho => ?_
          split
          · exact Ends.map (env.orderly_raiseFor ho _ _ _)
          · exact ho
      | trace label item =>
          rw [run, runLevel]
          refine Ends.bind (ih item c) fun o ho => ?_
          exact Ends.bind (env.ends_traceRecords ho label) fun _ _ => ho
      | token item =>
          rw [run, runLevel]
          refine Ends.bind (ih item c) fun o ho => ?_
          exact orderly_andThen ho (ho.trans (o.config.cursor.onward_skipWhile _))
      | shared item => exact ih item c
      | reference name item => exact ih item c
      | define name item => exact ih item c
      | rename name rank item => exact ih item c
      | all kind action parts =>
          rw [run, runLevel]
          refine Ends.bind (orderly_runAll ih parts c) fun p hp => ?_
          exact orderly_andThen hp (env.orderly_act hp _ kind action _)
      | any kind action parts =>
          rw [run, runLevel]
          refine Ends.bind (env.orderly_runAny ih parts 0 (.refl _)) fun p hp => ?_
          split
          · exact orderly_andThen hp (env.orderly_act hp _ kind action _)
          · exact hp
      | handle slot =>
          rw [run, runLevel]
          split
          · exact ih _ c
          · exact env.orderly_raiseUndefined c
      | fixed hold name rule =>
          rw [run, runLevel]
          split
          · exact ih _ c
          · exact env.orderly_raiseUndefined c

/-- A separator, run into a slot of its own, and the item behind it. -/
theorem orderly_separatedInto (slot : Option Value) (n : Nat) (item separator : Grammar σ)
    (c : Config σ) :
    Orderly c.cursor (do
      let o ← env.run n separator { c with slot }
      (o.withSlot c.slot).andThen (env.run n item)) := by
  refine Ends.bind (env.orderly_run n separator { c with slot }) fun o ho => ?_
  exact orderly_andThen (o := o.withSlot c.slot) ho (.trans ho (env.orderly_run n item _))

/-- The round that separated items repeat: a separator, run without a slot, and the item behind
it. -/
def separated (run : Grammar σ → Step σ) (item separator : Grammar σ) : Step σ := fun c => do
  let o ← run separator { c with slot := none }
  (o.withSlot c.slot).andThen (run item)

theorem orderly_separated (n : Nat) (item separator : Grammar σ) (c : Config σ) :
    Orderly c.cursor (separated (env.run n) item separator c) :=
  env.orderly_separatedInto none n item separator c

/-- A run from a well-formed cursor meets no fault. If it returns, with whatever verdict, the cursor
is well formed again and no further back, and the open checkpoints are those from before. -/
theorem run_wellFormed (n : Nat) (g : Grammar σ) (c : Config σ) (hc : c.cursor.WellFormed) :
    (∀ f, env.run n g c ≠ .error (.fault f)) ∧
      ∀ o, env.run n g c = .ok o →
        o.config.cursor.input = c.cursor.input ∧
          o.config.cursor.checkpoints = c.cursor.checkpoints ∧
            o.config.cursor.WellFormed ∧ c.cursor.offset ≤ o.config.cursor.offset := by
  have hrun := env.orderly_run n g c
  constructor
  · intro f hf
    exact hrun.of_eq_fault hf hc.place
  · intro o ho
    have honward := hrun.of_eq_ok ho
    exact ⟨honward.input, honward.checkpoints, honward.wellFormed hc, honward.offset_le⟩

theorem run_wellFormed_secondRow :
    let g : Grammar Nat :=
      .choice (.attempt (.sequence (.accept (.symbol 'a')) (.accept (.symbol 'a'))))
        (.many (.accept (.complement (.symbol '\n'))))
    let env : Environment Nat := ⟨.empty, .off⟩
    let cursor := (Cursor.ofInput ['é', '\n', 'a', 'ß']).advance.checkpoint.advance
    cursor.WellFormed ∧ ∃ o, env.run 6 g ⟨cursor, some (.text ""), 0⟩ = .ok o ∧
      o.verdict = .matched ∧ o.config.cursor.position = ⟨6, 2, 3, 3⟩ ∧
        o.config.cursor.checkpoints = cursor.checkpoints ∧ o.config.cursor.WellFormed := by
  intro g env cursor
  have hfirst : (Cursor.ofInput ['é', '\n', 'a', 'ß']).advance.WellFormed :=
    (Cursor.onward_advance _).wellFormed (Cursor.wellFormed_ofInput _)
  have hcursor : cursor.WellFormed := (Cursor.onward_advance _).wellFormed hfirst.checkpoint
  obtain ⟨-, hresult⟩ := env.run_wellFormed 6 g ⟨cursor, some (.text ""), 0⟩ hcursor
  obtain ⟨-, hcheckpoints, hwellFormed, -⟩ := hresult _ rfl
  exact ⟨hcursor, _, rfl, rfl, rfl, hcheckpoints, hwellFormed⟩

end Environment

end ParserAlgebra
