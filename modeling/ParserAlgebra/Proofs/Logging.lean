import ParserAlgebra.Proofs.Raising

/-!
# Errors are made once and are final

An error is logged when it is made, and nothing else is logged at level `debug` but the matches of
traced grammars. So the records of a run tell how many errors have been made in it: one if it ends
with an error, which is the one that was made, and none if it does not. No combinator gives an error
up or makes another one of it: the error that a part ends with is what the whole ends with.
-/

namespace ParserAlgebra

variable {σ : Type}

/-- A grammar that is not traced, and neither is anything that it involves. -/
def Store.Untraced (store : Store σ) : Grammar σ → Prop :=
  store.Throughout fun q => ∀ label item, q ≠ .trace label item

namespace Verbosity

variable {v : Verbosity}

theorem filter_record_debug (message : String) :
    (v.record .debug message).filter (·.level = .debug) = v.record .debug message := by
  unfold record
  split <;> rfl

theorem filter_record_trace (message : String) :
    (v.record .trace message).filter (·.level = .debug) = [] := by
  unfold record
  split <;> rfl

end Verbosity

/-- The records of level `debug`. -/
def Outcome.debugRecords (o : Outcome σ) : List LogRecord :=
  o.records.filter (·.level = .debug)

/-- An outcome whose records tell of one error, the one that it ends with, which is among those
`made`; if it ends with no error, they tell of none. -/
def Outcome.LogsItsError (env : Environment σ) (made : ParseError → Prop) (o : Outcome σ) : Prop :=
  match o.verdict with
  | .failed e => made e ∧ o.debugRecords = env.verbosity.record .debug e.summary
  | _ => o.debugRecords = []

/-- A run whose records tell of the error that it ends with, and of no other one. -/
abbrev LogsOnce (env : Environment σ) (made : ParseError → Prop) (r : Except Stop (Outcome σ)) :
    Prop :=
  Ends True (Outcome.LogsItsError env made) r

namespace Outcome

variable {env : Environment σ} {made made' : ParseError → Prop} {o o' : Outcome σ}

theorem LogsItsError.congr (h : o.LogsItsError env made) (hverdict : o'.verdict = o.verdict)
    (hrecords : o'.debugRecords = o.debugRecords) : o'.LogsItsError env made := by
  unfold LogsItsError at h ⊢
  rw [hverdict, hrecords]
  exact h

theorem LogsItsError.imp (h : o.LogsItsError env made)
    (hmade : ∀ e, o.verdict = .failed e → made e → made' e) : o.LogsItsError env made' := by
  obtain ⟨verdict, config, records⟩ := o
  cases verdict with
  | matched => exact h
  | mismatched => exact h
  | failed e => exact ⟨hmade e rfl h.1, h.2⟩

theorem debugRecords_after {earlier : List LogRecord}
    (h : earlier.filter (·.level = .debug) = []) (o : Outcome σ) :
    (o.after earlier).debugRecords = o.debugRecords := by
  rw [debugRecords, after, List.filter_append, h, List.nil_append, debugRecords]

theorem LogsItsError.after (h : o.LogsItsError env made) {earlier : List LogRecord}
    (hearlier : earlier.filter (·.level = .debug) = []) :
    (o.after earlier).LogsItsError env made :=
  h.congr rfl (debugRecords_after hearlier o)

theorem logsOnce_andThen {next : Step σ} (ho : o.LogsItsError env made)
    (hnext : o.verdict = .matched → LogsOnce env made (next o.config)) :
    LogsOnce env made (o.andThen next) := by
  obtain ⟨verdict, config, records⟩ := o
  cases verdict with
  | matched => exact Ends.map (Ends.imp (hnext rfl) id fun _ h => h.after ho)
  | mismatched => exact ho
  | failed e => exact ho

end Outcome

namespace Environment

variable {env : Environment σ} {made : ParseError → Prop} {o : Outcome σ} {n : Nat}
  {g : Grammar σ} {c d : Config σ} {start : Position}

/-- The one way in which errors are made, and logged. -/
theorem logsOnce_raise {kind : ErrorKind} {message : String} {expectation : Expectation}
    {reported : Position}
    (hmade : ∀ e, ParseError.locate kind message expectation start reported c.cursor = .ok e →
      made e) : LogsOnce env made (env.raise kind message expectation start reported c) := by
  unfold raise
  cases hlocate : ParseError.locate kind message expectation start reported c.cursor with
  | error f => trivial
  | ok e => exact ⟨hmade e hlocate, Verbosity.filter_record_debug _⟩

theorem logsOnce_raiseFor {kind : ErrorKind} {message : String}
    (hmade : ∀ e, env.Blames g kind message start c.cursor.position c.cursor e → made e) :
    LogsOnce env made (env.raiseFor kind message g start c) :=
  Ends.bind_of_eq fun _ hx => logsOnce_raise fun e he => hmade e ((blames_iff_locate hx).2 he)

theorem logsOnce_act {kind : Kind} {action : Action σ} {args : Arguments}
    (hmade : ∀ failure e, env.Refuses g kind action args start c failure e → made e) :
    LogsOnce env made (env.act g kind action args start c) := by
  unfold act
  dsimp only
  split
  · exact rfl
  · refine Ends.bind_of_eq fun x hx => logsOnce_raise fun e he => ?_
    exact hmade _ e ⟨‹_›, (blames_iff_locate hx).2 he⟩

theorem logsOnce_orElse {message : String} {tried : Grammar σ} {next : Step σ}
    (ho : o.LogsItsError env made) (hmade : ∀ e, env.Oversteps message tried start o e → made e)
    (hnext : o.verdict = .mismatched → o.config.cursor.offset = start.offset →
      LogsOnce env made (next o.config)) :
    LogsOnce env made (env.orElse message tried start o next) := by
  by_cases hmismatched : o.verdict = .mismatched
  · have hnone : o.debugRecords = [] := by
      unfold Outcome.LogsItsError at ho
      rwa [hmismatched] at ho
    by_cases hstayed : o.config.cursor.offset = start.offset
    · rw [orElse_of_mismatched hmismatched hstayed]
      exact Ends.map (Ends.imp (hnext hmismatched hstayed) id fun _ h => h.after hnone)
    · rw [orElse, hmismatched]
      dsimp only
      rw [if_pos hstayed]
      have hraise : LogsOnce env made (env.raiseFor .consumed message tried start o.config) :=
        logsOnce_raiseFor fun e he => hmade e ⟨hmismatched, hstayed, he⟩
      exact Ends.map (Ends.imp hraise id fun _ h => h.after hnone)
  · rw [orElse_of_not_mismatched hmismatched]
    exact ho

/-- The rounds are looked at where the iteration comes to them. -/
theorem logsOnce_iterate (step : (Grammar σ → Step σ) → Step σ) {blamed : Grammar σ}
    (hstep : ∀ d, env.ComesTo n g c (fun run => step run d) →
      LogsOnce env made (step (env.run n) d))
    (hinterruptible : ∀ d, env.Interruptible n fun run => step run d)
    (hmade : ∀ d o e, env.ComesTo n g c (fun run => step run d) → step (env.run n) d = .ok o →
      env.Oversteps iterationConsumed blamed d.cursor.position o e → made e)
    {k owed : Nat}
    (hcomes : env.ComesTo n g c fun run => env.iterate blamed (step run) k owed d) :
    LogsOnce env made (env.iterate blamed (step (env.run n)) k owed d) := by
  induction k generalizing owed d with
  | zero => trivial
  | succ k ih =>
      simp only [iterate] at hcomes
      rw [iterate]
      have hround := hcomes.first
      refine Ends.bind_of_eq fun o ho => ?_
      have hlogs := (hstep d hround).of_eq_ok ho
      have hstop : LogsOnce env made
          (env.orElse iterationConsumed blamed d.cursor.position o fun c =>
            .ok (if owed = 0 then c.matched else c.mismatched)) := by
        refine logsOnce_orElse hlogs (fun e he => hmade d o e hround ho he) fun _ _ => ?_
        by_cases howed : owed = 0
        · rw [if_pos howed]
          exact rfl
        · rw [if_neg howed]
          exact rfl
      have hrest := hcomes.second (hinterruptible d) ho
      obtain ⟨verdict, config, records⟩ := o
      cases verdict with
      | matched =>
          dsimp only at hrest ⊢
          split at hrest
          · rw [if_pos ‹_›]
            by_cases howed : owed ≤ 1
            · rw [if_pos howed]
              exact hlogs
            · rw [if_neg howed]
              exact hlogs
          · rw [if_neg ‹_›]
            exact Ends.map (Ends.imp (ih hrest.map) id fun _ h => h.after hlogs)
      | mismatched => exact hstop
      | failed e => exact hstop

section Parts

theorem logsOnce_runInto {kind : Kind} {h : Grammar σ}
    (hlogs : ∀ d, env.RunsPart n g c h d → LogsOnce env made (env.run n h d))
    (hcomes : env.ComesTo n g c fun run => runInto (run h) kind d) :
    Ends True (fun p => p.2.LogsItsError env made) (runInto (env.run n h) kind d) :=
  Ends.bind (hlogs _ hcomes.first.runsPart) fun _ ho => ho

theorem logsOnce_runAll {parts : List (Kind × Grammar σ)}
    (hlogs : ∀ part ∈ parts, ∀ d, env.RunsPart n g c part.2 d →
      LogsOnce env made (env.run n part.2 d))
    (hcomes : env.ComesTo n g c fun run => runAll run parts d) :
    Ends True (fun p => p.2.LogsItsError env made) (runAll (env.run n) parts d) := by
  induction parts generalizing d with
  | nil => exact rfl
  | cons part parts ih =>
      obtain ⟨hfirst, hrest⟩ := List.forall_mem_cons.1 hlogs
      obtain ⟨kind, h⟩ := part
      simp only [runAll] at hcomes
      rw [runAll]
      refine Ends.bind_of_eq fun p hp => ?_
      have hp' := (logsOnce_runInto hfirst hcomes.first).of_eq_ok hp
      have hcomes' := hcomes.second (env.interruptible_runInto n h kind d) hp
      obtain ⟨v, verdict, config, records⟩ := p
      cases verdict with
      | matched => exact Ends.bind (ih hrest hcomes'.first) fun q hq => hq.after hp'
      | mismatched => exact hp'
      | failed e => exact hp'

theorem logsOnce_runAny {parts : List (Kind × Grammar σ)}
    (hlogs : ∀ part ∈ parts, ∀ d, env.RunsPart n g c part.2 d →
      LogsOnce env made (env.run n part.2 d))
    (hmade : ∀ part ∈ parts, ∀ d o e, env.RunsPart n g c part.2 d → env.run n part.2 d = .ok o →
      env.Oversteps branchConsumed part.2 start o e → made e) {i : Nat}
    (hcomes : env.ComesTo n g c fun run => env.runAny run start i parts d) :
    Ends True (fun p => p.2.LogsItsError env made) (env.runAny (env.run n) start i parts d) := by
  induction parts generalizing i d with
  | nil => exact rfl
  | cons part parts ih =>
      obtain ⟨hfirst, hrest⟩ := List.forall_mem_cons.1 hlogs
      obtain ⟨hmadeFirst, hmadeRest⟩ := List.forall_mem_cons.1 hmade
      obtain ⟨kind, h⟩ := part
      simp only [runAny] at hcomes
      rw [runAny]
      refine Ends.bind_of_eq fun p hp => ?_
      have hp' := (logsOnce_runInto hfirst hcomes.first).of_eq_ok hp
      have hcomes' := hcomes.second (env.interruptible_runInto n h kind d) hp
      obtain ⟨o, ho, hpure⟩ := exists_of_bind_eq_ok hp
      cases hpure
      obtain ⟨verdict, config, records⟩ := o
      cases verdict with
      | matched => exact hp'
      | mismatched =>
          dsimp only [Outcome.withSlot] at hcomes' ⊢
          by_cases hmoved : config.cursor.offset ≠ start.offset
          · rw [if_pos hmoved]
            have hraise : LogsOnce env made
                (env.raiseFor .consumed branchConsumed h start { config with slot := d.slot }) := by
              refine logsOnce_raiseFor fun e he => ?_
              exact hmadeFirst _ _ e hcomes.first.first.runsPart ho ⟨rfl, hmoved, he⟩
            exact Ends.bind hraise fun _ hraised => hraised.after hp'
          · rw [if_neg hmoved]
            simp only [hmoved, ↓reduceIte] at hcomes'
            exact Ends.bind (ih hrest hmadeRest hcomes'.first) fun _ hrest => hrest.after hp'
      | failed e => exact hp'

end Parts

/-- What a speculation records before it goes back is of level `trace`. -/
theorem ends_filter_backtrackNote (g : Grammar σ) (c : Config σ) (o : Outcome σ) :
    Ends True (fun note => note.filter (·.level = .debug) = []) (env.backtrackNote g c o) := by
  unfold backtrackNote
  split
  · split
    · exact Verbosity.filter_record_trace _
    · trivial
  · exact rfl

theorem logsOnce_settle (h : c.cursor.checkpoint.Onward o.config.cursor)
    (ho : o.LogsItsError env made) (g : Grammar σ) (restores : Bool) :
    LogsOnce env made (env.settle g restores c o) := by
  by_cases hmatched : o.verdict = .matched
  · rw [env.settle_of_matched h hmatched]
    exact ho
  · rw [env.settle_of_not_matched h hmatched]
    refine Ends.map (Ends.imp (ends_filter_backtrackNote g c o) id fun note hnote => ?_)
    refine ho.congr rfl ?_
    simp only [Outcome.debugRecords, List.filter_append, hnote, List.append_nil]

theorem logsOnce_settleExcept (h : c.cursor.checkpoint.Onward o.config.cursor)
    (ho : o.LogsItsError env made) (mayAct : Bool) (forbidden : Value) :
    LogsOnce env made (env.settleExcept mayAct forbidden c o) := by
  by_cases hmatched : o.verdict = .matched
  · by_cases hslot : o.config.slot = some forbidden
    · rw [env.settleExcept_of_forbidden h hmatched hslot]
      unfold Outcome.LogsItsError at ho
      rw [hmatched] at ho
      change List.filter _ (_ ++ _) = []
      rw [List.filter_append, Verbosity.filter_record_trace, List.append_nil]
      exact ho
    · rw [env.settleExcept_of_not_forbidden h hmatched hslot]
      exact ho
  · rw [env.settleExcept_of_not_matched h hmatched]
    exact ho

/-- A separator and the item behind it, if both are logged where the level comes to them. -/
theorem logsOnce_separated {item separator : Grammar σ}
    (hitem : ∀ d, env.RunsPart n g c item d → LogsOnce env made (env.run n item d))
    (hseparator : ∀ d, env.RunsPart n g c separator d → LogsOnce env made (env.run n separator d))
    (hcomes : env.ComesTo n g c fun run => separated run item separator d) :
    LogsOnce env made (separated (env.run n) item separator d) := by
  refine Ends.bind_of_eq fun o ho => ?_
  have hlogs := (hseparator _ hcomes.first.runsPart).of_eq_ok ho
  refine Outcome.logsOnce_andThen (o := o.withSlot d.slot) hlogs fun hmatched => ?_
  exact hitem _ ((hcomes.second (env.interruptible_run n _ _) ho).andThen hmatched).runsPart

/-- A level of a run logs the error that it ends with, and no other one, if the parts that it runs
do so. The error is one of the parts or is made by the grammar itself. -/
theorem logsOnce_runLevel (hg : ∀ label item, g ≠ .trace label item)
    (hlogs : ∀ h ∈ env.store.components g, ∀ d, env.RunsPart n g c h d →
      LogsOnce env made (env.run n h d))
    (hmade : ∀ e, env.Makes n g c e → made e) : LogsOnce env made (env.run (n + 1) g c) := by
  have hself : env.ComesTo n g c fun run => env.runLevel run n g c := fun _ _ _ hstop => hstop
  have hpart {h : Grammar σ} (hh : h ∈ env.store.components g) (d : Config σ)
      (hruns : env.RunsPart n g c h d) : LogsOnce env made (env.run n h d) := hlogs h hh d hruns
  cases g with
  | accept p =>
      rw [run, runLevel]
      split
      · exact rfl
      · exact rfl
  | expect p =>
      rw [run, runLevel]
      split
      · exact rfl
      · exact logsOnce_raiseFor fun e he => hmade e (.expect ‹_› he)
  | literal s =>
      rw [run, runLevel]
      split
      · exact rfl
      · exact rfl
  | pattern source matcher =>
      rw [run, runLevel]
      split
      · exact rfl
      · exact rfl
  | succeed => exact rfl
  | fail => exact rfl
  | sequence a b =>
      simp only [runLevel] at hself
      refine Ends.bind_of_eq fun o ho => ?_
      have ho' := (hpart (.head _) c hself.first.runsPart).of_eq_ok ho
      refine Outcome.logsOnce_andThen ho' fun hmatched => ?_
      have hsecond := (hself.second (env.interruptible_run n a c) ho).andThen hmatched
      exact hpart (.tail _ (.head _)) o.config hsecond.runsPart
  | choice a b =>
      simp only [runLevel] at hself
      refine Ends.bind_of_eq fun o ho => ?_
      have ho' := (hpart (.head _) c hself.first.runsPart).of_eq_ok ho
      refine logsOnce_orElse ho' (fun e he => hmade e (.choice ho he)) fun hmismatched hstayed => ?_
      have hsecond := (hself.second (env.interruptible_run n a c) ho).orElse hmismatched hstayed
      exact hpart (.tail _ (.head _)) o.config hsecond.runsPart
  | repetition atLeast item =>
      simp only [runLevel] at hself
      refine logsOnce_iterate (fun run => run item)
        (fun d hcomes => hpart (.head _) d hcomes.runsPart) (env.interruptible_run n item) ?_ hself
      exact fun d o e hcomes ho he => hmade e (.repetition hcomes.runsPart ho he)
  | option item =>
      simp only [runLevel] at hself
      refine Ends.bind_of_eq fun o ho => ?_
      have ho' := (hpart (.head _) c hself.first.runsPart).of_eq_ok ho
      refine logsOnce_orElse ho' (fun e he => hmade e (.option ho he)) fun _ _ => ?_
      exact rfl
  | sepBy item separator =>
      simp only [runLevel] at hself
      refine Ends.bind_of_eq fun o ho => ?_
      have ho' := (hpart (.head _) c hself.first.runsPart).of_eq_ok ho
      refine Outcome.logsOnce_andThen ho' fun hmatched => ?_
      have hrest := (hself.second (env.interruptible_run n item c) ho).andThen hmatched
      refine logsOnce_iterate (fun run => separated run item separator) (fun d hcomes => ?_)
        (env.interruptible_separated n item separator) ?_ hrest
      · exact logsOnce_separated (hpart (.head _)) (hpart (.tail _ (.head _))) hcomes
      · exact fun d o e hcomes ho he => hmade e (.sepBy hcomes.first.runsPart ho he)
  | discard item =>
      simp only [runLevel] at hself
      exact Ends.bind (hpart (.head _) _ hself.first.runsPart) fun _ ho => ho
  | except kind item forbidden =>
      simp only [runLevel] at hself
      refine Ends.bind_of_eq fun o ho => ?_
      have honward := (env.orderly_run n item _).of_eq_ok ho
      have ho' := (hpart (.head _) _ hself.first.runsPart).of_eq_ok ho
      exact logsOnce_settleExcept honward ho' _ forbidden
  | attempt item =>
      simp only [runLevel] at hself
      refine Ends.bind_of_eq fun o ho => ?_
      have honward := (env.orderly_run n item _).of_eq_ok ho
      have ho' := (hpart (.head _) _ hself.first.runsPart).of_eq_ok ho
      exact logsOnce_settle honward ho' item _
  | attemptPure item =>
      simp only [runLevel] at hself
      refine Ends.bind_of_eq fun o ho => ?_
      have honward := (env.orderly_run n item _).of_eq_ok ho
      have ho' := (hpart (.head _) _ hself.first.runsPart).of_eq_ok ho
      exact logsOnce_settle honward ho' item _
  | strict message item =>
      simp only [runLevel] at hself
      refine Ends.bind_of_eq fun o ho => ?_
      have ho' := (hpart (.head _) c hself.first.runsPart).of_eq_ok ho
      obtain ⟨verdict, config, records⟩ := o
      cases verdict with
      | matched => exact ho'
      | mismatched =>
          have hraise : LogsOnce env made
              (env.raiseFor .strict message item c.cursor.position config) :=
            logsOnce_raiseFor fun e he => hmade e (.strict ho rfl he)
          exact Ends.map (Ends.imp hraise id fun _ h => h.after ho')
      | failed e => exact ho'
  | trace label item => exact absurd rfl (hg label item)
  | token item =>
      simp only [runLevel] at hself
      refine Ends.bind (hpart (.head _) c hself.first.runsPart) fun o ho => ?_
      exact Outcome.logsOnce_andThen ho fun _ => rfl
  | shared item => exact hpart (.head _) c hself.runsPart
  | reference name item => exact hpart (.head _) c hself.runsPart
  | define name item => exact hpart (.head _) c hself.runsPart
  | rename name rank item => exact hpart (.head _) c hself.runsPart
  | all kind action parts =>
      simp only [runLevel] at hself
      refine Ends.bind_of_eq fun p hp => ?_
      have hp' := (logsOnce_runAll (fun part hmem => hpart (List.mem_map_of_mem hmem))
        hself.first).of_eq_ok hp
      refine Outcome.logsOnce_andThen hp' fun hmatched => logsOnce_act fun failure e he => ?_
      exact hmade e (.all hp hmatched he)
  | any kind action parts =>
      simp only [runLevel] at hself
      refine Ends.bind_of_eq fun p hp => ?_
      have hp' := (logsOnce_runAny (fun part hmem => hpart (List.mem_map_of_mem hmem))
        (fun part hmem d o e hruns ho he => hmade e (.alternative hmem hruns ho he))
        hself.first).of_eq_ok hp
      obtain ⟨found, o⟩ := p
      cases found with
      | none => exact hp'
      | some found =>
          refine Outcome.logsOnce_andThen hp' fun hmatched => logsOnce_act fun failure e he => ?_
          exact hmade e (.any hp hmatched he)
  | handle slot =>
      simp only [runLevel] at hself
      rw [run, runLevel]
      cases hslot : env.store.handle? slot with
      | none => exact logsOnce_raise fun e he => hmade e (.handle hslot he)
      | some rule =>
          simp only [hslot] at hself
          exact hpart (Option.mem_toList.2 hslot) c hself.runsPart
  | fixed hold name rule =>
      simp only [runLevel] at hself
      rw [run, runLevel]
      cases hrule : env.store.fixed? rule with
      | none => exact logsOnce_raise fun e he => hmade e (.fixed hrule he)
      | some body =>
          simp only [hrule] at hself
          exact hpart (Option.mem_toList.2 hrule) c hself.runsPart

/-- The records of a run of an untraced grammar tell of one error if it ends with one, which was
made in the course of the run, and of none if it does not. -/
theorem logsOnce_run (n : Nat) (g : Grammar σ) (c : Config σ) (hg : env.store.Untraced g) :
    LogsOnce env (env.MadeWithin n g c) (env.run n g c) := by
  induction n generalizing g c with
  | zero => trivial
  | succ n ih =>
      have hlevel : LogsOnce env (fun e => env.Makes n g c e ∨ env.MadeWithin (n + 1) g c e)
          (env.run (n + 1) g c) := by
        refine logsOnce_runLevel hg.self (fun h hh d hruns => ?_) fun _ => .inl
        refine Ends.imp (ih h d (hg.component hh)) id fun o ho => ?_
        exact ho.imp fun e _ hmade => .inr (hmade.of_runsPart hh hruns)
      refine Ends.of_ok fun o ho => (hlevel.of_eq_ok ho).imp fun e he hmade => ?_
      rcases hmade with hmakes | hmade
      · exact .of_makes hmakes ⟨o, ho, he⟩
      · exact hmade

/-- What is logged at level `debug` in a run of an untraced grammar. The error that it ends with is
logged once. Something involved, run on the way, has made it and ended with it; `Makes` tells what
is in it. An error that anything run on the way ends with is the one that the whole ends with. A run
that does not end with an error has made none. -/
theorem debugRecords_of_untraced (hdebug : env.verbosity.shows .debug)
    (hg : env.store.Untraced g) (ho : env.run n g c = .ok o) :
    (∀ e, o.verdict = .failed e →
      o.debugRecords = [⟨.debug, e.message ++ " at " ++ toString e.row ++ ":" ++
        toString e.column ++ " (expecting " ++ e.expectation.text ++ ")"⟩] ∧
      (∃ m q d, env.RunsWithin (m + 1) q d n g c ∧ env.Makes m q d e ∧
        Fails e (env.run (m + 1) q d) ∧ env.store.Involves g q ∧ env.store.Raises q e.kind) ∧
      e.kind ≠ .trailing) ∧
    (∀ m q d e, env.RunsWithin m q d n g c → Fails e (env.run m q d) → o.verdict = .failed e) ∧
    ((∀ e, o.verdict ≠ .failed e) → o.debugRecords = []) := by
  have hlogs := (logsOnce_run n g c hg).of_eq_ok ho
  unfold Outcome.LogsItsError at hlogs
  refine ⟨fun e he => ?_, fun m q d e hwithin hfails => ?_, fun hne => ?_⟩
  · rw [he] at hlogs
    obtain ⟨⟨m, q, d, hwithin, hmakes, hfails, hq⟩, hrecords⟩ := hlogs
    have hraises := hmakes.raises
    refine ⟨?_, ⟨m, q, d, hwithin, hmakes, hfails, hq, hraises⟩, ?_⟩
    · rw [hrecords, Verbosity.record, if_pos hdebug]
      rfl
    · intro htrailing
      exact env.store.not_raises_trailing q (htrailing ▸ hraises)
  · obtain ⟨o', ho', he⟩ := hwithin.fails hfails
    cases ho.symm.trans ho'
    exact he
  · cases hverdict : o.verdict with
    | matched => rwa [hverdict] at hlogs
    | mismatched => rwa [hverdict] at hlogs
    | failed e => exact absurd hverdict (hne e)

/-- The error of an innermost rule comes out of a speculation, which goes back and logs that at a
level of its own. -/
theorem debugRecords_of_untraced_nested :
    let rule : Grammar Nat :=
      .sequence (.literal "(") (.choice (.attempt (.handle ⟨0, 0⟩)) (.expect (.symbol ')')))
    let env : Environment Nat := ⟨⟨⟨[some [some (.rule rule)]]⟩, []⟩, .trace⟩
    let c : Config Nat := ⟨.ofInput ['(', '(', 'x'], some (.text ""), 0⟩
    env.verbosity.shows .debug ∧ env.store.Untraced (.handle ⟨0, 0⟩) ∧
      ∃ o e, env.run 15 (.handle ⟨0, 0⟩) c = .ok o ∧ o.verdict = .failed e ∧
        o.records.length = 3 ∧
          o.debugRecords = [⟨.debug, "unexpected symbol at 1:3 (expecting ')')"⟩] ∧
            ∃ q, env.store.Involves (.handle ⟨0, 0⟩) q ∧ env.store.Raises q .expected := by
  intro rule env c
  have hslot : env.store.handle? ⟨0, 0⟩ = some rule := rfl
  have huntraced : env.store.Untraced (.handle ⟨0, 0⟩) := by
    refine Store.Throughout.of_closed [.handle ⟨0, 0⟩, rule, .literal "(",
      .choice (.attempt (.handle ⟨0, 0⟩)) (.expect (.symbol ')')), .attempt (.handle ⟨0, 0⟩),
      .expect (.symbol ')')] List.mem_cons_self ?_ ?_
    · simp [Store.components, Grammar.writtenParts, hslot, rule]
    · simp [rule]
  obtain ⟨o, e, ho, hverdict, hlength, hkind, hmessage, hrow, hcolumn, htext⟩ :
      ∃ o e, env.run 15 (.handle ⟨0, 0⟩) c = .ok o ∧ o.verdict = .failed e ∧
        o.records.length = 3 ∧ e.kind = .expected ∧ e.message = "unexpected symbol" ∧ e.row = 1 ∧
          e.column = 3 ∧ e.expectation.text = "')'" :=
    ⟨_, _, rfl, rfl, rfl, rfl, rfl, rfl, rfl, rfl⟩
  obtain ⟨hfailed, -, -⟩ := debugRecords_of_untraced rfl huntraced ho
  obtain ⟨hrecords, ⟨_, q, _, -, -, -, hq, hraises⟩, -⟩ := hfailed e hverdict
  rw [hmessage, hrow, hcolumn, htext] at hrecords
  rw [hkind] at hraises
  exact ⟨rfl, huntraced, o, e, ho, hverdict, hlength, hrecords, q, hq, hraises⟩

end Environment

end ParserAlgebra
