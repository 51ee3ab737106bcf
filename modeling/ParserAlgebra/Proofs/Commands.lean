import ParserAlgebra.Proofs.Conduct
import ParserAlgebra.Proofs.Upkeep

/-!
# Sessions in the course of commands

Every command takes a session that is in order to one that is in order. A fixed point that a command
binds has its rule from then on. While its body is built the rule is missing, so its recursive
occurrence is not defined when it is tried; so it stays if the body is refused.
-/

namespace ParserAlgebra

namespace Environment

variable {σ : Type} (env : Environment σ) {rule : RuleId}

theorem run_fixed_of_some {g : Grammar σ} (h : env.store.fixed? rule = some g) (n : Nat)
    (hold : Hold) (name : String) (c : Config σ) :
    env.run (n + 1) (.fixed hold name rule) c = env.run n g c := by
  rw [run, runLevel, h]

/-- A reference to a rule that is missing takes no input and leaves the slot and the state as they
are. -/
theorem run_fixed_of_none (h : env.store.fixed? rule = none) (n : Nat) (hold : Hold) (name : String)
    {c : Config σ} (hc : c.cursor.place.IsGenuine c.cursor.input) :
    ∃ e records, env.run (n + 1) (.fixed hold name rule) c = .ok ⟨.failed e, c, records⟩ ∧
      e.kind = .undefined := by
  obtain ⟨e, he⟩ := ParseError.exists_locate hc hc .undefined
    "grammar handle used before definition" .unknown
  refine ⟨e, env.verbosity.record .debug e.summary, ?_, ?_⟩
  · rw [run, runLevel, h]
    dsimp only
    unfold raiseUndefined raise
    rw [show c.cursor.position = c.cursor.place.position from rfl, he]
    rfl
  · obtain ⟨found, excerpt, -, -, rfl⟩ := ParseError.eq_of_locate he
    rfl

end Environment

/-- What the recursive occurrence of a fixed point does on an input while its body is being built:
it is not defined, has taken no input and left the slot and the journal as they were. -/
def ProbeReport.IsUndefined (kind : Kind) (input : String) (journal : Journal)
    (report : ProbeReport) : Prop :=
  ∃ e, e.kind = .undefined ∧
    report.run = ⟨.failed e, some kind.default, .ofInput input.toList, journal⟩

namespace Session

variable {α β : Type} {s : Session}

namespace Job

section Quiet

theorem quiet_optionMapM {f : α → Job β} (hf : ∀ a, Quiet (f a)) (a? : Option α) :
    Quiet (a?.mapM f) := by
  cases a? with
  | none => exact quiet_pure _
  | some a => exact (hf a).bind fun _ => quiet_pure _

theorem quiet_moveTo_cursor (move : Cursor → Cursor) :
    Quiet (session >>= fun s => moveTo (move s.cursor)) :=
  .session_bind fun _ => quiet_moveTo _

end Quiet

end Job

open Job

theorem evolving_write (hs : s.Sound) (kind : Kind) (g : Blueprint) (definitions : Definitions)
    (context : Option Rank) : Evolving (carryOut (.write kind g definitions context)) s := by
  refine evolving_build_quiet hs kind g fun g' => .session_bind fun s' => ?_
  refine (quiet_written _).bind fun _ => (quiet_written _).bind fun _ => ?_
  refine (quiet_written _).bind fun _ => .bind ?_ fun _ => quiet_pure _
  exact quiet_optionMapM (fun _ => (quiet_written _).bind fun _ => quiet_pure _) context

theorem evolving_locate (hs : s.Sound) (kind : Kind) (g : Blueprint) (error : ErrorKind)
    (message input : String) (start : PositionRef) (cursor : Nat) (reported : Option PositionRef) :
    Evolving (carryOut (.locate kind g error message input start cursor reported)) s := by
  refine evolving_build_quiet hs kind g fun g' => (quiet_resolve _ start).bind fun _ => ?_
  refine .bind ?_ fun _ => (quiet_attempt _).bind fun _ => (quiet_orFault _).bind fun _ => ?_
  · cases reported with
    | none => exact quiet_pure _
    | some p => exact quiet_resolve _ p
  · refine quiet_read.bind fun _ => .bind ?_ fun _ => quiet_pure _
    exact quiet_modify fun st => .refl st.1

theorem evolving_parse (hs : s.Sound) (kind : Kind) (g : Blueprint) (input : String)
    (journal : Option Journal) : Evolving (carryOut (.parse kind g input journal)) s :=
  evolving_build_quiet hs kind g fun _ => (quiet_setJournal journal).bind fun _ =>
    .session_bind fun _ => (quiet_conclude _).bind fun _ => quiet_pure _

theorem evolving_parseComplete (hs : s.Sound) (kind : Kind) (g : Blueprint) (input : String)
    (journal : Option Journal) : Evolving (carryOut (.parseComplete kind g input journal)) s :=
  evolving_build_quiet hs kind g fun _ => (quiet_setJournal journal).bind fun _ =>
    .session_bind fun _ => (quiet_conclude _).bind fun _ => quiet_pure _

theorem evolving_run (hs : s.Sound) (kind : Kind) (g : Blueprint) (input : Option String)
    (journal : Option Journal) (offset : Option Nat) (slot : SlotChoice) :
    Evolving (carryOut (.run kind g input journal offset slot)) s := by
  refine evolving_build_quiet hs kind g fun g' => (quiet_setJournal journal).bind fun _ => ?_
  refine .update_bind (fun _ => ⟨rfl, rfl, rfl, rfl⟩) ?_
  have hran (slot' : Option Value) :
      Quiet (runHere g' slot' >>= fun report => pure (Answer.ran report)) :=
    (quiet_runHere g' slot').bind fun _ => quiet_pure _
  cases slot with
  | fresh => exact (quiet_pure _).bind hran
  | absent => exact (quiet_pure _).bind hran
  | holding v =>
      dsimp only
      split
      · exact (quiet_pure _).bind hran
      · exact .bind (quiet_refuse _) hran

section Fix

variable {rule : RuleId}

theorem meets_attempt {f : Environment Journal → Except Stop α} {done : α → Prop}
    {refused : Refusal → Session → Prop}
    (h : ∀ verbosity, ∃ a, f ⟨s.store, verbosity⟩ = .ok a ∧ done a) :
    Meets (attempt f) s (fun a s' => s.Inert s' ∧ done a) refused := by
  apply meets_session_bind
  refine meets_read_bind fun verbosity => ?_
  obtain ⟨a, ha, hdone⟩ := h verbosity
  rw [ha]
  exact meets_pure ⟨.refl s, hdone⟩

theorem meets_runHere {g : Grammar Journal} {slot : Option Value}
    {done : RunReport → Session → Prop} {refused : Refusal → Session → Prop}
    (h : ∀ verbosity, ∃ o, (⟨s.store, verbosity⟩ : Environment Journal).run nestingLimit g
      ⟨s.cursor, slot, s.journal⟩ = .ok o ∧ ∀ s', s.Inert s' →
        done ⟨o.verdict, o.config.slot, o.config.cursor, o.config.state⟩ s') :
    Meets (runHere g slot) s done refused := by
  apply meets_session_bind
  have hconclude : Meets (conclude fun env => env.run nestingLimit g ⟨s.cursor, slot, s.journal⟩) s
      (fun o s' => s.Inert s' ∧ ∀ s', s.Inert s' →
        done ⟨o.verdict, o.config.slot, o.config.cursor, o.config.state⟩ s') refused := by
    refine (meets_attempt h).bind fun o s' ho => ?_
    exact fun _ _ => ⟨ho.1.trans ⟨rfl, rfl, rfl, rfl⟩, ho.2⟩
  refine hconclude.bind fun o s' ho => ?_
  apply meets_update_bind
  exact meets_pure (ho.2 _ (ho.1.trans ⟨rfl, rfl, rfl, rfl⟩))

theorem meets_probe (hmissing : s.store.fixed? rule = none) (kind : Kind) (name input : String)
    {refused : Refusal → Session → Prop} :
    Meets (probe kind (.fixed .borrower name rule) input) s
      (fun report s' => s.Inert s' ∧ report.IsUndefined kind input s.journal) refused := by
  apply meets_update_bind
  have hran : Meets (runHere (.fixed .borrower name rule) (some kind.default))
      { s with cursor := .ofInput input.toList }
      (fun report s' => s.Inert s' ∧ ∃ e, e.kind = .undefined ∧
        report = ⟨.failed e, some kind.default, .ofInput input.toList, s.journal⟩) refused := by
    refine meets_runHere fun verbosity => ?_
    obtain ⟨e, records, hrun, he⟩ := Environment.run_fixed_of_none ⟨s.store, verbosity⟩ hmissing
      999999 .borrower name (c := ⟨.ofInput input.toList, some kind.default, s.journal⟩)
      (Cursor.wellFormed_ofInput input.toList).place
    exact ⟨_, hrun, fun s' hs' =>
      ⟨⟨hs'.store, hs'.names, hs'.arenas, hs'.texts⟩, e, he, rfl⟩⟩
  refine hran.bind fun report s' hreport => meets_session_bind ?_
  obtain ⟨text, definitions, hdescribed⟩ :=
    s'.store.exists_describe (.fixed .borrower name rule) .empty
  rw [hdescribed]
  exact meets_pure ⟨hreport.1, hreport.2⟩

theorem meets_mapM_probe (hmissing : s.store.fixed? rule = none) (kind : Kind) (name : String)
    (input : Option String) {refused : Refusal → Session → Prop} :
    Meets (input.mapM (probe kind (.fixed .borrower name rule))) s
      (fun report s' => s.Inert s' ∧ ∀ text, input = some text →
        ∃ probe, report = some probe ∧ probe.IsUndefined kind text s.journal) refused := by
  cases input with
  | none => exact meets_pure ⟨.refl s, nofun⟩
  | some text =>
      refine (meets_probe hmissing kind name text).bind fun report s' hreport => meets_pure ?_
      refine ⟨hreport.1, ?_⟩
      rintro _ ⟨⟩
      exact ⟨report, rfl, hreport.2⟩

/-- The session while the body of a fixed point is being built. -/
def announcing (s : Session) (name : String) (kind : Kind) : Session :=
  { s with
    store := s.store.announce.2
    names := { s.names with leaks := s.names.leaks.set (name, kind) s.store.announce.1 } }

theorem evolves_announcing (hs : s.Sound) (name : String) (kind : Kind) :
    s.Evolves (s.announcing name kind) :=
  .of_same_arenas (Store.Sound.announce hs) s.store.growsTo_announce.rules rfl rfl rfl rfl

/-- What the body of a fixed point is built to, with its own name known inside. -/
def buildBody (s : Session) (name : String) (kind : Kind) (g : Blueprint) :
    Except BuildError (Grammar Journal × Store Journal) :=
  (g.build ((s.announcing name kind).names.within (name, kind) s.store.rules.length) kind).run
    (s.announcing name kind).store

/-- A fixed point that has been bound to its name. Its rule is what its body was built to, and its
recursive occurrence was not defined when it was tried before. -/
structure FixBound (s : Session) (name : String) (kind : Kind) (g : Blueprint)
    (input : Option String) (answer : Answer) (s' : Session) : Prop where
  bound : s'.names.bindings.get? (name, kind) = some (.fixed .owner name s.store.rules.length)
  body : ∃ body store', s.buildBody name kind g = .ok (body, store') ∧
    s'.store.fixed? s.store.rules.length = some body
  probed : ∃ report, answer = .fixed report ∧ ∀ text, input = some text →
    ∃ probe, report = some probe ∧ probe.IsUndefined kind text s.journal

/-- How binding a fixed point to a name ends. The number of its rule is given out at once; if the
body is refused, the rule stays missing. -/
structure Fixes (s : Session) (name : String) (kind : Kind) (g : Blueprint)
    (input : Option String) (answer : Answer) (s' : Session) : Prop where
  announced : s.store.rules.length < s'.store.rules.length
  leaked : s'.names.leaks.get? (name, kind) = some s.store.rules.length
  ended : (∃ e, s.buildBody name kind g = .error e ∧ answer = .refused (.build e) ∧
    s'.names.bindings = s.names.bindings ∧ s'.store.fixed? s.store.rules.length = none) ∨
      s.FixBound name kind g input answer s'

theorem meets_fix (hs : s.Sound) (name : String) (kind : Kind) (g : Blueprint)
    (input : Option String) :
    Meets (fix name kind g input) s
      (fun answer s' => s.Evolves s' ∧ s.Fixes name kind g input answer s')
      fun r s' => s.Evolves s' ∧ s.Fixes name kind g input (.refused r) s' := by
  have hevolves := evolves_announcing hs name kind
  have hmissing : (s.announcing name kind).store.fixed? s.store.announce.1 = none := by
    simp [announcing, Store.fixed?, Store.announce]
  have hannounced : s.store.rules.length < (s.announcing name kind).store.rules.length := by
    simp [announcing, Store.announce]
  have hleaked : (s.announcing name kind).names.leaks.get? (name, kind) =
      some s.store.rules.length := Table.get?_set_self _ _ _
  apply meets_session_bind
  refine meets_update_bind ((meets_mapM_probe hmissing kind name input).bind ?_)
  -- Trying the occurrence is inert, so the body is built where the rule was announced.
  rintro report ⟨cursor, journal, store, names, arenas, texts, positions⟩
    ⟨⟨hstore, hnames, harenas, htexts⟩, hreport⟩
  dsimp only at hstore hnames harenas htexts
  subst hstore hnames harenas htexts
  apply meets_session_bind
  split
  · refine meets_refuse ⟨?_, hannounced, hleaked, .inl ⟨_, ‹_›, rfl, rfl, hmissing⟩⟩
    exact hevolves.inert ⟨rfl, rfl, rfl, rfl⟩
  · rename_i body store' hbuilt
    obtain ⟨hgrows, hsound', hcarries⟩ := Blueprint.adds_build g
      ((s.announcing name kind).names.within (name, kind) s.store.rules.length) kind
        (List.Subset.refl _) _ _ _ hevolves.sound hbuilt
    have hlength := hgrows.rules.length_le
    obtain ⟨hgrows', hsettled, hrule⟩ := Store.settle_of_growsTo_announced hgrows hsound' hcarries
    apply meets_update_bind
    refine meets_pure ⟨.of_same_arenas ?_ hgrows'.rules hgrows'.arenas rfl rfl rfl, ?_, hleaked,
      .inr ⟨Table.get?_set_self _ _ _, ⟨body, store', hbuilt, hrule⟩, report, rfl, hreport⟩⟩
    · refine hsettled.congr (fun _ => rfl) hsettled.stored fun bound hbound => ?_
      rcases Table.mem_values_of_mem_set hbound with hbound | rfl
      · exact hsettled.used bound hbound
      · rintro rule hrule'
        obtain rfl := List.mem_singleton.1 hrule'
        exact Option.isSome_of_mem hrule
    · change s.store.rules.length < (store'.rules.set _ _).length
      rw [List.length_set]
      exact Nat.lt_of_lt_of_le hannounced hlength

end Fix

/-- Every command leaves a session in order, whether it is refused or not. -/
theorem evolving_carryOut (hs : s.Sound) (command : Command) : Evolving (carryOut command) s := by
  cases command with
  | classify | nameSymbols | comparePositions => exact (quiet_pure _).evolving hs
  | write kind g definitions context => exact evolving_write hs kind g definitions context
  | locate kind g error message input start cursor reported =>
      exact evolving_locate hs kind g error message input start cursor reported
  | parse kind g input journal => exact evolving_parse hs kind g input journal
  | parseComplete kind g input journal => exact evolving_parseComplete hs kind g input journal
  | run kind g input journal offset slot => exact evolving_run hs kind g input journal offset slot
  | load input =>
      have hload : Quiet (carryOut (.load input)) :=
        .update_bind (fun _ => ⟨rfl, rfl, rfl, rfl⟩) (quiet_pure _)
      exact hload.evolving hs
  | peek =>
      have hpeek : Quiet (carryOut .peek) := .session_bind fun _ => quiet_pure _
      exact hpeek.evolving hs
  | advance =>
      have hadvance : Quiet (carryOut .advance) :=
        .session_bind fun _ => .update_bind (fun _ => ⟨rfl, rfl, rfl, rfl⟩) (quiet_pure _)
      exact hadvance.evolving hs
  | advanceTo offset => exact (quiet_moveTo_cursor (.advanceTo offset)).evolving hs
  | checkpoint => exact (quiet_moveTo_cursor .checkpoint).evolving hs
  | backtrack =>
      have hbacktrack : Quiet (carryOut .backtrack) :=
        .session_bind fun _ => (quiet_orFault _).bind fun _ => quiet_moveTo _
      exact hbacktrack.evolving hs
  | commit =>
      have hcommit : Quiet (carryOut .commit) :=
        .session_bind fun _ => (quiet_orFault _).bind fun _ => quiet_moveTo _
      exact hcommit.evolving hs
  | rest =>
      have hrest : Quiet (carryOut .rest) := .session_bind fun _ => quiet_pure _
      exact hrest.evolving hs
  | savePosition name =>
      have hsave : Quiet (carryOut (.savePosition name)) :=
        .session_bind fun _ => .update_bind (fun _ => ⟨rfl, rfl, rfl, rfl⟩) (quiet_pure _)
      exact hsave.evolving hs
  | line p =>
      have hline : Quiet (carryOut (.line p)) :=
        .session_bind fun _ => (quiet_resolve _ p).bind fun _ =>
          (quiet_orFault _).bind fun _ => quiet_pure _
      exact hline.evolving hs
  | spanFrom p =>
      have hspan : Quiet (carryOut (.spanFrom p)) :=
        .session_bind fun _ => (quiet_resolve _ p).bind fun _ => quiet_pure _
      exact hspan.evolving hs
  | createArena name => exact evolving_createArena hs name
  | dropArena name => exact (evolving_dropArena hs name).bind fun _ _ h => meets_pure h
  | declareHandle name kind arena => exact evolving_declareHandle hs name kind arena
  | defineHandle name kind g => exact evolving_defineHandle hs name kind g
  | declareText name arena => exact evolving_declareText hs name arena
  | storeText name text => exact evolving_storeText hs name text
  | readText name =>
      have hread : Quiet (carryOut (.readText name)) :=
        .session_bind fun s => (quiet_find name s.texts name).bind fun _ => quiet_pure _
      exact hread.evolving hs
  | bind name kind g => exact evolving_bind hs name kind g
  | fix name kind g input =>
      exact (meets_fix hs name kind g input).imp (fun _ _ h => h.1) fun _ _ h => h.1
  | unbind name kind => exact evolving_unbind hs name kind

/-- A bound grammar or a live arena owns the rule, directly or through other rules. -/
def Keeps (s : Session) (rule : RuleId) : Prop :=
  s.store.Keeps s.names.bindings.values rule

/-- Everything that is owned has its rule, and nothing else has one: a session between two
commands. -/
structure InOrder (s : Session) : Prop where
  sound : s.Sound
  swept : ∀ rule, (s.store.fixed? rule).isSome → s.Keeps rule

/-- What is left of a session later on: rules stay as they are or are given up, and the history of
the arenas goes on. -/
structure Continues (s s' : Session) : Prop where
  length_le : s.store.rules.length ≤ s'.store.rules.length
  fixed? : ∀ rule < s.store.rules.length,
    s'.store.fixed? rule = s.store.fixed? rule ∨ s'.store.fixed? rule = none
  follows : ∀ es, s.Follows es → ∃ es', s'.Follows (es ++ es')

theorem InOrder.isSome_fixed?_iff {rule : RuleId} (hs : s.InOrder) :
    (s.store.fixed? rule).isSome ↔ s.Keeps rule :=
  ⟨hs.swept rule, hs.sound.isSome_of_keeps⟩

theorem inOrder_initial : initial.InOrder := by
  have hfixed (rule : RuleId) : initial.store.fixed? rule = none := rfl
  have hheld (slot : Slot) : initial.store.handle? slot = none := by
    rw [Store.handle?, show initial.store.arenas = (Arenas.create .empty).2 from rfl,
      Arenas.get?_create]
    rfl
  constructor
  · constructor
    · intro g hg
      cases hg
    · intro slot g hg
      rw [hheld] at hg
      cases hg
    · intro rule g hg
      cases hg
    · intro rule hcycle
      obtain ⟨_, -, g, hg, -⟩ := Relation.TransGen.tail'_iff.1 hcycle
      cases hg
  · intro rule hrule
    cases hrule

theorem inOrder_sweep (hs : s.Sound) : s.sweep.InOrder :=
  ⟨Store.Sound.sweep hs, fun _ => (Store.Sound.isSome_fixed?_sweep_iff hs).1⟩

namespace Continues

variable {s' s'' : Session}

theorem refl (s : Session) : s.Continues s :=
  ⟨Nat.le_refl _, fun _ _ => .inl rfl, fun es hes => ⟨[], by rwa [List.append_nil]⟩⟩

theorem trans (h : s.Continues s') (h' : s'.Continues s'') : s.Continues s'' := by
  refine ⟨h.length_le.trans h'.length_le, fun rule hrule => ?_, fun es hes => ?_⟩
  · rcases h'.fixed? rule (Nat.lt_of_lt_of_le hrule h.length_le) with hsame | hnone
    · rw [hsame]
      exact h.fixed? rule hrule
    · exact .inr hnone
  · obtain ⟨es', hes'⟩ := h.follows es hes
    obtain ⟨es'', hes''⟩ := h'.follows _ hes'
    exact ⟨es' ++ es'', List.append_assoc es es' es'' ▸ hes''⟩

end Continues

theorem Evolves.continues_sweep {s' : Session} (h : s.Evolves s') : s.Continues s'.sweep := by
  refine ⟨?_, fun rule hrule => ?_, fun es hes => ?_⟩
  · exact h.rules.length_le.trans_eq List.length_mapIdx.symm
  · rw [sweep, Store.fixed?_sweep, Store.fixed?_eq_of_grown h.rules hrule]
    split
    · exact .inl rfl
    · exact .inr rfl
  · obtain ⟨es', hes'⟩ := h.follows es hes
    exact ⟨es', hes'.history, hes'.handles, hes'.texts, hes'.arenas⟩

/-- What is known of carrying out a command is known of its answer and of the session that is
swept afterwards. -/
theorem exists_of_perform {P : Answer → Session → Prop} {verbosity : Verbosity} {command : Command}
    {s' : Session} {answer : Answer} {records : List LogRecord}
    (h : Meets (carryOut command) s P fun r => P (.refused r))
    (hperform : s.perform verbosity command = (s', answer, records)) :
    ∃ s'', s' = s''.sweep ∧ P answer s'' := by
  have hrun := h verbosity []
  unfold perform at hperform
  revert hperform hrun
  rcases (((carryOut command).run verbosity).run).run (s, []) with ⟨r | a, s'', made⟩
  · rintro ⟨⟩ hr
    exact ⟨s'', rfl, hr⟩
  · rintro ⟨⟩ ha
    exact ⟨s'', rfl, ha⟩

theorem perform_inOrder (hs : s.InOrder) (verbosity : Verbosity) (command : Command) :
    (s.perform verbosity command).1.InOrder ∧
      s.Continues (s.perform verbosity command).1 := by
  rcases hperform : s.perform verbosity command with ⟨s', answer, records⟩
  obtain ⟨s', rfl, hevolves⟩ := exists_of_perform (evolving_carryOut hs.sound command) hperform
  exact ⟨inOrder_sweep hevolves.sound, hevolves.continues_sweep⟩

/-- The session that a list of commands leads to. -/
def after (s : Session) : List (Verbosity × Command) → Session
  | [] => s
  | (verbosity, command) :: commands => (s.perform verbosity command).1.after commands

theorem after_nil (s : Session) : s.after [] = s := rfl

theorem after_append (s : Session) (commands later : List (Verbosity × Command)) :
    s.after (commands ++ later) = (s.after commands).after later := by
  induction commands generalizing s with
  | nil => rfl
  | cons command commands ih => exact ih _

theorem after_inOrder (hs : s.InOrder) (commands : List (Verbosity × Command)) :
    (s.after commands).InOrder ∧ s.Continues (s.after commands) := by
  induction commands generalizing s with
  | nil => exact ⟨hs, .refl s⟩
  | cons command commands ih =>
      obtain ⟨hs', hcontinues⟩ := perform_inOrder hs command.1 command.2
      obtain ⟨hs'', hcontinues'⟩ := ih hs'
      exact ⟨hs'', hcontinues.trans hcontinues'⟩

end Session

end ParserAlgebra
