import ParserAlgebra.Proofs.ArenaHistory
import ParserAlgebra.Proofs.Building
import ParserAlgebra.Session

/-!
# What commands do to a session

A command is carried out in steps, each of which may be refused. Most of them look at the session
and move its cursor at most. The others enter rules into the store, give names to things, and work
with arenas; between two commands everything is in order again, and what happened to the arenas is
a piece of history.
-/

namespace ParserAlgebra

variable {α β : Type}

namespace Table

variable {κ : Type} [DecidableEq κ] {t : Table κ α} {key : κ} {a b : α}

theorem mem_values_of_mem_erase (h : a ∈ (t.erase key).values) : a ∈ t.values := by
  obtain ⟨entry, hentry, rfl⟩ := List.mem_map.1 h
  exact List.mem_map_of_mem (List.mem_of_mem_filter hentry)

theorem mem_values_of_mem_set (h : a ∈ (t.set key b).values) : a ∈ t.values ∨ a = b := by
  rcases List.mem_cons.1 h with rfl | h
  · exact .inr rfl
  · exact .inl (mem_values_of_mem_erase h)

end Table

namespace Session

namespace Job

/-- What is known of a step that begins with a session: of its result and the session afterwards, or
of its refusal and the session afterwards. -/
def Meets (job : Job α) (s : Session) (done : α → Session → Prop)
    (refused : Refusal → Session → Prop) : Prop :=
  ∀ verbosity records,
    match ((job.run verbosity).run).run (s, records) with
    | (.ok a, s', _) => done a s'
    | (.error r, s', _) => refused r s'

section Meets

variable {s : Session} {done done' : α → Session → Prop} {next : β → Session → Prop}
  {refused refused' : Refusal → Session → Prop} {job : Job α}

theorem meets_pure {a : α} (h : done a s) : Meets (pure a) s done refused :=
  fun _ _ => h

theorem meets_session {done : Session → Session → Prop} (h : done s s) :
    Meets session s done refused :=
  fun _ _ => h

theorem meets_update {f : Session → Session} {done : Unit → Session → Prop} (h : done () (f s)) :
    Meets (update f) s done refused :=
  fun _ _ => h

theorem meets_refuse {r : Refusal} (h : refused r s) : Meets (refuse r) s done refused :=
  fun _ _ => h

theorem meets_read {done : Verbosity → Session → Prop} (h : ∀ verbosity, done verbosity s) :
    Meets read s done refused :=
  fun verbosity _ => h verbosity

theorem meets_modify {f : Session × List LogRecord → Session × List LogRecord}
    {done : Unit → Session → Prop} (h : ∀ records, done () (f (s, records)).1) :
    Meets (modify f) s done refused :=
  fun _ records => h records

theorem Meets.imp (h : Meets job s done refused) (hdone : ∀ a s', done a s' → done' a s')
    (hrefused : ∀ r s', refused r s' → refused' r s') : Meets job s done' refused' := by
  intro verbosity records
  have hjob := h verbosity records
  revert hjob
  rcases ((job.run verbosity).run).run (s, records) with ⟨r | a, s', records'⟩
  · exact hrefused r s'
  · exact hdone a s'

theorem Meets.bind {f : α → Job β} (h : Meets job s done refused)
    (hf : ∀ a s', done a s' → Meets (f a) s' next refused) :
    Meets (job >>= f) s next refused := by
  intro verbosity records
  have hjob := h verbosity records
  have hrun : (((job >>= f).run verbosity).run).run (s, records) =
      match ((job.run verbosity).run).run (s, records) with
      | (.ok a, s', records') => (((f a).run verbosity).run).run (s', records')
      | (.error r, s', records') => (.error r, s', records') := by
    rw [ReaderT.run_bind, ExceptT.run_bind, StateT.run_bind]
    rcases ((job.run verbosity).run).run (s, records) with ⟨r | a, s', records'⟩ <;> rfl
  rw [hrun]
  revert hjob
  rcases ((job.run verbosity).run).run (s, records) with ⟨r | a, s', records'⟩
  · exact id
  · exact fun hdone => hf a s' hdone verbosity records'

theorem meets_session_bind {f : Session → Job β} (h : Meets (f s) s next refused) :
    Meets (session >>= f) s next refused :=
  fun verbosity records => h verbosity records

theorem meets_read_bind {f : Verbosity → Job β}
    (h : ∀ verbosity, Meets (f verbosity) s next refused) : Meets (read >>= f) s next refused :=
  fun verbosity records => h verbosity verbosity records

theorem meets_update_bind {g : Session → Session} {f : Unit → Job β}
    (h : Meets (f ()) (g s) next refused) : Meets (update g >>= f) s next refused :=
  fun verbosity records => h verbosity records

end Meets

theorem meets_find {κ : Type} [DecidableEq κ] (name : String) (t : Table κ α) (key : κ)
    {s : Session} {done : α → Session → Prop} {refused : Refusal → Session → Prop}
    (hdone : ∀ a, t.get? key = some a → done a s) (hrefused : refused (.unknownName name) s) :
    Meets (find name t key) s done refused := by
  unfold find
  split
  · exact meets_pure (hdone _ ‹_›)
  · exact meets_refuse hrefused

theorem meets_find_bind {κ : Type} [DecidableEq κ] {name : String} {t : Table κ α} {key : κ}
    {f : α → Job β} {s : Session} {next : β → Session → Prop} {refused : Refusal → Session → Prop}
    (hf : ∀ a, t.get? key = some a → Meets (f a) s next refused)
    (hrefused : refused (.unknownName name) s) : Meets (find name t key >>= f) s next refused := by
  have hfind : Meets (find name t key) s (fun a s' => t.get? key = some a ∧ s' = s) refused :=
    meets_find name t key (fun _ ha => ⟨ha, rfl⟩) hrefused
  refine hfind.bind fun a s' ha => ?_
  rw [ha.2]
  exact hf a ha.1

end Job

/-- The cursor may have been moved, the journal written and locations saved. -/
structure Inert (s s' : Session) : Prop where
  store : s'.store = s.store
  names : s'.names = s.names
  arenas : s'.arenas = s.arenas
  texts : s'.texts = s.texts

theorem Inert.refl (s : Session) : s.Inert s :=
  ⟨rfl, rfl, rfl, rfl⟩

theorem Inert.trans {s s' s'' : Session} (h : s.Inert s') (h' : s'.Inert s'') : s.Inert s'' :=
  ⟨h'.store.trans h.store, h'.names.trans h.names, h'.arenas.trans h.arenas,
    h'.texts.trans h.texts⟩

namespace Job

/-- A step that leaves everything but the cursor, the journal and the saved locations as it is. -/
def Quiet (job : Job α) : Prop :=
  ∀ s, Meets job s (fun _ s' => s.Inert s') fun _ s' => s.Inert s'

section Quiet

variable {job : Job α} {f : α → Job β}

theorem quiet_pure (a : α) : Quiet (pure a) :=
  fun s => meets_pure (.refl s)

theorem quiet_session : Quiet session :=
  fun s => meets_session (.refl s)

theorem quiet_read : Quiet read :=
  fun s => meets_read fun _ => .refl s

theorem quiet_refuse (r : Refusal) : Quiet (refuse r : Job α) :=
  fun s => meets_refuse (.refl s)

theorem quiet_update {f : Session → Session} (hf : ∀ s : Session, s.Inert (f s)) :
    Quiet (update f) :=
  fun s => meets_update (hf s)

theorem quiet_modify {f : Session × List LogRecord → Session × List LogRecord}
    (hf : ∀ st : Session × List LogRecord, st.1.Inert (f st).1) : Quiet (modify f) :=
  fun s => meets_modify fun records => hf (s, records)

theorem Quiet.bind (h : Quiet job) (hf : ∀ a, Quiet (f a)) : Quiet (job >>= f) := by
  intro s
  refine (h s).bind fun a s' hs' => (hf a s').imp ?_ ?_
  · exact fun _ _ hs'' => hs'.trans hs''
  · exact fun _ _ hs'' => hs'.trans hs''

theorem Quiet.session_bind {f : Session → Job β} (hf : ∀ s, Quiet (f s)) : Quiet (session >>= f) :=
  quiet_session.bind hf

theorem Quiet.update_bind {g : Session → Session} {f : Unit → Job β}
    (hg : ∀ s : Session, s.Inert (g s)) (hf : Quiet (f ())) : Quiet (update g >>= f) :=
  (quiet_update hg).bind fun _ => hf

theorem quiet_find {κ : Type} [DecidableEq κ] (name : String) (t : Table κ α) (key : κ) :
    Quiet (find name t key) :=
  fun s => meets_find name t key (fun _ _ => .refl s) (.refl s)

theorem quiet_attempt (f : Environment Journal → Except Stop α) : Quiet (attempt f) := by
  refine .session_bind fun s => quiet_read.bind fun verbosity => ?_
  cases f ⟨s.store, verbosity⟩ with
  | ok a => exact quiet_pure a
  | error stop => exact quiet_refuse _

theorem quiet_conclude (f : Environment Journal → Except Stop (Outcome Journal)) :
    Quiet (conclude f) :=
  (quiet_attempt f).bind fun o =>
    .bind (quiet_modify fun _ => ⟨rfl, rfl, rfl, rfl⟩) fun _ => quiet_pure o

theorem quiet_resolve (c : Cursor) (p : PositionRef) : Quiet (resolve c p) := by
  cases p with
  | atOffset offset => exact quiet_pure _
  | given p => exact quiet_pure p
  | saved name => exact .session_bind fun s => quiet_find name s.positions name

theorem quiet_orFault (r : Except Fault α) : Quiet (orFault r) := by
  cases r with
  | ok a => exact quiet_pure a
  | error f => exact quiet_refuse _

theorem quiet_written (a? : Option α) : Quiet (written a?) := by
  cases a? with
  | some a => exact quiet_pure a
  | none => exact quiet_refuse _

theorem quiet_setJournal (journal : Option Journal) : Quiet (setJournal journal) :=
  quiet_update fun _ => ⟨rfl, rfl, rfl, rfl⟩

theorem quiet_moveTo (c : Cursor) : Quiet (moveTo c) :=
  .update_bind (fun _ => ⟨rfl, rfl, rfl, rfl⟩) (quiet_pure _)

theorem quiet_runHere (g : Grammar Journal) (slot : Option Value) : Quiet (runHere g slot) :=
  .session_bind fun _ => (quiet_conclude _).bind fun _ =>
    .update_bind (fun _ => ⟨rfl, rfl, rfl, rfl⟩) (quiet_pure _)

end Quiet

end Job

/-- Everything that is owned has its rule. -/
def Sound (s : Session) : Prop :=
  s.store.Sound s.names.bindings.values

/-- A history of the arenas of a session, in which all slots and arenas with names occur. -/
structure Follows (s : Session) (es : List (Arenas.Event (Content Journal))) : Prop where
  history : Arenas.History es s.store.arenas
  handles : ∀ slot ∈ s.names.handles.values, .allocated slot ∈ es
  texts : ∀ slot ∈ s.texts.values, .allocated slot ∈ es
  arenas : ∀ id ∈ s.arenas.values, .created id ∈ es

/-- What a command makes of a session that is in order, before the rules that are not kept any more
are given up. -/
structure Evolves (s s' : Session) : Prop where
  sound : s'.Sound
  rules : s.store.rules <+: s'.store.rules
  follows : ∀ es, s.Follows es → ∃ es', s'.Follows (es ++ es')

namespace Evolves

variable {s s' s'' : Session}

theorem of_same_arenas (hsound : s'.Sound) (hrules : s.store.rules <+: s'.store.rules)
    (harenas : s'.store.arenas = s.store.arenas)
    (hhandles : s'.names.handles = s.names.handles) (htexts : s'.texts = s.texts)
    (hnamed : s'.arenas = s.arenas) : s.Evolves s' := by
  refine ⟨hsound, hrules, fun es hes => ⟨[], ?_⟩⟩
  rw [List.append_nil]
  constructor
  · exact harenas ▸ hes.history
  · exact hhandles ▸ hes.handles
  · exact htexts ▸ hes.texts
  · exact hnamed ▸ hes.arenas

theorem refl (hs : s.Sound) : s.Evolves s :=
  .of_same_arenas hs List.prefix_rfl rfl rfl rfl rfl

theorem trans (h : s.Evolves s') (h' : s'.Evolves s'') : s.Evolves s'' := by
  refine ⟨h'.sound, h.rules.trans h'.rules, fun es hes => ?_⟩
  obtain ⟨es', hes'⟩ := h.follows es hes
  obtain ⟨es'', hes''⟩ := h'.follows _ hes'
  exact ⟨es' ++ es'', List.append_assoc es es' es'' ▸ hes''⟩

theorem inert (h : s.Evolves s') (h' : s'.Inert s'') : s.Evolves s'' := by
  refine ⟨?_, ?_, fun es hes => ?_⟩
  · rw [Sound, h'.store, h'.names]
    exact h.sound
  · exact h'.store ▸ h.rules
  · obtain ⟨es', hes'⟩ := h.follows es hes
    refine ⟨es', ?_, ?_, ?_, ?_⟩
    · exact h'.store ▸ hes'.history
    · exact h'.names ▸ hes'.handles
    · exact h'.texts ▸ hes'.texts
    · exact h'.arenas ▸ hes'.arenas

/-- Names for other slots, or other arenas, where one event happened to the arenas. -/
theorem of_event (event : List (Arenas.Event (Content Journal))) (hsound : s'.Sound)
    (hrules : s'.store.rules = s.store.rules)
    (hhistory : ∀ es, s.Follows es → Arenas.History (es ++ event) s'.store.arenas)
    (hhandles : ∀ slot ∈ s'.names.handles.values,
      slot ∈ s.names.handles.values ∨ .allocated slot ∈ event)
    (htexts : ∀ slot ∈ s'.texts.values, slot ∈ s.texts.values ∨ .allocated slot ∈ event)
    (harenas : ∀ id ∈ s'.arenas.values, id ∈ s.arenas.values ∨ .created id ∈ event) :
    s.Evolves s' := by
  refine ⟨hsound, hrules ▸ List.prefix_rfl, fun es hes => ⟨event, hhistory es hes, ?_, ?_, ?_⟩⟩
  · exact fun slot hslot => List.mem_append.2 ((hhandles slot hslot).imp_left (hes.handles slot))
  · exact fun slot hslot => List.mem_append.2 ((htexts slot hslot).imp_left (hes.texts slot))
  · exact fun id hid => List.mem_append.2 ((harenas id hid).imp_left (hes.arenas id))

end Evolves

namespace Job

/-- A step that a command may consist of, also if it is refused. -/
def Evolving (job : Job α) (s : Session) : Prop :=
  Meets job s (fun _ s' => s.Evolves s') fun _ s' => s.Evolves s'

section Evolving

variable {s : Session} {job : Job α} {f : α → Job β}

/-- A step that follows others. -/
theorem Evolving.after {s' : Session} (h : Evolving job s') (hs : s.Evolves s') :
    Meets job s' (fun _ s'' => s.Evolves s'') fun _ s'' => s.Evolves s'' :=
  h.imp (fun _ _ hs'' => hs.trans hs'') fun _ _ hs'' => hs.trans hs''

theorem Quiet.evolving (h : Quiet job) (hs : s.Sound) : Evolving job s :=
  (h s).imp (fun _ _ hs' => (Evolves.refl hs).inert hs') fun _ _ hs' =>
    (Evolves.refl hs).inert hs'

theorem meets_build (hs : s.Sound) (kind : Kind) (g : Blueprint) :
    Meets (build kind g) s
      (fun g' s' => s.Evolves s' ∧ s'.store.Carries g' ∧ s'.names = s.names ∧
        s'.store.arenas = s.store.arenas ∧ (g.build s.names kind).run s.store = .ok (g', s'.store))
      fun r s' => s' = s ∧ ∃ e, (g.build s.names kind).run s.store = .error e ∧ r = .build e := by
  apply meets_session_bind
  split
  · rename_i g' store' hbuilt
    obtain ⟨hgrows, hsound, hcarries⟩ :=
      Blueprint.adds_build g s.names kind (List.Subset.refl _) _ _ _ hs hbuilt
    apply meets_update_bind
    exact meets_pure ⟨.of_same_arenas hsound hgrows.rules hgrows.arenas rfl rfl rfl, hcarries, rfl,
      hgrows.arenas, hbuilt⟩
  · exact meets_refuse ⟨rfl, _, ‹_›, rfl⟩

theorem evolving_build_bind {f : Grammar Journal → Job β} (hs : s.Sound) (kind : Kind)
    (g : Blueprint) (hf : ∀ g' s', s'.store.Carries g' → s.Evolves s' → s'.names = s.names →
      Meets (f g') s' (fun _ s'' => s.Evolves s'') fun _ s'' => s.Evolves s'') :
    Evolving (build kind g >>= f) s := by
  refine Meets.bind ((meets_build hs kind g).imp (fun _ _ h => h) ?_) ?_
  · rintro _ _ ⟨rfl, -⟩
    exact .refl hs
  · rintro g' s' ⟨hevolves, hcarries, hnames, -⟩
    exact hf g' s' hcarries hevolves hnames

/-- What a blueprint is built for, if it does not touch the store. -/
theorem evolving_build_quiet {f : Grammar Journal → Job β} (hs : s.Sound) (kind : Kind)
    (g : Blueprint) (hf : ∀ g', Quiet (f g')) : Evolving (build kind g >>= f) s :=
  evolving_build_bind hs kind g fun g' _ _ hevolves _ =>
    ((hf g').evolving hevolves.sound).after hevolves

theorem meets_put (s : Session) (slot : Slot) (content : Content Journal) :
    Meets (put slot content) s
      (fun answer s' => answer = .done true ∧ ∃ arenas,
        s.store.arenas.store slot content = .ok arenas ∧
          s' = { s with store := { s.store with arenas } })
      fun r s' => s' = s ∧ ∃ e, s.store.arenas.store slot content = .error e ∧ r = .slot e := by
  apply meets_session_bind
  rw [Store.put]
  cases hstore : s.store.arenas.store slot content with
  | error e => exact meets_refuse ⟨rfl, e, rfl, rfl⟩
  | ok arenas =>
      apply meets_update_bind
      exact meets_pure ⟨rfl, arenas, rfl, rfl⟩

theorem evolving_put {slot : Slot} {content : Content Journal} (hs : s.Sound)
    (hslot : slot ∈ s.names.handles.values ∨ slot ∈ s.texts.values)
    (hcontent : ∀ g, content.rule? = some g → s.store.Carries g) :
    Evolving (put slot content) s := by
  have hallocated (es : List (Arenas.Event (Content Journal))) (hes : s.Follows es) :
      .allocated slot ∈ es := hslot.elim (hes.handles slot) (hes.texts slot)
  refine (meets_put s slot content).imp ?_ ?_
  · rintro _ _ ⟨-, arenas, hstore, rfl⟩
    refine .of_event [.stored slot content] ?_ rfl (fun es hes => ?_) (fun _ => .inl)
      (fun _ => .inl) fun _ => .inl
    · refine hs.congr (fun _ => rfl) (fun other g hg => ?_) hs.used
      obtain ⟨held, hheld, hrule⟩ := Option.bind_eq_some_iff.1 hg
      rcases Arenas.eq_or_of_store hstore hheld with rfl | hbefore
      · exact hcontent g hrule
      · exact hs.stored other g (Option.bind_eq_some_iff.2 ⟨held, hbefore, hrule⟩)
    · exact hes.history.store (hallocated es hes) hstore
  · rintro _ _ ⟨rfl, e, hstore, -⟩
    exact .of_event [.refused slot e] hs rfl
      (fun es hes => hes.history.refuse (hallocated es hes) hstore) (fun _ => .inl)
      (fun _ => .inl) fun _ => .inl

theorem meets_allocate (hs : s.Sound) (arena : String) :
    Meets (allocate arena) s (fun slot s' => ∃ id arenas,
      s.store.arenas.alloc id = some (slot, arenas) ∧
        s' = { s with store := { s.store with arenas } }) fun _ s' => s.Evolves s' := by
  apply meets_session_bind
  refine meets_find_bind (fun id _ => ?_) (.refl hs)
  cases halloc : s.store.arenas.alloc id with
  | none => exact meets_refuse (.refl hs)
  | some p =>
      obtain ⟨slot, arenas⟩ := p
      apply meets_update_bind
      exact meets_pure ⟨id, arenas, halloc, rfl⟩

/-- Allocating a slot for a name. -/
theorem evolves_of_alloc {s' : Session} {id : ArenaId} {slot : Slot}
    {arenas : Arenas (Content Journal)} (hs : s.Sound)
    (halloc : s.store.arenas.alloc id = some (slot, arenas))
    (hstore : s'.store = { s.store with arenas })
    (hbindings : s'.names.bindings = s.names.bindings) (harenas : s'.arenas = s.arenas)
    (hhandles : ∀ other ∈ s'.names.handles.values, other ∈ s.names.handles.values ∨ other = slot)
    (htexts : ∀ other ∈ s'.texts.values, other ∈ s.texts.values ∨ other = slot) :
    s.Evolves s' := by
  have hnamed {names : List Slot} {other : Slot} (h : other ∈ names ∨ other = slot) :
      other ∈ names ∨ (.allocated other : Arenas.Event (Content Journal)) ∈
        [Arenas.Event.allocated slot] := by
    rcases h with h | rfl
    · exact .inl h
    · exact .inr List.mem_cons_self
  refine .of_event [.allocated slot] ?_ (by rw [hstore]) (fun es hes => ?_)
    (fun other hother => hnamed (hhandles other hother))
    (fun other hother => hnamed (htexts other hother)) fun id hid => .inl (harenas ▸ hid)
  · rw [Sound, hstore, hbindings]
    refine hs.congr (fun _ => rfl) (fun other g hg => ?_) hs.used
    rw [Store.handle?, Arenas.get?_of_alloc halloc] at hg
    exact hs.stored other g hg
  · rw [hstore]
    exact hes.history.alloc halloc

/-- Dropping the arena of a name, if it has one. -/
theorem evolving_dropArena (hs : s.Sound) (name : String) : Evolving (dropArena name) s := by
  apply meets_session_bind
  cases hid : s.arenas.get? name with
  | none => exact meets_pure (.refl hs)
  | some id =>
      apply meets_update_bind
      refine meets_pure (.of_event [.dropped id] ?_ rfl (fun es hes => ?_) (fun _ => .inl)
        (fun _ => .inl) fun other hother => ?_)
      · refine hs.congr (fun _ => rfl) (fun slot g hg => ?_) hs.used
        obtain ⟨held, hheld, hrule⟩ := Option.bind_eq_some_iff.1 hg
        exact hs.stored slot g (Option.bind_eq_some_iff.2 ⟨held, Arenas.get?_of_drop hheld, hrule⟩)
      · exact hes.history.drop (hes.arenas id (Table.mem_values_of_get? hid))
      · exact .inl (Table.mem_values_of_mem_erase hother)

theorem evolving_createArena (hs : s.Sound) (name : String) :
    Evolving (carryOut (.createArena name)) s := by
  refine (evolving_dropArena hs name).bind fun _ s' hs' => ?_
  apply meets_session_bind
  apply meets_update_bind
  refine meets_pure (hs'.trans ?_)
  refine .of_event [.created s'.store.arenas.create.1] ?_ rfl (fun es hes => ?_) (fun _ => .inl)
    (fun _ => .inl) fun id hid => ?_
  · refine hs'.sound.congr (fun _ => rfl) (fun slot g hg => ?_) hs'.sound.used
    have hheld : (s'.store.arenas.create.2.get? slot).bind Content.rule? = some g := hg
    rw [Arenas.get?_create] at hheld
    exact hs'.sound.stored slot g hheld
  · exact hes.history.create
  · rcases Table.mem_values_of_mem_set hid with hid | rfl
    · exact .inl hid
    · exact .inr List.mem_cons_self

theorem evolving_declareHandle (hs : s.Sound) (name : String) (kind : Kind) (arena : String) :
    Evolving (carryOut (.declareHandle name kind arena)) s := by
  refine (meets_allocate hs arena).bind ?_
  rintro slot _ ⟨id, arenas, halloc, rfl⟩
  apply meets_update_bind
  exact meets_pure (evolves_of_alloc hs halloc rfl rfl rfl (fun _ => Table.mem_values_of_mem_set)
    fun _ => .inl)

theorem evolving_declareText (hs : s.Sound) (name arena : String) :
    Evolving (carryOut (.declareText name arena)) s := by
  refine (meets_allocate hs arena).bind ?_
  rintro slot _ ⟨id, arenas, halloc, rfl⟩
  apply meets_update_bind
  exact meets_pure (evolves_of_alloc hs halloc rfl rfl rfl (fun _ => .inl)
    fun _ => Table.mem_values_of_mem_set)

theorem evolving_defineHandle (hs : s.Sound) (name : String) (kind : Kind) (g : Blueprint) :
    Evolving (carryOut (.defineHandle name kind g)) s := by
  apply meets_session_bind
  refine meets_find_bind (fun slot hslot => ?_) (.refl hs)
  refine evolving_build_bind hs kind g fun g' s' hcarries hevolves hnames => ?_
  refine Evolving.after (evolving_put hevolves.sound (.inl ?_) ?_) hevolves
  · rw [hnames]
    exact Table.mem_values_of_get? hslot
  · rintro _ ⟨⟩
    exact hcarries

theorem evolving_storeText (hs : s.Sound) (name text : String) :
    Evolving (carryOut (.storeText name text)) s := by
  apply meets_session_bind
  refine meets_find_bind (fun slot hslot => ?_) (.refl hs)
  exact evolving_put hs (.inr (Table.mem_values_of_get? hslot)) nofun

theorem evolving_bind (hs : s.Sound) (name : String) (kind : Kind) (g : Blueprint) :
    Evolving (carryOut (.bind name kind g)) s := by
  refine evolving_build_bind hs kind g fun g' s' hcarries hevolves _ => ?_
  apply meets_update_bind
  refine meets_pure (hevolves.trans (.of_same_arenas ?_ List.prefix_rfl rfl rfl rfl rfl))
  refine hevolves.sound.congr (fun _ => rfl) hevolves.sound.stored fun bound hbound => ?_
  rcases Table.mem_values_of_mem_set hbound with hbound | rfl
  · exact hevolves.sound.used bound hbound
  · exact hcarries

theorem evolving_unbind (hs : s.Sound) (name : String) (kind : Kind) :
    Evolving (carryOut (.unbind name kind)) s := by
  apply meets_session_bind
  apply meets_update_bind
  refine meets_pure (.of_same_arenas ?_ List.prefix_rfl rfl rfl rfl rfl)
  exact Store.Sound.congr hs (fun _ => rfl) hs.stored fun bound hbound =>
    hs.used bound (Table.mem_values_of_mem_erase hbound)

end Evolving

end Job

end Session

end ParserAlgebra
