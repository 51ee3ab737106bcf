import ParserAlgebra.Proofs.Commands

/-!
# Write-once slots in sessions

Named handles and texts are slots of arenas, which commands create, drop and replace by new ones of
the same name. Whatever commands were carried out, the history of the arenas tells what each slot
holds and whether it still takes a content.
-/

namespace ParserAlgebra

namespace Session

variable {s s' : Session} {slot : Slot} {content : Content Journal} {answer : Answer}
  {es : List (Arenas.Event (Content Journal))}

open Job

/-- What offering a content to a slot makes of the arenas, and how it is answered. -/
def Puts (s : Session) (slot : Slot) (content : Content Journal) (answer : Answer) (s' : Session) :
    Prop :=
  match s.store.arenas.store slot content with
  | .ok arenas => answer = .done true ∧ s'.store.arenas = arenas
  | .error e => answer = .refused (.slot e) ∧ s'.store.arenas = s.store.arenas

/-- Told from the history: a content is refused, with all arenas untouched, if the arena of the slot
has been dropped, and else if the slot holds another one. A content that is taken is in that slot
afterwards, and all other slots hold what they held. -/
structure Offered (es : List (Arenas.Event (Content Journal))) (s : Session) (slot : Slot)
    (content : Content Journal) (answer : Answer) (s' : Session) : Prop where
  dropped : .dropped slot.arena ∈ es →
    answer = .refused (.slot .arenaDropped) ∧ s'.store.arenas = s.store.arenas
  occupied : .dropped slot.arena ∉ es → (∃ v, .stored slot v ∈ es) →
    answer = .refused (.slot .occupied) ∧ s'.store.arenas = s.store.arenas
  free : .dropped slot.arena ∉ es → (¬ ∃ v, .stored slot v ∈ es) →
    answer = .done true ∧ ∀ other, s'.store.arenas.get? other =
      if other = slot then some content else s.store.arenas.get? other

theorem Puts.offered (hes : Arenas.WriteOnce es s.store.arenas) (hslot : .allocated slot ∈ es)
    (h : s.Puts slot content answer s') : s.Offered es slot content answer s' := by
  have hdropped := hes.store_eq_arenaDropped slot hslot content
  have hoccupied := hes.store_eq_occupied slot hslot content
  unfold Puts at h
  split at h
  · rename_i arenas hstore
    rw [hstore] at hdropped hoccupied
    refine ⟨fun hd => ?_, fun hd hv => ?_, fun _ _ => ⟨h.1, ?_⟩⟩
    · cases hdropped.2 hd
    · cases hoccupied.2 ⟨hd, hv⟩
    · rw [h.2]
      exact hes.store_eq_ok slot hslot content arenas hstore
  · rename_i e hstore
    rw [hstore] at hdropped hoccupied
    refine ⟨fun hd => ?_, fun hd hv => ?_, fun hd hv => ?_⟩
    · obtain rfl := Except.error.inj (hdropped.2 hd)
      exact h
    · obtain rfl := Except.error.inj (hoccupied.2 ⟨hd, hv⟩)
      exact h
    · cases e with
      | arenaDropped => exact absurd (hdropped.1 rfl) hd
      | occupied => exact absurd (hoccupied.1 rfl).2 hv

section Perform

variable {verbosity : Verbosity} {records : List LogRecord}

theorem meets_puts (s : Session) (slot : Slot) (content : Content Journal) :
    Meets (put slot content) s (s.Puts slot content)
      fun r s' => s.Puts slot content (.refused r) s' := by
  unfold Puts
  refine (meets_put s slot content).imp ?_ ?_
  · rintro _ _ ⟨rfl, arenas, hstore, rfl⟩
    rw [hstore]
    exact ⟨rfl, rfl⟩
  · rintro _ _ ⟨rfl, e, hstore, rfl⟩
    rw [hstore]
    exact ⟨rfl, rfl⟩

theorem meets_find_known {α β κ : Type} [DecidableEq κ] {t : Table κ α} {key : κ} {a : α}
    {name : String} {f : α → Job β} {done : β → Session → Prop} {refused : Refusal → Session → Prop}
    (ha : t.get? key = some a) (hf : Meets (f a) s done refused) :
    Meets (find name t key >>= f) s done refused := by
  rw [find, ha]
  exact hf

theorem puts_of_storeText {name text : String} (hslot : s.texts.get? name = some slot)
    (hperform : s.perform verbosity (.storeText name text) = (s', answer, records)) :
    s.Puts slot (.text text) answer s' := by
  have hmeets : Meets (carryOut (.storeText name text)) s (s.Puts slot (.text text))
      fun r s' => s.Puts slot (.text text) (.refused r) s' :=
    meets_session_bind (meets_find_known hslot (meets_puts s slot _))
  obtain ⟨s'', rfl, hputs⟩ := exists_of_perform hmeets hperform
  exact hputs

/-- What defining a handle comes to: its rule is built first and then offered to the slot. -/
def Defines (s : Session) (slot : Slot) (kind : Kind) (g : Blueprint) (answer : Answer)
    (s' : Session) : Prop :=
  (∃ e, (g.build s.names kind).run s.store = .error e ∧ answer = .refused (.build e) ∧
    s'.store.arenas = s.store.arenas) ∨
      ∃ g' store', (g.build s.names kind).run s.store = .ok (g', store') ∧
        s.Puts slot (.rule g') answer s'

theorem defines_of_defineHandle (hs : s.Sound) {name : String} {kind : Kind} {g : Blueprint}
    (hslot : s.names.handles.get? (name, kind) = some slot)
    (hperform : s.perform verbosity (.defineHandle name kind g) = (s', answer, records)) :
    s.Defines slot kind g answer s' := by
  have hmeets : Meets (carryOut (.defineHandle name kind g)) s (s.Defines slot kind g)
      fun r s' => s.Defines slot kind g (.refused r) s' := by
    refine meets_session_bind (meets_find_known hslot ?_)
    refine Meets.bind ((meets_build hs kind g).imp (fun _ _ h => h) ?_) ?_
    · rintro _ _ ⟨rfl, e, hbuilt, rfl⟩
      exact .inl ⟨e, hbuilt, rfl, rfl⟩
    · rintro g' s'' ⟨-, -, -, harenas, hbuilt⟩
      have hputs : s''.Puts slot (.rule g') = s.Puts slot (.rule g') := by
        unfold Puts
        rw [harenas]
      refine (meets_puts s'' slot (.rule g')).imp (fun _ _ h => .inr ⟨g', _, hbuilt, ?_⟩)
        fun _ _ h => .inr ⟨g', _, hbuilt, ?_⟩
      · rwa [← hputs]
      · rwa [← hputs]
  obtain ⟨s'', rfl, hputs⟩ := exists_of_perform hmeets hperform
  exact hputs

section DropArena

variable {name : String} {id : ArenaId}

/-- The slots of one arena are emptied. -/
def Empties (s : Session) (id : ArenaId) (s' : Session) : Prop :=
  ∀ slot, s'.store.arenas.get? slot =
    if slot.arena = id then none else s.store.arenas.get? slot

theorem meets_dropArena (hid : s.arenas.get? name = some id) {refused : Refusal → Session → Prop} :
    Meets (dropArena name) s (fun _ s' => s.Empties id s') refused := by
  apply meets_session_bind
  rw [hid]
  apply meets_update_bind
  exact meets_pure (s.store.arenas.get?_drop id)

theorem empties_of_dropArena (hid : s.arenas.get? name = some id)
    (hperform : s.perform verbosity (.dropArena name) = (s', answer, records)) :
    s.Empties id s' := by
  have hmeets : Meets (carryOut (.dropArena name)) s (fun _ s' => s.Empties id s')
      fun _ s' => s.Empties id s' := (meets_dropArena hid).bind fun _ _ h => meets_pure h
  obtain ⟨s'', rfl, hempties⟩ := exists_of_perform hmeets hperform
  exact hempties

/-- An arena that takes the name of another one has none of its slots. -/
theorem empties_of_createArena (hid : s.arenas.get? name = some id)
    (hperform : s.perform verbosity (.createArena name) = (s', answer, records)) :
    s.Empties id s' := by
  have hmeets : Meets (carryOut (.createArena name)) s (fun _ s' => s.Empties id s')
      fun _ s' => s.Empties id s' := by
    refine (meets_dropArena hid).bind fun _ s'' hs'' => ?_
    apply meets_session_bind
    apply meets_update_bind
    exact meets_pure fun slot => (s''.store.arenas.get?_create slot).trans (hs'' slot)
  obtain ⟨s'', rfl, hempties⟩ := exists_of_perform hmeets hperform
  exact hempties

end DropArena

end Perform

/-- Slots of a session that are written once at most, told from the history of its arenas. -/
structure SlotsWriteOnce (s : Session) (es : List (Arenas.Event (Content Journal))) : Prop where
  follows : s.Follows es
  writeOnce : Arenas.WriteOnce es s.store.arenas
  storeText : ∀ verbosity name text slot, s.texts.get? name = some slot →
    ∀ s' answer records, s.perform verbosity (.storeText name text) = (s', answer, records) →
      s.Offered es slot (.text text) answer s'
  defineHandle : ∀ verbosity name kind g slot, s.names.handles.get? (name, kind) = some slot →
    ∀ s' answer records,
      s.perform verbosity (.defineHandle name kind g) = (s', answer, records) →
        s.Defines slot kind g answer s' ∧
          ∀ g' store', (g.build s.names kind).run s.store = .ok (g', store') →
            s.Offered es slot (.rule g') answer s'
  run_handle : ∀ slot, .allocated slot ∈ es → ∀ verbosity n c g,
    .stored slot (.rule g) ∈ es → .dropped slot.arena ∉ es →
      (⟨s.store, verbosity⟩ : Environment Journal).run (n + 1) (.handle slot) c =
        (⟨s.store, verbosity⟩ : Environment Journal).run n g c
  run_handle_undefined : ∀ slot, .allocated slot ∈ es → ∀ verbosity n c,
    (∀ v, .stored slot v ∉ es) ∨ .dropped slot.arena ∈ es →
      (⟨s.store, verbosity⟩ : Environment Journal).run (n + 1) (.handle slot) c =
        (⟨s.store, verbosity⟩ : Environment Journal).raiseUndefined c
  dropArena : ∀ verbosity name id, s.arenas.get? name = some id → ∀ s' answer records,
    s.perform verbosity (.dropArena name) = (s', answer, records) → s.Empties id s'
  createArena : ∀ verbosity name id, s.arenas.get? name = some id → ∀ s' answer records,
    s.perform verbosity (.createArena name) = (s', answer, records) → s.Empties id s'

theorem Follows.slotsWriteOnce (hs : s.Sound) (hes : s.Follows es) : s.SlotsWriteOnce es := by
  have hwriteOnce := hes.history.writeOnce
  constructor
  · exact hes
  · exact hwriteOnce
  · intro verbosity name text slot hslot s' answer records hperform
    refine (puts_of_storeText hslot hperform).offered hwriteOnce ?_
    exact hes.texts slot (Table.mem_values_of_get? hslot)
  · intro verbosity name kind g slot hslot s' answer records hperform
    have hdefines := defines_of_defineHandle hs hslot hperform
    refine ⟨hdefines, fun g' store' hbuilt => ?_⟩
    rcases hdefines with ⟨e, he, -⟩ | ⟨g'', store'', hbuilt', hputs⟩
    · cases he.symm.trans hbuilt
    · cases hbuilt'.symm.trans hbuilt
      exact hputs.offered hwriteOnce (hes.handles slot (Table.mem_values_of_get? hslot))
  · intro slot hslot verbosity n c g hstored hdropped
    have hget := (hwriteOnce.get? slot hslot (.rule g)).2 ⟨hstored, hdropped⟩
    rw [Environment.run, Environment.runLevel, Store.handle?, hget]
    rfl
  · intro slot hslot verbosity n c hempty
    have hget : s.store.arenas.get? slot = none := by
      by_contra hsome
      obtain ⟨v, hv⟩ := Option.ne_none_iff_exists'.1 hsome
      obtain ⟨hstored, hdropped⟩ := (hwriteOnce.get? slot hslot v).1 hv
      rcases hempty with hnone | hgone
      · exact hnone v hstored
      · exact hdropped hgone
    rw [Environment.run, Environment.runLevel, Store.handle?, hget]
    rfl
  · exact fun _ _ _ hid _ _ _ => empties_of_dropArena hid
  · exact fun _ _ _ hid _ _ _ => empties_of_createArena hid

theorem follows_initial : initial.Follows [.created 0] := by
  refine ⟨.create .empty, nofun, nofun, fun id hid => ?_⟩
  obtain rfl := List.mem_singleton.1 hid
  exact List.mem_cons_self

/-- Slots are never mixed up, whatever has been done with arenas and whatever commands a session has
carried out; later commands add to the history. -/
theorem slots_write_once :
    (∀ (α : Type) (es : List (Arenas.Event α)) (a : Arenas α),
      Arenas.History es a → Arenas.WriteOnce es a) ∧
      ∀ commands : List (Verbosity × Command), ∃ es, (initial.after commands).SlotsWriteOnce es ∧
        ∀ later, ∃ es', (initial.after (commands ++ later)).SlotsWriteOnce (es ++ es') := by
  refine ⟨fun α es a => Arenas.History.writeOnce, fun commands => ?_⟩
  obtain ⟨hs, hcontinues⟩ := after_inOrder inOrder_initial commands
  obtain ⟨es, hes⟩ := hcontinues.follows _ follows_initial
  refine ⟨_, hes.slotsWriteOnce hs.sound, fun later => ?_⟩
  rw [after_append]
  obtain ⟨hs', hcontinues'⟩ := after_inOrder hs later
  obtain ⟨es', hes'⟩ := hcontinues'.follows _ hes
  exact ⟨es', hes'.slotsWriteOnce hs'.sound⟩

theorem slots_write_once_replaced :
    let commands : List (Verbosity × Command) :=
      [(.off, .createArena "a"), (.off, .declareText "x" "a"), (.off, .storeText "x" "1"),
        (.off, .createArena "a"), (.off, .declareText "y" "a"), (.off, .storeText "y" "2")]
    let s := initial.after commands
    ∃ es, s.texts.get? "x" = some ⟨1, 0⟩ ∧ s.texts.get? "y" = some ⟨2, 0⟩ ∧
      .dropped 1 ∈ es ∧ s.store.arenas.get? ⟨1, 0⟩ = none ∧
        .stored ⟨2, 0⟩ (.text "2") ∈ es ∧ s.Offered es ⟨1, 0⟩ (.text "3")
          (.refused (.slot .arenaDropped)) (s.perform .off (.storeText "x" "3")).1 := by
  intro commands s
  obtain ⟨es, hes, -⟩ := slots_write_once.2 commands
  have hx : s.texts.get? "x" = some ⟨1, 0⟩ := by decide
  have hy : s.texts.get? "y" = some ⟨2, 0⟩ := by decide
  have hallocated {name : String} {slot : Slot} (h : s.texts.get? name = some slot) :
      .allocated slot ∈ es := hes.follows.texts slot (Table.mem_values_of_get? h)
  refine ⟨es, hx, hy, ?_, rfl, ?_, ?_⟩
  · exact (hes.writeOnce.store_eq_arenaDropped ⟨1, 0⟩ (hallocated hx) (.text "3")).1 rfl
  · exact ((hes.writeOnce.get? ⟨2, 0⟩ (hallocated hy) (.text "2")).1 rfl).1
  · exact hes.storeText .off "x" "3" ⟨1, 0⟩ hx _ _ _ rfl

end Session

end ParserAlgebra
