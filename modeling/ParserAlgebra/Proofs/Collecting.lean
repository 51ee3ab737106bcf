import ParserAlgebra.Proofs.Coverage
import ParserAlgebra.Proofs.Marks

/-!
# Collecting definitions

A rendering that collects definitions goes behind the names that it comes upon. What happens there
is not to be seen in the text: marks that are made behind a name are taken back, and the text goes
on with the name. The definitions grow at their end only. A name that has been entered is passed by,
and what is moved or amended is the entry of a name that was new when its writing began, so it is
none of those that were there before.
-/

namespace ParserAlgebra

variable {σ : Type}

namespace Definitions

variable {d d' d'' : Definitions} {name body : String}

/-- The entries of `d` stand as they are in front of all others of `d'`. If no name is entered twice
in `d`, none is in `d'`. -/
structure Grows (d d' : Definitions) : Prop where
  entries : d.entries <+: d'.entries
  nodup : d.names.Nodup → d'.names.Nodup

namespace Grows

theorem refl (d : Definitions) : d.Grows d :=
  ⟨List.prefix_refl _, id⟩

theorem trans (h : d.Grows d') (h' : d'.Grows d'') : d.Grows d'' :=
  ⟨h.entries.trans h'.entries, fun hnodup => h'.nodup (h.nodup hnodup)⟩

/-- An entry that is inserted goes behind all old ones, also if it is moved there from among the new
ones. -/
theorem insert (h : d.Grows d') (hnew : name ∉ d.names) (body : String) :
    d.Grows (d'.insert name body) := by
  obtain ⟨added, hadded⟩ := h.entries
  have hkeep : d.entries.filter (·.1 ≠ name) = d.entries :=
    List.append_cancel_right (congrArg Definitions.entries (insert_of_not_mem hnew body))
  refine ⟨⟨added.filter (·.1 ≠ name) ++ [(name, body)], ?_⟩, fun hnodup => ?_⟩
  · rw [Definitions.insert, ← hadded, List.filter_append, hkeep, List.append_assoc]
  · exact nodup_names_insert (h.nodup hnodup) name body

theorem amend (h : d.Grows d') (hnew : name ∉ d.names) (body : String) :
    d.Grows (d'.amend name body) := by
  obtain ⟨added, hadded⟩ := h.entries
  have hkeep : (d.amend name body).entries = d.entries := by
    refine (List.map_congr_left fun entry hentry => ?_).trans (List.map_id _)
    exact if_neg fun heq : entry.1 = name => hnew (heq ▸ List.mem_map_of_mem hentry)
  refine ⟨⟨(Definitions.amend ⟨added⟩ name body).entries, ?_⟩, fun hnodup => ?_⟩
  · calc d.entries ++ (Definitions.amend ⟨added⟩ name body).entries
        = (d.amend name body).entries ++ (Definitions.amend ⟨added⟩ name body).entries := by
          rw [hkeep]
      _ = (d'.amend name body).entries := by
          rw [Definitions.amend, Definitions.amend, Definitions.amend, ← hadded, List.map_append]
  · rw [names_amend]
    exact h.nodup hnodup

end Grows

end Definitions

namespace Grammar

/-- Names and handles have no parts. -/
theorem isPlain_of_mem_writtenParts {g q : Grammar σ} (h : q ∈ g.writtenParts) : g.IsPlain := by
  cases g with
  | reference _ _ | define _ _ | handle _ | fixed _ _ _ => cases h
  | _ => trivial

namespace Writer

/-- A writer that leaves the marks as they are and lets the definitions grow. -/
def Appends (w : Writer) : Prop :=
  ∀ active d text s, w ⟨active, some d⟩ = some (text, s) →
    ∃ d', s = ⟨active, some d'⟩ ∧ d.Grows d'

theorem appends_text (s : String) : (text s).Appends := by
  intro active d _ _ h
  cases h
  exact ⟨d, rfl, .refl d⟩

theorem appends_reference {name : String} {body : Writer} (hbody : body.Appends) :
    (reference name body).Appends := by
  intro active d text s h
  obtain ⟨-, ⟨rfl, -⟩ | ⟨d, inner, r', hd, hnew, hinner, rfl⟩⟩ := eq_of_reference h
  · exact ⟨d, rfl, .refl d⟩
  · cases hd
    obtain ⟨d', rfl, hgrows⟩ := hbody _ _ _ _ hinner
    have hentered : d.Grows (d.insert name name) := (Definitions.Grows.refl d).insert hnew name
    exact ⟨d'.amend name inner, rfl, (hentered.trans hgrows).amend hnew inner⟩

theorem appends_define {name : String} {body : Writer} (hbody : body.Appends) :
    (define name body).Appends := by
  intro active d text s h
  obtain ⟨-, ⟨rfl, -⟩ | ⟨d, inner, r', hd, hnew, hinner, rfl⟩⟩ := eq_of_define h
  · exact ⟨d, rfl, .refl d⟩
  · cases hd
    obtain ⟨d', rfl, hgrows⟩ := hbody _ _ _ _ hinner
    exact ⟨d'.insert name inner, rfl, hgrows.insert hnew inner⟩

theorem appends_handle {slot : Slot} {body : Writer} (hbody : body.Appends) :
    (handle slot body).Appends := by
  intro active d text s h
  obtain ⟨-, -, rfl⟩ | ⟨-, r', hinner, rfl⟩ := eq_of_handle h
  · exact ⟨d, rfl, .refl d⟩
  · obtain ⟨d', rfl, hgrows⟩ := hbody _ _ _ _ hinner
    refine ⟨d', ?_, hgrows⟩
    simp [Rendering.leave]

/-- A name is among the definitions once it has been written. -/
theorem mem_names_of_reference {name text : String} {body : Writer} {r s : Rendering}
    (hbody : body.Leads) (hcollects : r.definitions.isSome)
    (h : reference name body r = some (text, s)) : name ∈ s.names := by
  obtain ⟨-, ⟨rfl, hknown⟩ | ⟨d, inner, r', -, -, hinner, rfl⟩⟩ := eq_of_reference h
  · obtain ⟨d, hd⟩ := Option.isSome_iff_exists.1 hcollects
    exact Rendering.names_of_definitions hd ▸ hknown d hd
  · rw [Rendering.names_map fun d => d.names_amend name inner]
    exact (hbody _ inner r' hinner).names (d.mem_names_insert name name)

theorem mem_names_of_define {name text : String} {body : Writer} {r s : Rendering}
    (hbody : body.Leads) (hcollects : r.definitions.isSome)
    (h : define name body r = some (text, s)) : name ∈ s.names := by
  obtain ⟨-, ⟨rfl, hknown⟩ | ⟨d, inner, r', hd, -, hinner, rfl⟩⟩ := eq_of_define h
  · obtain ⟨d, hd⟩ := Option.isSome_iff_exists.1 hcollects
    exact Rendering.names_of_definitions hd ▸ hknown d hd
  · obtain ⟨d', hd'⟩ := Option.isSome_iff_exists.1
      ((hbody r inner r' hinner).collects.trans hcollects)
    rw [hd']
    exact d'.mem_names_insert name inner

/-- A writer that has nothing to enter where all that it has entered once is there already. -/
def Settles (w : Writer) : Prop :=
  ∀ r text s r' text' s', w r = some (text, s) → w r' = some (text', s') →
    r.definitions.isSome → r'.active = r.active → s.names ⊆ r'.names → s' = r'

theorem settles_text (s : String) : (text s).Settles := by
  intro _ _ _ _ _ _ _ h' _ _ _
  cases h'
  rfl

theorem settles_reference {name : String} {body : Writer} (hbody : body.Leads) :
    (reference name body).Settles := by
  intro r text s r' text' s' h h' hcollects _ hnames
  have hname := hnames (mem_names_of_reference hbody hcollects h)
  obtain ⟨-, ⟨rfl, -⟩ | ⟨d, _, _, hd, hnew, -⟩⟩ := eq_of_reference h'
  · rfl
  · exact absurd (Rendering.names_of_definitions hd ▸ hname) hnew

theorem settles_define {name : String} {body : Writer} (hbody : body.Leads) :
    (define name body).Settles := by
  intro r text s r' text' s' h h' hcollects _ hnames
  have hname := hnames (mem_names_of_define hbody hcollects h)
  obtain ⟨-, ⟨rfl, -⟩ | ⟨d, _, _, hd, hnew, -⟩⟩ := eq_of_define h'
  · rfl
  · exact absurd (Rendering.names_of_definitions hd ▸ hname) hnew

theorem settles_handle {slot : Slot} {body : Writer} (hbody : body.Settles) :
    (handle slot body).Settles := by
  intro r text s r' text' s' h h' hcollects hactive hnames
  obtain ⟨-, -, rfl⟩ | ⟨hnew', t', hinner', rfl⟩ := eq_of_handle h'
  · rfl
  · obtain ⟨hin, -⟩ | ⟨-, t, hinner, rfl⟩ := eq_of_handle h
    · exact absurd (hactive ▸ hin) hnew'
    · have hmarks : slot :: r'.active = slot :: r.active := congrArg _ hactive
      obtain rfl := hbody _ _ _ _ _ _ hinner hinner' hcollects hmarks hnames
      simp [Rendering.leave]

end Writer

variable {store : Store σ}

theorem appends_of_writes {n : Nat} {qs : List (Grammar σ)} {active : List Slot} {d : Definitions}
    {r s : Rendering} (hparts : ∀ q : Grammar σ, (q.writeWithin store n).Appends)
    (h : store.Writes n qs r s) (hr : r = ⟨active, some d⟩) :
    ∃ d', s = ⟨active, some d'⟩ ∧ d.Grows d' := by
  induction h generalizing d with
  | nil => exact ⟨d, hr, .refl d⟩
  | cons hq _ ih =>
      subst hr
      obtain ⟨d₁, rfl, hgrows⟩ := hparts _ _ _ _ _ hq
      obtain ⟨d₂, hs, hgrows'⟩ := ih rfl
      exact ⟨d₂, hs, hgrows.trans hgrows'⟩

theorem appends_writeWithin (n : Nat) (g : Grammar σ) : (g.writeWithin store n).Appends := by
  induction n generalizing g with
  | zero =>
      intro active d text s h
      cases h
  | succ n ih =>
      have hplain (hg : g.IsPlain) : (g.writeWithin store (n + 1)).Appends := by
        intro active d text s h
        exact appends_of_writes ih (writes_writeWithin hg h) rfl
      cases g with
      | reference name body => exact Writer.appends_reference (ih body)
      | define name body => exact Writer.appends_define (ih body)
      | handle slot =>
          rw [writeWithin]
          cases store.handle? slot with
          | none => exact Writer.appends_text "?"
          | some body => exact Writer.appends_handle (ih body)
      | fixed hold name rule =>
          rw [writeWithin]
          apply Writer.appends_reference
          cases store.fixed? rule with
          | none => exact Writer.appends_text "?"
          | some body => exact ih body
      | _ => exact hplain trivial

/-- Parts that are written one after another again, where all that they have entered is there. -/
theorem settles_of_writes {n : Nat} {qs : List (Grammar σ)} {r s r' s' : Rendering}
    (hparts : ∀ q : Grammar σ, (q.writeWithin store n).Settles) (h : store.Writes n qs r s)
    (h' : store.Writes n qs r' s') (hcollects : r.definitions.isSome)
    (hactive : r'.active = r.active) (hnames : s.names ⊆ r'.names) : s' = r' := by
  induction h generalizing r' with
  | nil =>
      cases h'
      rfl
  | cons hq hqs ih =>
      cases h' with
      | cons hq' hqs' =>
          have hfirst := leads_writeWithin n _ _ _ _ hq
          have hrest := hqs.leadsTo fun q => leads_writeWithin n q
          obtain rfl := hparts _ _ _ _ _ _ _ hq hq' hcollects hactive
            (List.Subset.trans hrest.names hnames)
          exact ih hqs' (hfirst.collects.trans hcollects) (hactive.trans hfirst.active.symm) hnames

theorem settles_writeWithin (n : Nat) (g : Grammar σ) : (g.writeWithin store n).Settles := by
  induction n generalizing g with
  | zero =>
      intro r text s r' text' s' h
      cases h
  | succ n ih =>
      have hplain (hg : g.IsPlain) : (g.writeWithin store (n + 1)).Settles := by
        intro r text s r' text' s' h h'
        exact settles_of_writes ih (writes_writeWithin hg h) (writes_writeWithin hg h')
      cases g with
      | reference name body => exact Writer.settles_reference (leads_writeWithin n body)
      | define name body => exact Writer.settles_define (leads_writeWithin n body)
      | handle slot =>
          rw [writeWithin]
          cases store.handle? slot with
          | none => exact Writer.settles_text "?"
          | some body => exact Writer.settles_handle (ih body)
      | fixed hold name rule =>
          rw [writeWithin]
          apply Writer.settles_reference
          cases store.fixed? rule with
          | none => exact Writer.leads_text "?"
          | some body => exact leads_writeWithin n body
      | _ => exact hplain trivial

end Grammar

namespace Store

variable {store : Store σ}

/-- Under every bound there is no other written form than the one of the store. -/
theorem write_eq_of_writeWithin {n : Nat} {g : Grammar σ} {r : Rendering} {x : String × Rendering}
    (h : g.writeWithin store n r = some x) : store.write g r = some x := by
  obtain ⟨text, s, hwritten, -⟩ := store.exists_write g r
  have hlarge := Grammar.continuedBy_writeWithin (Nat.le_max_left n (store.depthBound g)) g r x h
  have hlarge' :=
    Grammar.continuedBy_writeWithin (Nat.le_max_right n (store.depthBound g)) g r _ hwritten
  rw [hwritten, ← hlarge', hlarge]

/-- Grammars are written one after another, each with the definitions that those before it have
left. -/
inductive Collects (store : Store σ) (active : List Slot) :
    List (Grammar σ) → Definitions → Definitions → Prop
  | nil {d : Definitions} : store.Collects active [] d d
  | cons {q : Grammar σ} {qs : List (Grammar σ)} {d d' d'' : Definitions} {text : String}
      (hq : store.write q ⟨active, some d⟩ = some (text, ⟨active, some d'⟩))
      (hqs : store.Collects active qs d' d'') : store.Collects active (q :: qs) d d''

theorem Writes.collects {n : Nat} {qs : List (Grammar σ)} {active : List Slot} {d : Definitions}
    {r s : Rendering} (h : store.Writes n qs r s) (hr : r = ⟨active, some d⟩) :
    ∃ d', s = ⟨active, some d'⟩ ∧ store.Collects active qs d d' := by
  induction h generalizing d with
  | nil => exact ⟨d, hr, .nil⟩
  | cons hq _ ih =>
      subst hr
      obtain ⟨d₁, rfl, -⟩ := Grammar.appends_writeWithin n _ _ _ _ _ hq
      obtain ⟨d₂, hs, hqs⟩ := ih rfl
      exact ⟨d₂, hs, .cons (write_eq_of_writeWithin hq) hqs⟩

theorem Collects.grows {qs : List (Grammar σ)} {active : List Slot} {d d' : Definitions}
    (h : store.Collects active qs d d') : d.Grows d' := by
  induction h with
  | nil => exact .refl _
  | cons hq _ ih =>
      obtain ⟨d₁, hd₁, hgrows⟩ := Grammar.appends_writeWithin _ _ _ _ _ _ hq
      cases hd₁
      exact hgrows.trans ih

theorem Collects.split {ps qs : List (Grammar σ)} {active : List Slot} {d d'' : Definitions}
    (h : store.Collects active (ps ++ qs) d d'') :
    ∃ d', store.Collects active ps d d' ∧ store.Collects active qs d' d'' := by
  induction ps generalizing d with
  | nil => exact ⟨d, .nil, h⟩
  | cons p ps ih =>
      cases h with
      | cons hp hrest =>
          obtain ⟨d', hps, hqs⟩ := ih hrest
          exact ⟨d', .cons hp hps, hqs⟩

/-- What the parts of a grammar collect one after another is what the grammar collects. -/
theorem collects_writtenParts {g : Grammar σ} {active : List Slot} {d d' : Definitions}
    {text : String} (hplain : g.IsPlain)
    (h : store.write g ⟨active, some d⟩ = some (text, ⟨active, some d'⟩)) :
    store.Collects active g.writtenParts d d' := by
  have hwritten : g.writeWithin store (store.depthBound g + 1) ⟨active, some d⟩ =
      some (text, ⟨active, some d'⟩) :=
    Grammar.continuedBy_writeWithin (Nat.le_succ _) g _ _ h
  obtain ⟨d'', hd'', hcollects⟩ := (Grammar.writes_writeWithin hplain hwritten).collects rfl
  cases hd''
  exact hcollects

theorem text_eq_of_write {g : Grammar σ} {r r' s s' : Rendering} {text text' : String}
    (h : store.write g r = some (text, s)) (h' : store.write g r' = some (text', s'))
    (hactive : r.active = r'.active) : text = text' :=
  (Grammar.alike_writeWithin _ _ g (fun _ _ => .rfl) _ _ _ _ _ _ hactive rfl h h').1

/-- Whatever handles are open, a grammar is written as the same text, of the same rank and so in the
same parentheses, with any definitions before it and with none. The marks are afterwards what they
were before. -/
theorem text_independent_of_definitions (store : Store σ) (g : Grammar σ) (active : List Slot) :
    ∃ text own, store.rank g active = some (own, active) ∧
      ∀ definitions : Option Definitions, ∃ definitions' : Option Definitions,
        definitions'.isSome = definitions.isSome ∧
          store.write g ⟨active, definitions⟩ = some (text, ⟨active, definitions'⟩) ∧
            ∀ context : Rank, store.writeUnder context g ⟨active, definitions⟩ =
              some (context.enclose own text, ⟨active, definitions'⟩) := by
  obtain ⟨own, hown⟩ := store.exists_rank g active
  obtain ⟨text, r, hwritten, -⟩ := store.exists_write g ⟨active, none⟩
  refine ⟨text, own, hown, fun definitions => ?_⟩
  obtain ⟨text', ⟨active', definitions'⟩, hwritten', hleads⟩ :=
    store.exists_write g ⟨active, definitions⟩
  obtain rfl : active' = active := hleads.active
  obtain rfl : text = text' := text_eq_of_write hwritten hwritten' rfl
  refine ⟨definitions', hleads.collects, hwritten', fun context => ?_⟩
  simp [writeUnder, Grammar.Writer.enclosed, hown, hwritten']

/-- Collecting definitions leaves the entries that there are in front, as they are, and enters no
name twice. To write the grammar once more changes nothing. Once a part has been written, the
definitions that there are then are kept to the end: of two rules of one name in different parts the
first one keeps its definition. -/
theorem definitions_only_appended (store : Store σ) (g : Grammar σ) (active : List Slot)
    {d : Definitions} (hd : d.names.Nodup) :
    ∃ text added, store.write g ⟨active, some d⟩ =
        some (text, ⟨active, some ⟨d.entries ++ added⟩⟩) ∧
      (Definitions.mk (d.entries ++ added)).names.Nodup ∧
      store.write g ⟨active, some ⟨d.entries ++ added⟩⟩ =
        some (text, ⟨active, some ⟨d.entries ++ added⟩⟩) ∧
      ∀ before p after, g.writtenParts = before ++ p :: after →
        ∃ d₁ d₂ part, store.Collects active before d d₁ ∧
          store.write p ⟨active, some d₁⟩ = some (part, ⟨active, some d₂⟩) ∧
          ∀ name body, (name, body) ∈ d₂.entries →
            ∀ body', (name, body') ∈ d.entries ++ added ↔ body' = body := by
  obtain ⟨text, s, hwritten, -⟩ := store.exists_write g ⟨active, some d⟩
  obtain ⟨⟨entries⟩, rfl, hgrows⟩ := Grammar.appends_writeWithin _ g active d text s hwritten
  obtain ⟨added, rfl⟩ := hgrows.entries
  refine ⟨text, added, hwritten, hgrows.nodup hd, ?_, fun before p after hparts => ?_⟩
  · obtain ⟨text', s', hagain, -⟩ := store.exists_write g ⟨active, some ⟨d.entries ++ added⟩⟩
    obtain rfl := Grammar.settles_writeWithin _ g _ _ _ _ _ _ hwritten hagain rfl rfl
      (List.Subset.refl _)
    rw [hagain, text_eq_of_write hwritten hagain rfl]
  · have hp : p ∈ g.writtenParts := hparts ▸ List.mem_append_right _ List.mem_cons_self
    have hcollects := collects_writtenParts (Grammar.isPlain_of_mem_writtenParts hp) hwritten
    rw [hparts] at hcollects
    obtain ⟨d₁, hbefore, hrest⟩ := hcollects.split
    cases hrest with
    | @cons _ _ _ d₂ _ part hpart hafter =>
        refine ⟨d₁, d₂, part, hbefore, hpart, fun name body hentry body' => ?_⟩
        have hkept : (name, body) ∈ d.entries ++ added := hafter.grows.entries.subset hentry
        constructor
        · intro hentry'
          have hunique := List.inj_on_of_nodup_map (hgrows.nodup hd) hentry' hkept rfl
          exact congrArg Prod.snd hunique
        · rintro rfl
          exact hkept

/-- A name that is defined within its own rule, and is entered anew behind it, keeps that definition
when another rule of the same name comes up later. The last rule is kept in a slot and refers to
itself by its name. -/
theorem definitions_only_appended_double :
    let first : Grammar Nat :=
      .define "x" (.sequence (.define "x" (.literal "a")) (.literal "b"))
    let rest : Grammar Nat :=
      .sequence (.reference "x" (.literal "c")) (.reference "group" (.handle ⟨0, 0⟩))
    let store : Store Nat := ⟨⟨[some [some (.rule
      (.sequence (.literal "(") (.option (.reference "group" (.handle ⟨0, 0⟩)))))]]⟩, []⟩
    let d : Definitions := ⟨[("y", "\"y\"")]⟩
    let d' : Definitions :=
      ⟨[("y", "\"y\""), ("x", "x, \"b\""), ("group", "\"(\", [group]")]⟩
    d.names.Nodup ∧
      store.write (.sequence first rest) ⟨[], some d⟩ = some ("x, x, group", ⟨[], some d'⟩) ∧
      store.write (.sequence first rest) ⟨[], some d'⟩ = some ("x, x, group", ⟨[], some d'⟩) ∧
      ∃ d₂, store.write first ⟨[], some d⟩ = some ("x", ⟨[], some d₂⟩) ∧
        ("x", "x, \"b\"") ∈ d₂.entries ∧
          ∀ body, ("x", body) ∈ d'.entries ↔ body = "x, \"b\"" := by
  intro first rest store d d'
  have hd : d.names.Nodup := by decide
  have hlisting : store.write (.sequence first rest) ⟨[], some d⟩ =
      some ("x, x, group", ⟨[], some d'⟩) := by
    decide +kernel
  have hfirst : store.write first ⟨[], some d⟩ =
      some ("x", ⟨[], some ⟨[("y", "\"y\""), ("x", "x, \"b\"")]⟩⟩) := by
    decide +kernel
  obtain ⟨text, added, hwritten, -, hagain, hparts⟩ :=
    definitions_only_appended store (.sequence first rest) [] hd
  obtain ⟨rfl, hrendering⟩ := Prod.mk.inj (Option.some.inj (hlisting.symm.trans hwritten))
  have hd' : d' = ⟨d.entries ++ added⟩ :=
    Option.some.inj (congrArg Rendering.definitions hrendering)
  rw [← hd'] at hagain
  obtain ⟨d₁, d₂, part, hbefore, hpart, hkept⟩ := hparts [] first [rest] rfl
  cases hbefore
  cases hfirst.symm.trans hpart
  have hentry : ("x", "x, \"b\"") ∈ [("y", "\"y\""), ("x", "x, \"b\"")] := by decide
  refine ⟨hd, hlisting, hagain, _, hfirst, hentry, fun body => ?_⟩
  rw [hd']
  exact hkept "x" _ hentry body

end Store

end ParserAlgebra
