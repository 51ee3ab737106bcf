import ParserAlgebra.Proofs.Coverage

/-!
# Depth-first walks

A walk goes through grammars from left to right and depth first. It passes by every name and every
handle to which it has come before. Where all names are entered in front of their rules, a rendering
enters them in the order in which the walk comes to them. The rendering goes through the rule of a
handle again unless the handle is open, but there is nothing new to be found there.
-/

namespace ParserAlgebra

variable {σ : Type}

theorem Definitions.names_insert_of_not_mem {d : Definitions} {name : String} (h : name ∉ d.names)
    (body : String) : (d.insert name body).names = d.names ++ [name] := by
  rw [insert_of_not_mem h]
  exact List.map_append

/-- The handles and names to which a walk has come, the names in order. -/
structure Trail where
  slots : List Slot
  names : List String

namespace Trail

/-- A walk that has not come to anything yet. -/
def start : Trail :=
  ⟨[], []⟩

/-- The walk has come to a name or a handle before. -/
def Passed (t : Trail) : Grammar σ → Prop
  | .reference name _ | .define name _ | .fixed _ name _ => name ∈ t.names
  | .handle slot => slot ∈ t.slots
  | _ => False

/-- The walk comes to a grammar. -/
def enter (t : Trail) : Grammar σ → Trail
  | .reference name _ | .define name _ | .fixed _ name _ => { t with names := t.names ++ [name] }
  | .handle slot => { t with slots := slot :: t.slots }
  | _ => t

/-- What lies between two stations of a walk only adds to the trail. -/
structure Extends (t t' : Trail) : Prop where
  slots : t.slots ⊆ t'.slots
  names : t.names <+: t'.names

variable {t t' t'' : Trail} {g : Grammar σ} {store : Store σ}

theorem Extends.refl (t : Trail) : t.Extends t :=
  ⟨List.Subset.refl _, List.prefix_refl _⟩

theorem Extends.trans (h : t.Extends t') (h' : t'.Extends t'') : t.Extends t'' :=
  ⟨List.Subset.trans h.slots h'.slots, h.names.trans h'.names⟩

theorem extends_enter (t : Trail) (g : Grammar σ) : t.Extends (t.enter g) := by
  cases g with
  | reference name _ | define name _ | fixed _ name _ =>
      exact ⟨List.Subset.refl _, List.prefix_append _ _⟩
  | handle slot => exact ⟨List.subset_cons_self _ _, List.prefix_refl _⟩
  | _ => exact .refl t

theorem Passed.mono (h : t.Passed g) (hextends : t.Extends t') : t'.Passed g := by
  cases g with
  | reference name _ | define name _ | fixed _ name _ => exact hextends.names.subset h
  | handle slot => exact hextends.slots h
  | _ => exact h

theorem passed_enter {slot : Slot} (t : Trail) : (t.enter (.handle slot : Grammar σ)).Passed
    (.handle slot : Grammar σ) :=
  List.mem_cons_self

theorem passed_iff_of_named {name : String} {rule : Option (Grammar σ)}
    (hg : store.named? g = some (name, rule)) : t.Passed g ↔ name ∈ t.names := by
  cases g with
  | reference _ _ | define _ _ | fixed _ _ _ =>
      cases hg
      exact .rfl
  | _ => cases hg

theorem enter_of_named {name : String} {rule : Option (Grammar σ)}
    (hg : store.named? g = some (name, rule)) (t : Trail) :
    t.enter g = { t with names := t.names ++ [name] } := by
  cases g with
  | reference _ _ | define _ _ | fixed _ _ _ =>
      cases hg
      rfl
  | _ => cases hg

theorem not_passed_of_isPlain (hplain : g.IsPlain) : ¬ t.Passed g := by
  cases g with
  | reference _ _ | define _ _ | handle _ | fixed _ _ _ => exact hplain.elim
  | _ => exact id

theorem enter_of_isPlain (hplain : g.IsPlain) (t : Trail) : t.enter g = t := by
  cases g with
  | reference _ _ | define _ _ | handle _ | fixed _ _ _ => exact hplain.elim
  | _ => rfl

/-- On a grammar the walk comes to a new name at most, and then it is the grammar's own. -/
theorem names_enter (store : Store σ) (g : Grammar σ) (t : Trail) : (t.enter g).names = t.names ∨
    ∃ name rule, store.named? g = some (name, rule) ∧ (t.enter g).names = t.names ++ [name] := by
  cases g with
  | reference name _ | define name _ | fixed _ name _ => exact .inr ⟨name, _, rfl, rfl⟩
  | _ => exact .inl rfl

/-- Behind a grammar there is no name and no handle to which the walk has not come. -/
inductive Exhausts (t : Trail) : Grammar σ → Prop
  | passed {g : Grammar σ} (hg : t.Passed g) : t.Exhausts g
  | parts {g : Grammar σ} (hplain : g.IsPlain) (hparts : ∀ q ∈ g.writtenParts, t.Exhausts q) :
      t.Exhausts g

theorem Exhausts.mono (h : t.Exhausts g) (hextends : t.Extends t') : t'.Exhausts g := by
  induction h with
  | passed hg => exact .passed (hg.mono hextends)
  | parts hplain _ ih => exact .parts hplain ih

end Trail

/-- The beginning of a list ends before one of its elements or goes on behind it. -/
theorem prefix_or_eq_append_cons {α : Type} {l before after : List α} {a : α}
    (h : l <+: before ++ a :: after) : l <+: before ∨
      ∃ inside outside, l = before ++ a :: inside ∧ after = inside ++ outside := by
  obtain ⟨outside, h⟩ := h
  obtain ⟨more, rfl, -⟩ | ⟨more, rfl, hmore⟩ := List.append_eq_append_iff.1 h
  · exact .inl (List.prefix_append l more)
  · cases more with
    | nil => exact .inl ⟨[], by simp⟩
    | cons first inside =>
        cases hmore
        exact .inr ⟨inside, outside, rfl, rfl⟩

namespace Store

variable {store : Store σ} {root g : Grammar σ} {gs : List (Grammar σ)} {t t' t'' : Trail}
  {r s : Rendering} {name text : String} {rule : Option (Grammar σ)}

theorem successors_of_isPlain (hplain : g.IsPlain) : store.successors g = g.writtenParts := by
  cases g with
  | reference _ _ | define _ _ | handle _ | fixed _ _ _ => exact hplain.elim
  | _ => rfl

theorem successors_of_named (hg : store.named? g = some (name, rule)) :
    store.successors g = rule.toList := by
  cases g with
  | reference _ _ | define _ _ | fixed _ _ _ =>
      cases hg
      rfl
  | _ => cases hg

theorem Reaches.successor {q : Grammar σ} (h : store.Reaches root g)
    (hq : q ∈ store.successors g) : store.Reaches root q := by
  cases g with
  | reference _ _ | define _ _ =>
      obtain rfl := List.mem_singleton.1 hq
      exact h.named rfl
  | fixed _ _ _ => exact h.named (named?_fixed (Option.mem_toList.1 hq))
  | handle slot => exact h.handle (Option.mem_toList.1 hq)
  | _ => exact h.part hq

/-- A walk through grammars from left to right, through each of them with all that its writing goes
on with before the next one. A name or a handle to which the walk has come before is passed by. -/
inductive Walks (store : Store σ) : List (Grammar σ) → Trail → Trail → Prop
  | nil {t : Trail} : store.Walks [] t t
  | pass {g : Grammar σ} {gs : List (Grammar σ)} {t t' : Trail} (hg : t.Passed g)
      (hrest : store.Walks gs t t') : store.Walks (g :: gs) t t'
  | enter {g : Grammar σ} {gs : List (Grammar σ)} {t t' t'' : Trail} (hg : ¬ t.Passed g)
      (hnext : store.Walks (store.successors g) (t.enter g) t') (hrest : store.Walks gs t' t'') :
      store.Walks (g :: gs) t t''

namespace Walks

theorem extends_trail (h : store.Walks gs t t') : t.Extends t' := by
  induction h with
  | nil => exact .refl _
  | pass _ _ ih => exact ih
  | enter _ _ _ ihnext ihrest => exact (Trail.extends_enter _ _).trans (ihnext.trans ihrest)

/-- There is one walk only. -/
theorem unique (h : store.Walks gs t t') (h' : store.Walks gs t t'') : t' = t'' := by
  induction h generalizing t'' with
  | nil =>
      cases h'
      rfl
  | pass hg _ ih =>
      cases h' with
      | pass _ hrest => exact ih hrest
      | enter hnew _ _ => exact absurd hg hnew
  | enter hg _ _ ihnext ihrest =>
      cases h' with
      | pass hpassed _ => exact absurd hpassed hg
      | enter _ hnext hrest =>
          obtain rfl := ihnext hnext
          exact ihrest hrest

theorem cons (h : store.Walks [g] t t') (hrest : store.Walks gs t' t'') :
    store.Walks (g :: gs) t t'' := by
  cases h with
  | pass hg hnil =>
      cases hnil
      exact .pass hg hrest
  | enter hg hnext hnil =>
      cases hnil
      exact .enter hg hnext hrest

/-- Behind each name that is new on a walk stand the names that are first reached from its rule,
before all others. -/
theorem exists_block (h : store.Walks gs t t') (hgs : ∀ g ∈ gs, store.Reaches root g)
    {before after : List String} (hnames : t'.names = before ++ name :: after)
    (hnew : t.names <+: before) : ∃ g rule slots slots' inside outside, store.Reaches root g ∧
      store.named? g = some (name, rule) ∧ after = inside ++ outside ∧
        store.Walks rule.toList ⟨slots, before ++ [name]⟩ ⟨slots', before ++ name :: inside⟩ := by
  induction h generalizing before after with
  | nil =>
      have hlength := hnew.length_le
      rw [hnames, List.length_append, List.length_cons] at hlength
      omega
  | pass _ _ ih => exact ih (List.forall_mem_cons.1 hgs).2 hnames hnew
  | @enter g _ t t₁ t₂ hg hnext hrest ihnext ihrest =>
      obtain ⟨hreaches, hgs⟩ := List.forall_mem_cons.1 hgs
      -- The walk meets the name behind the first grammar, or farther down, or right there.
      obtain hlater | ⟨inside, outside, hinside, rfl⟩ :=
        prefix_or_eq_append_cons (hnames ▸ hrest.extends_trail.names)
      · exact ihrest hgs hnames hlater
      · have hdown (hentered : (t.enter g).names <+: before) : ∃ g rule slots slots' inside'
            outside', store.Reaches root g ∧ store.named? g = some (name, rule) ∧
              inside ++ outside = inside' ++ outside' ∧ store.Walks rule.toList
                ⟨slots, before ++ [name]⟩ ⟨slots', before ++ name :: inside'⟩ := by
          obtain ⟨g', rule, slots, slots', inside', outside', hg', hnamed, rfl, hwalks⟩ :=
            ihnext (fun q hq => hreaches.successor hq) hinside hentered
          exact ⟨g', rule, slots, slots', inside', outside' ++ outside, hg', hnamed,
            List.append_assoc _ _ _, hwalks⟩
        obtain hsame | ⟨own, rule, hnamed, hown⟩ := Trail.names_enter store g t
        · exact hdown (hsame ▸ hnew)
        · obtain hentered | ⟨rest, _, hhere, -⟩ :=
            prefix_or_eq_append_cons (hinside ▸ hnext.extends_trail.names)
          · exact hdown hentered
          · obtain ⟨rfl, rfl⟩ : t.names = before ∧ own = name := by
              obtain ⟨between, rfl⟩ := hnew
              rw [hown, List.append_assoc, List.append_cancel_left_eq] at hhere
              cases between with
              | nil =>
                  cases hhere
                  exact ⟨(List.append_nil _).symm, rfl⟩
              | cons first between => simp at hhere
            rw [successors_of_named hnamed, Trail.enter_of_named hnamed] at hnext
            refine ⟨g, rule, t.slots, t₁.slots, inside, outside, hreaches, hnamed, rfl, ?_⟩
            rw [← hinside]
            exact hnext

end Walks

/-- A rendering has come as far as a walk: it has entered the names to which the walk has come. The
handles to which the walk has come are open, or there is nothing new behind them. -/
structure Follows (store : Store σ) (r : Rendering) (t : Trail) : Prop where
  collects : r.definitions.isSome
  names : r.names = t.names
  opened : r.active ⊆ t.slots
  closed : ∀ slot ∈ t.slots, slot ∈ r.active ∨
    ∀ body, store.handle? slot = some body → t.Exhausts body

namespace Follows

theorem start (store : Store σ) : store.Follows (.fresh (some .empty)) .start :=
  ⟨rfl, rfl, List.Subset.refl _, fun _ hslot => nomatch hslot⟩

/-- Amending a definition changes neither names nor handles. -/
theorem amend (h : store.Follows r t) (name body : String) :
    store.Follows { r with definitions := r.definitions.map (·.amend name body) } t := by
  refine ⟨by simpa using h.collects, ?_, h.opened, h.closed⟩
  exact (Rendering.names_map (fun d => d.names_amend name body) r).trans h.names

/-- A new name is entered. -/
theorem enter_name {d : Definitions} (h : store.Follows r t) (hd : r.definitions = some d)
    (hnew : name ∉ d.names) (hg : store.named? g = some (name, rule)) :
    store.Follows { r with definitions := some (d.insert name name) } (t.enter g) := by
  have hextends := t.extends_enter g
  rw [Trail.enter_of_named hg] at hextends ⊢
  refine ⟨rfl, ?_, h.opened, fun slot hslot => ?_⟩
  · calc (d.insert name name).names
        = d.names ++ [name] := Definitions.names_insert_of_not_mem hnew name
      _ = t.names ++ [name] := by rw [← h.names, Rendering.names_of_definitions hd]
  · exact (h.closed slot hslot).imp_right fun hbody body hslot => (hbody body hslot).mono hextends

/-- A handle to which the walk has come is opened again. -/
theorem reopen_handle {slot : Slot} (h : store.Follows r t) (hslot : slot ∈ t.slots) :
    store.Follows { r with active := slot :: r.active } t := by
  refine ⟨h.collects, h.names, List.cons_subset.2 ⟨hslot, h.opened⟩, fun other hother => ?_⟩
  exact (h.closed other hother).imp_left (List.mem_cons_of_mem slot)

/-- A handle is opened. -/
theorem open_handle (h : store.Follows r t) (slot : Slot) :
    store.Follows { r with active := slot :: r.active } (t.enter (.handle slot : Grammar σ)) := by
  have hextends := t.extends_enter (.handle slot : Grammar σ)
  refine ⟨h.collects, h.names, List.cons_subset_cons slot h.opened, fun other hother => ?_⟩
  rcases List.mem_cons.1 hother with rfl | hold
  · exact .inl List.mem_cons_self
  · refine (h.closed other hold).imp (List.mem_cons_of_mem slot) fun hbody body hslot => ?_
    exact (hbody body hslot).mono hextends

/-- Behind a handle without a rule there is nothing. -/
theorem enter_empty {slot : Slot} (h : store.Follows r t) (hslot : store.handle? slot = none) :
    store.Follows r (t.enter (.handle slot : Grammar σ)) := by
  have hextends := t.extends_enter (.handle slot : Grammar σ)
  refine ⟨h.collects, h.names, List.Subset.trans h.opened hextends.slots, fun other hother => ?_⟩
  rcases List.mem_cons.1 hother with rfl | hold
  · simp [hslot]
  · exact (h.closed other hold).imp_right fun hbody body hslot => (hbody body hslot).mono hextends

/-- A handle is closed when there is nothing new behind it any more. -/
theorem close_handle {slot : Slot} (h : store.Follows s t) (hactive : s.active = slot :: r.active)
    (hbody : ∀ body, store.handle? slot = some body → t.Exhausts body) :
    store.Follows { s with active := Rendering.leave s.active slot } t := by
  have hleave : Rendering.leave s.active slot = r.active := by simp [hactive, Rendering.leave]
  refine ⟨h.collects, h.names, ?_, fun other hother => ?_⟩
  · rw [hleave]
    exact List.Subset.trans (List.subset_cons_self slot _) (hactive ▸ h.opened)
  · rw [hleave]
    rcases h.closed other hother with hopen | hclosed
    · rcases List.mem_cons.1 (hactive ▸ hopen) with rfl | hold
      · exact .inr hbody
      · exact .inl hold
    · exact .inr hclosed

end Follows

/-- A handle that is open or has no rule is written without going on; otherwise its rule is. -/
theorem written_handle {n : Nat} {slot : Slot}
    (h : (Grammar.handle slot).writeWithin store (n + 1) r = some (text, s)) :
    (s = r ∧ (slot ∈ r.active ∨ store.handle? slot = none)) ∨
      ∃ body r', store.handle? slot = some body ∧ slot ∉ r.active ∧
        body.writeWithin store n { r with active := slot :: r.active } = some (text, r') ∧
          s = { r' with active := Rendering.leave r'.active slot } := by
  rw [Grammar.writeWithin] at h
  cases hslot : store.handle? slot with
  | none =>
      rw [hslot] at h
      cases h
      exact .inl ⟨rfl, .inr rfl⟩
  | some body =>
      rw [hslot] at h
      obtain ⟨hopen, -, rfl⟩ | ⟨hnew, r', hinner, rfl⟩ := Grammar.Writer.eq_of_handle h
      · exact .inl ⟨rfl, .inl hopen⟩
      · exact .inr ⟨body, r', rfl, hnew, hinner, rfl⟩

/-- A name that has been entered is written without going on. -/
theorem eq_of_named_entered {n : Nat} (hg : store.named? g = some (name, rule))
    (hname : name ∈ r.names) (h : g.writeWithin store n r = some (text, s)) : s = r := by
  have hknown {d : Definitions} (hd : r.definitions = some d) : name ∈ d.names :=
    Rendering.names_of_definitions hd ▸ hname
  cases n with
  | zero => cases h
  | succ n =>
      cases g with
      | reference _ _ | fixed _ _ _ =>
          cases hg
          obtain ⟨-, ⟨rfl, -⟩ | ⟨d, _, _, hd, hnew, -⟩⟩ := Grammar.Writer.eq_of_reference h
          · rfl
          · exact absurd (hknown hd) hnew
      | define _ _ =>
          cases hg
          obtain ⟨-, ⟨rfl, -⟩ | ⟨d, _, _, hd, hnew, -⟩⟩ := Grammar.Writer.eq_of_define h
          · rfl
          · exact absurd (hknown hd) hnew
      | _ => cases hg

/-- What each part leaves as it was is left by all of them together. -/
theorem Writes.of_parts {n : Nat} {P : Rendering → Rendering → Prop} (hrefl : ∀ r, P r r)
    (htrans : ∀ r r' r'', P r r' → P r' r'' → P r r'') (h : store.Writes n gs r s)
    (hparts : ∀ q ∈ gs, ∀ r text s, q.writeWithin store n r = some (text, s) → P r s) : P r s := by
  induction h with
  | nil => exact hrefl _
  | cons hq _ ih =>
      obtain ⟨hfirst, hrest⟩ := List.forall_mem_cons.1 hparts
      exact htrans _ _ _ (hfirst _ _ _ hq) (ih hrest)

/-- Writing a grammar behind which there is nothing new leaves the rendering as it is. -/
theorem Follows.eq_of_exhausts {n : Nat} (h : store.Follows r t) (hg : t.Exhausts g)
    (hwritten : g.writeWithin store n r = some (text, s)) : s = r := by
  -- The induction is on the bound, since the rule of a handle that is not open is written again.
  induction n generalizing g r s text with
  | zero => cases hwritten
  | succ n ih =>
      cases hg with
      | parts hplain hparts =>
          refine (Grammar.writes_writeWithin hplain hwritten).of_parts
            (P := fun r s => store.Follows r t → s = r) (fun _ _ => rfl) ?_ ?_ h
          · intro r r' r'' hfirst hrest hr
            obtain rfl := hfirst hr
            exact hrest hr
          · exact fun q hq _ _ _ hq' hr => ih hr (hparts q hq) hq'
      | passed hpassed =>
          have hname {name : String} {rule : Option (Grammar σ)}
              (hnamed : store.named? g = some (name, rule)) : s = r := by
            have hentered := (Trail.passed_iff_of_named hnamed).1 hpassed
            exact eq_of_named_entered hnamed (h.names ▸ hentered) hwritten
          cases g with
          | reference _ _ | define _ _ | fixed _ _ _ => exact hname rfl
          | handle slot =>
              obtain ⟨rfl, -⟩ | ⟨body, r', hslot, hnew, hinner, rfl⟩ := written_handle hwritten
              · rfl
              · have hbody : t.Exhausts body :=
                  (h.closed slot hpassed).resolve_left hnew body hslot
                obtain rfl := ih (h.reopen_handle hpassed) hbody hinner
                simp [Rendering.leave]
          | _ => exact hpassed.elim

/-- The writing of some grammars comes to its end where a walk through them does. -/
def Tracks (store : Store σ) (gs : List (Grammar σ)) (s : Rendering) (t : Trail) : Prop :=
  ∃ t', store.Walks gs t t' ∧ store.Follows s t' ∧ ∀ g ∈ gs, t'.Exhausts g

theorem tracks_singleton_iff : store.Tracks [g] s t ↔
    ∃ t', store.Walks [g] t t' ∧ store.Follows s t' ∧ t'.Exhausts g := by
  simp [Tracks]

theorem tracks_of_passed (h : store.Follows s t) (hg : t.Passed g) : store.Tracks [g] s t :=
  tracks_singleton_iff.2 ⟨t, .pass hg .nil, h, .passed hg⟩

theorem tracks_of_entered (hg : ¬ t.Passed g)
    (hnext : store.Walks (store.successors g) (t.enter g) t') (h : store.Follows s t')
    (hend : t'.Exhausts g) : store.Tracks [g] s t :=
  tracks_singleton_iff.2 ⟨t', .enter hg hnext .nil, h, hend⟩

theorem Writes.tracks {n : Nat} (h : store.Writes n gs r s) (hfollows : store.Follows r t)
    (hparts : ∀ q ∈ gs, ∀ r text s t, store.Follows r t →
      q.writeWithin store n r = some (text, s) → store.Tracks [q] s t) :
    store.Tracks gs s t := by
  induction h generalizing t with
  | nil => exact ⟨t, .nil, hfollows, by simp⟩
  | cons hq _ ih =>
      obtain ⟨hfirst, hrest⟩ := List.forall_mem_cons.1 hparts
      obtain ⟨t₁, hwalk₁, hfollows₁, hend₁⟩ :=
        tracks_singleton_iff.1 (hfirst _ _ _ t hfollows hq)
      obtain ⟨t₂, hwalk₂, hfollows₂, hend₂⟩ := ih hfollows₁ hrest
      refine ⟨t₂, hwalk₁.cons hwalk₂, hfollows₂, List.forall_mem_cons.2 ⟨?_, hend₂⟩⟩
      exact hend₁.mono hwalk₂.extends_trail

/-- A name that is entered before its rule is written. -/
theorem tracks_reference {w : Grammar.Writer} (hg : store.named? g = some (name, rule))
    (hfollows : store.Follows r t)
    (hbody : ∀ r text s t, store.Follows r t → w r = some (text, s) →
      store.Tracks rule.toList s t)
    (h : Grammar.Writer.reference name w r = some (text, s)) : store.Tracks [g] s t := by
  obtain ⟨d, hd⟩ := Option.isSome_iff_exists.1 hfollows.collects
  have hnames : d.names = t.names := (Rendering.names_of_definitions hd).symm.trans hfollows.names
  have hpassed : t.Passed g ↔ name ∈ d.names := hnames ▸ Trail.passed_iff_of_named hg
  obtain ⟨-, ⟨rfl, hknown⟩ | ⟨d', inner, r', hd', hnew, hinner, rfl⟩⟩ :=
    Grammar.Writer.eq_of_reference h
  · exact tracks_of_passed hfollows (hpassed.2 (hknown d hd))
  · obtain rfl : d = d' := Option.some.inj (hd.symm.trans hd')
    obtain ⟨t', hwalks, hend, -⟩ := hbody _ inner r' _ (hfollows.enter_name hd hnew hg) hinner
    have hname : name ∈ (t.enter g).names := by
      rw [Trail.enter_of_named hg]
      exact List.mem_append_right _ List.mem_cons_self
    have hagain : t'.Passed g :=
      (Trail.passed_iff_of_named hg).2 (hwalks.extends_trail.names.subset hname)
    rw [← successors_of_named hg] at hwalks
    exact tracks_of_entered (fun hold => hnew (hpassed.1 hold)) hwalks (hend.amend name inner)
      (.passed hagain)

/-- A handle, whose rule is written again if the handle has been closed. -/
theorem tracks_handle {slot : Slot} {n : Nat} (hfollows : store.Follows r t)
    (hbody : ∀ body, store.handle? slot = some body → ∀ r text s t, store.Follows r t →
      body.writeWithin store n r = some (text, s) → store.Tracks [body] s t)
    (h : (Grammar.handle slot).writeWithin store (n + 1) r = some (text, s)) :
    store.Tracks [.handle slot] s t := by
  by_cases hpassed : slot ∈ t.slots
  · have hexhausts : t.Exhausts (.handle slot : Grammar σ) := .passed hpassed
    rw [hfollows.eq_of_exhausts hexhausts h]
    exact tracks_of_passed hfollows hpassed
  · obtain ⟨rfl, hopen | hslot⟩ | ⟨body, r', hslot, -, hinner, rfl⟩ := written_handle h
    · exact absurd (hfollows.opened hopen) hpassed
    · have hnext : store.successors (.handle slot) = [] := by simp [successors, hslot]
      exact tracks_of_entered hpassed (hnext ▸ .nil) (hfollows.enter_empty hslot)
        (.passed t.passed_enter)
    · obtain ⟨t', hwalks, hend, hexhausts⟩ :=
        tracks_singleton_iff.1 (hbody body hslot _ text r' _ (hfollows.open_handle slot) hinner)
      have hactive : r'.active = slot :: r.active :=
        (Grammar.leads_writeWithin n body _ _ _ hinner).active
      have hnext : store.successors (.handle slot) = [body] := by simp [successors, hslot]
      rw [← hnext] at hwalks
      refine tracks_of_entered hpassed hwalks (hend.close_handle hactive ?_) ?_
      · intro body' hbody'
        cases hslot.symm.trans hbody'
        exact hexhausts
      · exact .passed (t.passed_enter.mono hwalks.extends_trail)

/-- Where no name is entered behind its rule, a rendering comes to new names in the order of the
walk. -/
theorem tracks_writeWithin {n : Nat}
    (hahead : ∀ name body, ¬ store.Reaches root (.define name body))
    (hg : store.Reaches root g) (hfollows : store.Follows r t)
    (h : g.writeWithin store n r = some (text, s)) : store.Tracks [g] s t := by
  induction n generalizing g r s text t with
  | zero => cases h
  | succ n ih =>
      have hplain (hg' : g.IsPlain) : store.Tracks [g] s t := by
        obtain ⟨t', hwalks, hend, hexhausts⟩ := (Grammar.writes_writeWithin hg' h).tracks hfollows
          fun q hq _ _ _ _ hfollows hq' => ih (hg.part hq) hfollows hq'
        rw [← successors_of_isPlain hg', ← Trail.enter_of_isPlain hg' t] at hwalks
        exact tracks_of_entered (Trail.not_passed_of_isPlain hg') hwalks hend
          (.parts hg' hexhausts)
      cases g with
      | reference name body =>
          exact tracks_reference rfl hfollows
            (fun _ _ _ _ hfollows h => ih (hg.named rfl) hfollows h) h
      | define name body => exact absurd hg (hahead name body)
      | handle slot =>
          exact tracks_handle hfollows
            (fun _ hslot _ _ _ _ hfollows h => ih (hg.handle hslot) hfollows h) h
      | fixed hold name rule =>
          rw [Grammar.writeWithin] at h
          refine tracks_reference (named?_fixed rfl) hfollows (fun r text s t hfollows h => ?_) h
          cases hrule : store.fixed? rule with
          | none =>
              rw [hrule] at h
              cases h
              exact ⟨t, .nil, hfollows, by simp⟩
          | some body =>
              rw [hrule] at h
              exact ih (hg.named (named?_fixed hrule)) hfollows h
      | _ => exact hplain trivial

end Store

end ParserAlgebra
