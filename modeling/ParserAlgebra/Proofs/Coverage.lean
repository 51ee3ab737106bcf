import Mathlib.Data.Set.Insert
import ParserAlgebra.Proofs.Listing

/-!
# Listings leave nothing out

A rendering goes depth first through the rules that a grammar reaches. It is cut short at a name
that has been entered and at a handle that is open, but what is cut off there has been written
before or is being written further up. So at the end, whatever the cycles, every name that can be
reached has been entered, and it has been entered once.
-/

namespace ParserAlgebra

variable {σ : Type}

namespace Definitions

theorem names_insert (d : Definitions) (name body : String) :
    (d.insert name body).names = d.names.filter (· ≠ name) ++ [name] := by
  simp [insert, names, List.filter_map, Function.comp_def]

theorem eq_or_mem_of_mem_names_insert {d : Definitions} {name body other : String}
    (h : other ∈ (d.insert name body).names) : other = name ∨ other ∈ d.names := by
  rw [names_insert] at h
  rcases List.mem_append.1 h with hold | hadded
  · exact .inr (List.mem_filter.1 hold).1
  · exact .inl (List.mem_singleton.1 hadded)

theorem nodup_names_insert {d : Definitions} (h : d.names.Nodup) (name body : String) :
    (d.insert name body).names.Nodup := by
  rw [names_insert, List.nodup_append]
  refine ⟨h.filter _, List.nodup_singleton name, ?_⟩
  intro other hother added hadded
  rw [List.mem_singleton.1 hadded]
  simpa using (List.mem_filter.1 hother).2

end Definitions

theorem Rendering.names_of_definitions {r : Rendering} {d : Definitions}
    (h : r.definitions = some d) : r.names = d.names := by
  simp [names, h]

theorem Rendering.names_map {f : Definitions → Definitions} (hf : ∀ d, (f d).names = d.names)
    (r : Rendering) :
    ({ r with definitions := r.definitions.map f } : Rendering).names = r.names := by
  obtain ⟨active, definitions⟩ := r
  cases definitions with
  | none => rfl
  | some d => exact hf d

namespace Store

variable {store : Store σ} {root g q : Grammar σ} {seen seen' pending : Set (Grammar σ)}
  {r r' s : Rendering}

/-- The grammars with which the writing of a grammar goes on, unless it is cut short. -/
def successors (store : Store σ) : Grammar σ → List (Grammar σ)
  | .reference _ body | .define _ body => [body]
  | .fixed _ _ rule => (store.fixed? rule).toList
  | .handle slot => (store.handle? slot).toList
  | g => g.writtenParts

/-- Nothing else is reached than the grammars of a set that the writing does not lead out of. -/
theorem Reaches.mem_of_closed {set : Set (Grammar σ)} (h : store.Reaches root g)
    (hroot : root ∈ set) (hclosed : ∀ g ∈ set, ∀ q ∈ store.successors g, q ∈ set) : g ∈ set := by
  induction h with
  | root => exact hroot
  | @part g q _ hq ih =>
      cases g with
      | reference _ _ | define _ _ | fixed _ _ _ | handle _ => cases hq
      | _ => exact hclosed _ ih q hq
  | @handle slot body _ hslot ih => exact hclosed _ ih body (Option.mem_toList.2 hslot)
  | @named g body name _ hg ih =>
      refine hclosed g ih body ?_
      cases g with
      | reference name' body' =>
          cases hg
          exact List.mem_singleton_self body
      | define name' body' =>
          cases hg
          exact List.mem_singleton_self body
      | fixed hold name' rule =>
          have hrule : store.fixed? rule = some body := congrArg Prod.snd (Option.some.inj hg)
          exact Option.mem_toList.2 hrule
      | _ => cases hg

/-- The name of a grammar has been entered, and its writing goes on with grammars that have been
seen. -/
structure Explored (store : Store σ) (seen : Set (Grammar σ)) (r : Rendering) (g : Grammar σ) :
    Prop where
  next : ∀ q ∈ store.successors g, q ∈ seen
  name : ∀ name rule, store.named? g = some (name, rule) → name ∈ r.names

/-- A rendering in the course of which some grammars have been seen. All of them are explored, but
for those whose writing has begun and not come to its end. -/
structure Covers (store : Store σ) (root : Grammar σ) (seen pending : Set (Grammar σ))
    (r : Rendering) : Prop where
  collects : r.definitions.isSome
  nodup : r.names.Nodup
  reaches : ∀ g ∈ seen, store.Reaches root g
  explored : ∀ g ∈ seen, g ∈ pending ∨ store.Explored seen r g
  opened : ∀ slot ∈ r.active, ∀ body, store.handle? slot = some body → body ∈ seen
  entered : ∀ name ∈ r.names, ∃ g rule, store.Reaches root g ∧
    store.named? g = some (name, rule) ∧ ∀ body, rule = some body → body ∈ seen

namespace Explored

theorem mono (h : store.Explored seen r g) (hseen : seen ⊆ seen') (hnames : r.names ⊆ r'.names) :
    store.Explored seen' r' g :=
  ⟨fun q hq => hseen (h.next q hq), fun name rule hg => hnames (h.name name rule hg)⟩

/-- Behind a name there is nothing but the rule of the name. -/
theorem of_named {name : String} {rule : Option (Grammar σ)}
    (hg : store.named? g = some (name, rule)) (hname : name ∈ r.names)
    (hbody : ∀ body, rule = some body → body ∈ seen) : store.Explored seen r g := by
  constructor
  · intro q hq
    cases g <;> cases hg
    · exact hbody q (congrArg some (List.mem_singleton.1 hq).symm)
    · exact hbody q (congrArg some (List.mem_singleton.1 hq).symm)
    · exact hbody q (Option.mem_toList.1 hq)
  · intro name' rule' hg'
    cases hg.symm.trans hg'
    exact hname

theorem of_handle {slot : Slot} (hbody : ∀ body, store.handle? slot = some body → body ∈ seen) :
    store.Explored seen r (.handle slot) := by
  constructor
  · intro q hq
    exact hbody q (Option.mem_toList.1 hq)
  · intro name rule hg
    cases hg

theorem of_plain (hplain : g.IsPlain) (hparts : ∀ q ∈ g.writtenParts, q ∈ seen) :
    store.Explored seen r g := by
  constructor
  · intro q hq
    cases g with
    | reference _ _ | define _ _ | fixed _ _ _ | handle _ => exact hplain.elim
    | _ => exact hparts q hq
  · intro name rule hg
    cases g with
    | reference _ _ | define _ _ | fixed _ _ _ | handle _ => exact hplain.elim
    | _ => cases hg

end Explored

namespace Covers

/-- The writing of some grammars begins. -/
theorem begin {new : Set (Grammar σ)} (h : store.Covers root seen pending r)
    (hnew : ∀ g ∈ new, store.Reaches root g) :
    store.Covers root (seen ∪ new) (pending ∪ new) r := by
  have hseen : seen ⊆ seen ∪ new := Set.subset_union_left
  refine ⟨h.collects, h.nodup, ?_, ?_, ?_, ?_⟩
  · rintro q (hq | hq)
    · exact h.reaches q hq
    · exact hnew q hq
  · rintro q (hq | hq)
    · exact (h.explored q hq).imp .inl fun hexplored => hexplored.mono hseen (List.Subset.refl _)
    · exact .inl (.inr hq)
  · intro slot hslot body hbody
    exact hseen (h.opened slot hslot body hbody)
  · intro name hname
    obtain ⟨g, rule, hg, hnamed, hbody⟩ := h.entered name hname
    exact ⟨g, rule, hg, hnamed, fun body hrule => hseen (hbody body hrule)⟩

/-- The writing of some grammars comes to its end. -/
theorem finish {new : Set (Grammar σ)} (h : store.Covers root seen (pending ∪ new) r)
    (hnew : ∀ g ∈ new, store.Explored seen r g) : store.Covers root seen pending r := by
  refine { h with explored := fun q hq => ?_ }
  rcases h.explored q hq with (hpending | hq) | hexplored
  · exact .inl hpending
  · exact .inr (hnew q hq)
  · exact .inr hexplored

/-- A grammar that has been explored has been seen. -/
theorem insert (h : store.Covers root seen pending r) (hg : store.Reaches root g)
    (hexplored : store.Explored seen r g) : store.Covers root (seen ∪ {g}) pending r := by
  have hbegun : store.Covers root (seen ∪ {g}) (pending ∪ {g}) r :=
    h.begin fun q hq => Set.mem_singleton_iff.1 hq ▸ hg
  refine hbegun.finish fun q hq => ?_
  rw [Set.mem_singleton_iff.1 hq]
  exact hexplored.mono Set.subset_union_left (List.Subset.refl _)

/-- Handles may be opened that have been seen, and names entered whose rules have been seen. -/
theorem go (h : store.Covers root seen pending r) (hcollects : r'.definitions.isSome)
    (hnodup : r'.names.Nodup) (hnames : r.names ⊆ r'.names)
    (hopened : ∀ slot ∈ r'.active, slot ∈ r.active ∨
      ∀ body, store.handle? slot = some body → body ∈ seen)
    (hentered : ∀ name ∈ r'.names, name ∈ r.names ∨ ∃ g rule, store.Reaches root g ∧
      store.named? g = some (name, rule) ∧ ∀ body, rule = some body → body ∈ seen) :
    store.Covers root seen pending r' := by
  refine ⟨hcollects, hnodup, h.reaches, ?_, ?_, ?_⟩
  · intro q hq
    exact (h.explored q hq).imp id fun hexplored => hexplored.mono (Set.Subset.refl seen) hnames
  · intro slot hslot
    exact (hopened slot hslot).elim (h.opened slot) id
  · intro name hname
    exact (hentered name hname).elim (h.entered name) id

end Covers

/-- What has been seen before and while a grammar was written covers the rendering to which that
leads, and has the grammar itself among it. -/
def Visits (store : Store σ) (root : Grammar σ) (seen pending : Set (Grammar σ)) (g : Grammar σ)
    (s : Rendering) : Prop :=
  ∃ seen', seen ⊆ seen' ∧ g ∈ seen' ∧ store.Covers root seen' pending s ∧ store.Explored seen' s g

theorem Covers.visits (h : store.Covers root seen' pending s) (hseen : seen ⊆ seen')
    (hg : store.Reaches root g) (hexplored : store.Explored seen' s g) :
    store.Visits root seen pending g s := by
  refine ⟨seen' ∪ {g}, hseen.trans Set.subset_union_left, ?_, h.insert hg hexplored, ?_⟩
  · exact Set.mem_union_right seen' (Set.mem_singleton g)
  · exact hexplored.mono Set.subset_union_left (List.Subset.refl _)

/-- Parts that are written one after another have all been seen at the end. -/
theorem covers_of_writes {n : Nat} {qs : List (Grammar σ)}
    (hpart : ∀ q ∈ qs, ∀ seen r text s, store.Covers root seen pending r →
      q.writeWithin store n r = some (text, s) → store.Visits root seen pending q s)
    (hcovers : store.Covers root seen pending r) (h : store.Writes n qs r s) :
    ∃ seen', seen ⊆ seen' ∧ (∀ q ∈ qs, q ∈ seen') ∧ store.Covers root seen' pending s := by
  induction h generalizing seen with
  | nil => exact ⟨seen, Set.Subset.refl seen, by simp, hcovers⟩
  | cons hq _ ih =>
      rw [List.forall_mem_cons] at hpart
      obtain ⟨seen₁, hseen₁, hmem, hcovers₁, -⟩ := hpart.1 _ _ _ _ hcovers hq
      obtain ⟨seen₂, hseen₂, hrest, hcovers₂⟩ := ih hpart.2 hcovers₁
      refine ⟨seen₂, hseen₁.trans hseen₂, ?_, hcovers₂⟩
      exact List.forall_mem_cons.2 ⟨hseen₂ hmem, hrest⟩

/-- A name that has been entered already has the same rule, which has been seen. -/
theorem Covers.visits_of_entered (hconsistent : store.NamesConsistent root)
    (h : store.Covers root seen pending r) (hg : store.Reaches root g) {name : String}
    {rule : Option (Grammar σ)} (hnamed : store.named? g = some (name, rule))
    (hname : ∀ d, r.definitions = some d → name ∈ d.names) :
    store.Visits root seen pending g r := by
  obtain ⟨d, hd⟩ := Option.isSome_iff_exists.1 h.collects
  have hentered : name ∈ r.names := Rendering.names_of_definitions hd ▸ hname d hd
  obtain ⟨g', rule', hg', hnamed', hbody⟩ := h.entered name hentered
  obtain rfl := hconsistent g g' name rule rule' hg hg' hnamed hnamed'
  exact h.visits (Set.Subset.refl seen) hg (.of_named hnamed hentered hbody)

/-- A rule that is entered under its name before it is written. -/
theorem visits_reference (hconsistent : store.NamesConsistent root) {name text : String}
    {rule : Option (Grammar σ)} {body : Grammar.Writer} (hleads : body.Leads)
    (hwritten : ∀ seen pending r text s, store.Covers root seen pending r →
      body r = some (text, s) → ∃ seen', seen ⊆ seen' ∧ store.Covers root seen' pending s ∧
        ∀ g, rule = some g → g ∈ seen' ∧ store.Explored seen' s g)
    (hg : store.Reaches root g) (hnamed : store.named? g = some (name, rule))
    (hcovers : store.Covers root seen pending r)
    (h : Grammar.Writer.reference name body r = some (text, s)) :
    store.Visits root seen pending g s := by
  obtain ⟨-, ⟨rfl, hknown⟩ | ⟨d, inner, r', hd, hnew, hinner, rfl⟩⟩ :=
    Grammar.Writer.eq_of_reference h
  · exact hcovers.visits_of_entered hconsistent hg hnamed hknown
  · have hnames : r.names = d.names := Rendering.names_of_definitions hd
    have hbegun : store.Covers root (seen ∪ {g | rule = some g}) (pending ∪ {g | rule = some g})
        r :=
      hcovers.begin fun q hq => hg.named (hnamed.trans (by rw [show rule = some q from hq]))
    have hentered : store.Covers root (seen ∪ {g | rule = some g}) (pending ∪ {g | rule = some g})
        { r with definitions := some (d.insert name name) } := by
      refine hbegun.go rfl ?_ (Rendering.LeadsTo.insert hd name name).names (fun _ => .inl) ?_
      · exact Definitions.nodup_names_insert (hnames ▸ hcovers.nodup) name name
      · intro other hother
        rcases Definitions.eq_or_mem_of_mem_names_insert hother with rfl | hold
        · exact .inr ⟨g, rule, hg, hnamed, fun q hq => .inr hq⟩
        · exact .inl (hnames ▸ hold)
    obtain ⟨seen', hseen, hend, hrule⟩ := hwritten _ _ _ inner r' hentered hinner
    have hname : name ∈ r'.names :=
      (hleads _ inner r' hinner).names (d.mem_names_insert name name)
    have hamended : ({ r' with definitions := r'.definitions.map (·.amend name inner) } :
        Rendering).names = r'.names := Rendering.names_map (fun d => d.names_amend name inner) r'
    have hclosed : store.Covers root seen' pending
        { r' with definitions := r'.definitions.map (·.amend name inner) } := by
      refine (hend.finish fun q hq => (hrule q hq).2).go ?_ ?_ ?_ (fun _ => .inl) ?_
      · simpa using hend.collects
      · rw [hamended]
        exact hend.nodup
      · rw [hamended]
        exact List.Subset.refl _
      · intro other hother
        exact .inl (hamended ▸ hother)
    refine hclosed.visits (Set.subset_union_left.trans hseen) hg (.of_named hnamed ?_ ?_)
    · rw [hamended]
      exact hname
    · exact fun q hq => (hrule q hq).1

/-- A rule that is entered under its name after it has been written. -/
theorem visits_define (hconsistent : store.NamesConsistent root) {name text : String}
    {body : Grammar σ} {w : Grammar.Writer}
    (hwritten : ∀ seen r text s, store.Covers root seen pending r → w r = some (text, s) →
      store.Visits root seen pending body s)
    (hg : store.Reaches root (.define name body)) (hcovers : store.Covers root seen pending r)
    (h : Grammar.Writer.define name w r = some (text, s)) :
    store.Visits root seen pending (.define name body) s := by
  obtain ⟨-, ⟨rfl, hknown⟩ | ⟨d, inner, r', hd, hnew, hinner, rfl⟩⟩ := Grammar.Writer.eq_of_define h
  · exact hcovers.visits_of_entered hconsistent hg rfl hknown
  · obtain ⟨seen', hseen, hbody, hend, -⟩ := hwritten seen r inner r' hcovers hinner
    obtain ⟨d', hd'⟩ := Option.isSome_iff_exists.1 hend.collects
    have hnames : r'.names = d'.names := Rendering.names_of_definitions hd'
    have hrule : ∀ q, some body = some q → q ∈ seen' := by
      rintro q hq
      cases hq
      exact hbody
    have hclosed : store.Covers root seen' pending
        { r' with definitions := some (d'.insert name inner) } := by
      refine hend.go rfl ?_ (Rendering.LeadsTo.insert hd' name inner).names (fun _ => .inl) ?_
      · exact Definitions.nodup_names_insert (hnames ▸ hend.nodup) name inner
      · intro other hother
        rcases Definitions.eq_or_mem_of_mem_names_insert hother with rfl | hold
        · exact .inr ⟨.define other body, some body, hg, rfl, hrule⟩
        · exact .inl (hnames ▸ hold)
    rw [hd']
    exact hclosed.visits hseen hg (.of_named rfl (d'.mem_names_insert name inner) hrule)

/-- The rule of a handle that is written while the handle is open. -/
theorem visits_handle {slot : Slot} {text : String} {body : Grammar σ} {w : Grammar.Writer}
    (hwritten : ∀ seen pending r text s, store.Covers root seen pending r → w r = some (text, s) →
      store.Visits root seen pending body s)
    (hslot : store.handle? slot = some body) (hg : store.Reaches root (.handle slot))
    (hcovers : store.Covers root seen pending r)
    (h : Grammar.Writer.handle slot w r = some (text, s)) :
    store.Visits root seen pending (.handle slot) s := by
  obtain ⟨hopen, -, rfl⟩ | ⟨hnew, r', hinner, rfl⟩ := Grammar.Writer.eq_of_handle h
  · exact hcovers.visits (Set.Subset.refl seen) hg (.of_handle (hcovers.opened slot hopen))
  · have hbegun : store.Covers root (seen ∪ {g | store.handle? slot = some g})
        (pending ∪ {g | store.handle? slot = some g}) r :=
      hcovers.begin fun q hq => hg.handle hq
    have hopened : store.Covers root (seen ∪ {g | store.handle? slot = some g})
        (pending ∪ {g | store.handle? slot = some g}) { r with active := slot :: r.active } := by
      refine hbegun.go hbegun.collects hbegun.nodup (List.Subset.refl _) ?_ (fun _ => .inl)
      intro other hother
      rcases List.mem_cons.1 hother with rfl | hold
      · exact .inr fun q hq => .inr hq
      · exact .inl hold
    obtain ⟨seen', hseen, hbody, hend, hexplored⟩ := hwritten _ _ _ text r' hopened hinner
    have hrule : ∀ q, store.handle? slot = some q → q ∈ seen' ∧ store.Explored seen' r' q := by
      intro q hq
      cases hslot.symm.trans hq
      exact ⟨hbody, hexplored⟩
    have hclosed : store.Covers root seen' pending
        { r' with active := Rendering.leave r'.active slot } :=
      (hend.finish fun q hq => (hrule q hq).2).go hend.collects hend.nodup (List.Subset.refl _)
        (fun other hother => .inl (List.mem_of_mem_erase hother)) (fun _ => .inl)
    exact hclosed.visits (Set.subset_union_left.trans hseen) hg
      (.of_handle fun q hq => (hrule q hq).1)

/-- Writing a grammar explores it. -/
theorem visits_writeWithin (hconsistent : store.NamesConsistent root) (n : Nat) {text : String}
    (hg : store.Reaches root g) (hcovers : store.Covers root seen pending r)
    (h : g.writeWithin store n r = some (text, s)) : store.Visits root seen pending g s := by
  -- The induction is on the bound. What is cut short is either entered or open, and the invariant
  -- says of both that their rules have been seen.
  induction n generalizing g r s text seen pending with
  | zero => cases h
  | succ n ih =>
      have hplain (hg' : g.IsPlain) : store.Visits root seen pending g s := by
        have hwrites := Grammar.writes_writeWithin hg' h
        obtain ⟨seen', hseen, hparts, hend⟩ :=
          covers_of_writes (fun q hq _ _ _ _ hcovers h => ih (hg.part hq) hcovers h) hcovers hwrites
        exact hend.visits hseen hg (.of_plain hg' hparts)
      have hrule (body : Grammar σ) (hbody : store.Reaches root body)
          (seen pending : Set (Grammar σ)) (r : Rendering) (text : String) (s : Rendering)
          (hcovers : store.Covers root seen pending r)
          (h : body.writeWithin store n r = some (text, s)) : ∃ seen', seen ⊆ seen' ∧
            store.Covers root seen' pending s ∧
              ∀ q, some body = some q → q ∈ seen' ∧ store.Explored seen' s q := by
        obtain ⟨seen', hseen, hmem, hend, hexplored⟩ := ih hbody hcovers h
        refine ⟨seen', hseen, hend, ?_⟩
        rintro q hq
        cases hq
        exact ⟨hmem, hexplored⟩
      cases g with
      | reference name body =>
          have hbody : store.Reaches root body := hg.named rfl
          have hleads : (body.writeWithin store n).Leads := Grammar.leads_writeWithin n body
          exact visits_reference hconsistent hleads (hrule body hbody) hg rfl hcovers h
      | define name body =>
          exact visits_define hconsistent (fun _ _ _ _ hcovers h => ih (hg.named rfl) hcovers h)
            hg hcovers h
      | handle slot =>
          rw [Grammar.writeWithin] at h
          cases hslot : store.handle? slot with
          | none =>
              rw [hslot] at h
              cases h
              refine hcovers.visits (Set.Subset.refl seen) hg (.of_handle ?_)
              simp [hslot]
          | some body =>
              rw [hslot] at h
              exact visits_handle (fun _ _ _ _ _ hcovers h => ih (hg.handle hslot) hcovers h) hslot
                hg hcovers h
      | fixed hold name rule =>
          rw [Grammar.writeWithin] at h
          cases hfound : store.fixed? rule with
          | none =>
              rw [hfound] at h
              refine visits_reference hconsistent (Grammar.Writer.leads_text "?") ?_ hg
                (named?_fixed hfound) hcovers h
              intro seen pending r text s hcovers h
              cases h
              exact ⟨seen, Set.Subset.refl seen, hcovers, by simp⟩
          | some body =>
              rw [hfound] at h
              have hbody : store.Reaches root body := hg.named (named?_fixed hfound)
              have hleads : (body.writeWithin store n).Leads := Grammar.leads_writeWithin n body
              exact visits_reference hconsistent hleads (hrule body hbody) hg
                (named?_fixed hfound) hcovers h
      | _ => exact hplain trivial

/-- The text of a grammar has the name of a rule in it, unless a handle that is open cuts it off. -/
inductive Shows (store : Store σ) : Grammar σ → String → Prop
  | name {g : Grammar σ} {name : String} {rule : Option (Grammar σ)}
      (hg : store.named? g = some (name, rule)) : store.Shows g name
  | part {g q : Grammar σ} {name : String} (hq : q ∈ g.writtenParts) (hname : store.Shows q name) :
      store.Shows g name
  | handle {slot : Slot} {body : Grammar σ} {name : String} (hslot : store.handle? slot = some body)
      (hname : store.Shows body name) : store.Shows (.handle slot) name

theorem Shows.exists_reaches {name : String} (h : store.Shows g name) (hg : store.Reaches root g) :
    ∃ q rule, store.Reaches root q ∧ store.named? q = some (name, rule) := by
  induction h with
  | name hnamed => exact ⟨_, _, hg, hnamed⟩
  | part hq _ ih => exact ih (hg.part hq)
  | handle hslot _ ih => exact ih (hg.handle hslot)

theorem covers_fresh (store : Store σ) (root : Grammar σ) :
    store.Covers root ∅ ∅ (.fresh (some .empty)) :=
  ⟨rfl, List.nodup_nil, by simp, by simp, by simp [Rendering.fresh],
    by simp [Rendering.names, Rendering.fresh, Definitions.empty, Definitions.names]⟩

/-- Every name that a grammar reaches is in its listing, once. -/
theorem mem_names_of_describe (hconsistent : store.NamesConsistent root) {text : String}
    {definitions : Definitions} (h : store.describe root .empty = some (text, definitions)) :
    definitions.names.Nodup ∧ ∀ g name rule, store.Reaches root g →
      store.named? g = some (name, rule) → name ∈ definitions.names := by
  obtain ⟨⟨text', r⟩, hwritten, h⟩ := Option.bind_eq_some_iff.1 h
  obtain ⟨definitions', hdefinitions, h⟩ := Option.bind_eq_some_iff.1 h
  cases h
  have hnames : r.names = definitions.names := Rendering.names_of_definitions hdefinitions
  obtain ⟨seen, -, hroot, hcovers, -⟩ :=
    visits_writeWithin hconsistent _ .root (covers_fresh store root) hwritten
  have hexplored (g : Grammar σ) (hg : g ∈ seen) : store.Explored seen r g :=
    (hcovers.explored g hg).resolve_left (Set.notMem_empty g)
  rw [← hnames]
  refine ⟨hcovers.nodup, fun g name rule hg hnamed => ?_⟩
  have hseen : g ∈ seen := hg.mem_of_closed hroot fun g hg => (hexplored g hg).next
  exact (hexplored g hseen).name name rule hnamed

/-- Nothing is in the listing of a grammar that is not a name it reaches. -/
theorem exists_reaches_of_mem_names {text : String} {definitions : Definitions}
    (h : store.describe root .empty = some (text, definitions)) {name : String}
    (hname : name ∈ definitions.names) :
    ∃ g rule, store.Reaches root g ∧ store.named? g = some (name, rule) := by
  obtain ⟨⟨name', body⟩, hentry, rfl⟩ := List.mem_map.1 hname
  obtain ⟨g, r, d, rule, hcomes, hg, -⟩ := records_of_describe h hentry
  exact ⟨g, rule, hcomes.reaches, hg⟩

/-- The listing of a grammar whose names are consistent has exactly the names that the grammar
reaches, each of them once. So no name that the grammar or a rule of the listing shows is without
its definition. -/
theorem names_describe_eq_reached (hconsistent : store.NamesConsistent root) :
    ∃ text definitions, store.describe root .empty = some (text, definitions) ∧
      definitions.names.Nodup ∧
      (∀ name, name ∈ definitions.names ↔
        ∃ g rule, store.Reaches root g ∧ store.named? g = some (name, rule)) ∧
      (∀ name, store.Shows root name → name ∈ definitions.names) ∧
      ∀ listed ∈ definitions.names, ∀ g body, store.Reaches root g →
        store.named? g = some (listed, some body) →
          ∀ name, store.Shows body name → name ∈ definitions.names := by
  obtain ⟨text, definitions, hdescribe⟩ := store.exists_describe root .empty
  obtain ⟨hnodup, hlisted⟩ := mem_names_of_describe hconsistent hdescribe
  have hshown {g : Grammar σ} {name : String} (hg : store.Reaches root g)
      (hname : store.Shows g name) : name ∈ definitions.names := by
    obtain ⟨q, rule, hq, hnamed⟩ := hname.exists_reaches hg
    exact hlisted q name rule hq hnamed
  refine ⟨text, definitions, hdescribe, hnodup, ?_, ?_, ?_⟩
  · intro name
    constructor
    · exact exists_reaches_of_mem_names hdescribe
    · rintro ⟨g, rule, hg, hnamed⟩
      exact hlisted g name rule hg hnamed
  · intro name hname
    exact hshown .root hname
  · intro listed _ g body hg hnamed name hname
    exact hshown (hg.named hnamed) hname

section Brackets

/-- A list in brackets. Its rule is kept in a slot, names itself, and ends with a fixed point. -/
def bracketRule : Grammar Nat :=
  .sequence (.define "open" (.literal "["))
    (.sequence (.option (.reference "list" (.handle ⟨0, 0⟩))) (.fixed .owner "tail" 0))

def tailRule : Grammar Nat :=
  .choice (.literal "]")
    (.sequence (.rename "comma" .atom (.define "hidden" (.literal ",")))
      (.fixed .borrower "tail" 0))

def bracketStore : Store Nat :=
  ⟨⟨[some [some (.rule bracketRule)]]⟩, [some tailRule]⟩

/-- The grammars that are reached from the handle of the list. -/
def bracketGrammars : List (Grammar Nat) :=
  let name : Grammar Nat := .reference "list" (.handle ⟨0, 0⟩)
  let comma : Grammar Nat := .rename "comma" .atom (.define "hidden" (.literal ","))
  [.handle ⟨0, 0⟩, bracketRule, .define "open" (.literal "["), .literal "[",
    .sequence (.option name) (.fixed .owner "tail" 0), .option name, name, .fixed .owner "tail" 0,
    tailRule, .literal "]", .sequence comma (.fixed .borrower "tail" 0), comma,
    .fixed .borrower "tail" 0]

theorem mem_bracketGrammars {g : Grammar Nat} (h : bracketStore.Reaches (.handle ⟨0, 0⟩) g) :
    g ∈ bracketGrammars := by
  have hslot : bracketStore.handle? ⟨0, 0⟩ = some bracketRule := rfl
  have hrule : bracketStore.fixed? 0 = some tailRule := rfl
  have hset : g ∈ {g | g ∈ bracketGrammars} := by
    refine h.mem_of_closed List.mem_cons_self ?_
    simp [bracketGrammars, successors, Grammar.writtenParts, hslot, hrule, bracketRule, tailRule]
  exact hset

theorem namesConsistent_bracket : bracketStore.NamesConsistent (.handle ⟨0, 0⟩) := by
  have hnamed {g : Grammar Nat} {name : String} {rule : Option (Grammar Nat)}
      (hg : bracketStore.Reaches (.handle ⟨0, 0⟩) g)
      (hnamed : bracketStore.named? g = some (name, rule)) :
      (name, rule) ∈ [("open", some (.literal "[")), ("list", some (.handle ⟨0, 0⟩)),
        ("tail", some tailRule)] := by
    have hmem := mem_bracketGrammars hg
    simp only [bracketGrammars, List.mem_cons, List.not_mem_nil, or_false] at hmem
    rcases hmem with rfl | rfl | rfl | rfl | rfl | rfl | rfl | rfl | rfl | rfl | rfl | rfl | rfl <;>
      cases hnamed <;> simp [bracketStore, fixed?]
  intro g g' name rule rule' hg hg' hrule hrule'
  have h := hnamed hg hrule
  have h' := hnamed hg' hrule'
  simp only [List.mem_cons, List.not_mem_nil, or_false, Prod.mk.injEq] at h h'
  rcases h with ⟨rfl, rfl⟩ | ⟨rfl, rfl⟩ | ⟨rfl, rfl⟩ <;> simpa [eq_comm] using h'

theorem names_describe_eq_reached_bracket :
    bracketStore.NamesConsistent (.handle ⟨0, 0⟩) ∧
      bracketStore.describe (.handle ⟨0, 0⟩) .empty =
        some ("open, [list], tail", ⟨[("open", "\"[\""), ("list", "..."),
          ("tail", "\"]\" | comma, tail")]⟩) ∧
      ∀ name, name ∈ ["open", "list", "tail"] ↔ ∃ g rule,
        bracketStore.Reaches (.handle ⟨0, 0⟩) g ∧ bracketStore.named? g = some (name, rule) := by
  have hlisting : bracketStore.describe (.handle ⟨0, 0⟩) .empty =
      some ("open, [list], tail", ⟨[("open", "\"[\""), ("list", "..."),
        ("tail", "\"]\" | comma, tail")]⟩) := by
    decide +kernel
  obtain ⟨text, definitions, hdescribe, -, hnames, -⟩ :=
    names_describe_eq_reached namesConsistent_bracket
  obtain ⟨rfl, rfl⟩ := Prod.mk.inj (Option.some.inj (hlisting.symm.trans hdescribe))
  exact ⟨namesConsistent_bracket, hlisting, hnames⟩

end Brackets

end Store

end ParserAlgebra
