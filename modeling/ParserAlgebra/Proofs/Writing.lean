import ParserAlgebra.Proofs.Holes
import ParserAlgebra.Proofs.Rendering

/-!
# What a written form depends on

A grammar is written out of its parts until a name is written, behind which nothing is visible, or a
handle, which is visible as its rule or as three dots. So the text of a grammar depends on the marks
of the handles that it exposes and on no other marks, on no definitions and not on the depth
allowed, if there is a text at all.
-/

namespace ParserAlgebra

variable {σ : Type}

theorem Rendering.LeadsTo.insert {r : Rendering} {d : Definitions} (hd : r.definitions = some d)
    (name body : String) : r.LeadsTo { r with definitions := some (d.insert name body) } := by
  have hinserted := of_map_definitions (fun d => d.names_subset_insert name body) r
  rwa [hd] at hinserted

namespace Grammar

/-- The parts that are written where a grammar is written, one after another. -/
def writtenParts : Grammar σ → List (Grammar σ)
  | .sequence a b | .choice a b => [a, b]
  | .sepBy item separator => [item, separator, item]
  | .repetition _ g | .option g | .discard g | .except _ g _ | .attempt g | .attemptPure g
  | .strict _ g | .trace _ g | .token g | .shared g => [g]
  | .all _ _ parts | .any _ _ parts => parts.map (·.2)
  | _ => []

/-- Whether a grammar is written by operators alone, without names that could be entered and without
marks. -/
def IsPlain : Grammar σ → Prop
  | .reference _ _ | .define _ _ | .handle _ | .fixed _ _ _ => False
  | _ => True

namespace Writer

/-- A way of finding the rank of a part. -/
abbrev Ranking :=
  List Slot → Option (Rank × List Slot)

/-- Writers that are related one by one, with the parts that go into all of them. -/
inductive Each (R : List (Grammar σ) → Writer → Writer → Prop) :
    List (Grammar σ) → List Writer → List Writer → Prop
  | nil : Each R [] [] []
  | cons {parts rest : List (Grammar σ)} {w w' : Writer} {ws ws' : List Writer}
      (hw : R parts w w') (hws : Each R rest ws ws') :
      Each R (parts ++ rest) (w :: ws) (w' :: ws')

/-- Operators take related parts to related wholes. The relation is told which parts those are. -/
structure Congruence (R : List (Grammar σ) → Writer → Writer → Prop)
    (S : Ranking → Ranking → Prop) : Prop where
  text (s : String) : R [] (text s) (text s)
  enclosed {parts : List (Grammar σ)} {rank rank' : Ranking} {part part' : Writer}
    (hrank : S rank rank') (hpart : R parts part part') (context : Rank) :
    R parts (enclosed context rank part) (enclosed context rank' part')
  separated {parts : List (Grammar σ)} {ws ws' : List Writer} (hws : Each R parts ws ws')
    (separator : String) : R parts (separated separator ws) (separated separator ws')
  around {parts : List (Grammar σ)} {part part' : Writer} (hpart : R parts part part')
    (before after : String) : R parts (around before after part) (around before after part')

end Writer

variable {store : Store σ} {R : List (Grammar σ) → Writer → Writer → Prop}
  {S : Writer.Ranking → Writer.Ranking → Prop}

/-- Of the writers of a plain grammar whose holes are filled in two ways only those of the parts
have to be compared. -/
theorem related_writeWithin_plug (hR : Writer.Congruence R S) {holes : List RuleId}
    {u v : Grammar σ} {n m : Nat} {g : Grammar σ} (hplain : g.IsPlain)
    (hparts : ∀ q ∈ g.writtenParts,
      R [q] ((q.plug holes u).writeWithin store n) ((q.plug holes v).writeWithin store m))
    (hranks : ∀ q ∈ g.writtenParts,
      S ((q.plug holes u).rankWithin store n) ((q.plug holes v).rankWithin store m)) :
    R g.writtenParts ((g.plug holes u).writeWithin store (n + 1))
      ((g.plug holes v).writeWithin store (m + 1)) := by
  have hunder (context : Rank) (q : Grammar σ) (hq : q ∈ g.writtenParts) : R [q]
      (.enclosed context ((q.plug holes u).rankWithin store n)
        ((q.plug holes u).writeWithin store n))
      (.enclosed context ((q.plug holes v).rankWithin store m)
        ((q.plug holes v).writeWithin store m)) :=
    hR.enclosed (hranks q hq) (hparts q hq) context
  have hunderAll (context : Rank) (parts : List (Kind × Grammar σ))
      (hmem : ∀ part ∈ parts, part.2 ∈ g.writtenParts) : Writer.Each R (parts.map (·.2))
        ((plug.plugParts holes parts u).map fun part =>
          .enclosed context (part.2.rankWithin store n) (part.2.writeWithin store n))
        ((plug.plugParts holes parts v).map fun part =>
          .enclosed context (part.2.rankWithin store m) (part.2.writeWithin store m)) := by
    induction parts with
    | nil => exact .nil
    | cons part parts ih =>
        obtain ⟨hpart, hrest⟩ := List.forall_mem_cons.1 hmem
        exact .cons (hunder context part.2 hpart) (ih hrest)
  cases g with
  | accept p | expect p | literal s | pattern source matcher | succeed | fail
  | rename name rank g => exact hR.text _
  | sequence a b | choice a b =>
      have ha (context : Rank) := hunder context a (by simp [writtenParts])
      have hb (context : Rank) := hunder context b (by simp [writtenParts])
      exact hR.separated (.cons (ha _) (.cons (hb _) .nil)) _
  | sepBy item separator =>
      have hitem := hunder .sequence item (by simp [writtenParts])
      have hseparator := hunder .sequence separator (by simp [writtenParts])
      have hmore := hR.separated (.cons hseparator (.cons hitem .nil)) ", "
      exact hR.separated (.cons hitem (.cons (hR.around hmore _ _) .nil)) _
  | repetition atLeast g =>
      have hg := hparts g (by simp [writtenParts])
      rw [plug, plug, writeWithin.eq_def, writeWithin.eq_def store (m + 1)]
      cases atLeast with
      | zero => exact hR.around hg _ _
      | succ _ => exact hR.around hg _ _
  | option g => exact hR.around (hparts g (by simp [writtenParts])) _ _
  | discard g | attempt g | attemptPure g | strict _ g | trace _ g | token g | shared g =>
      exact hparts g (by simp [writtenParts])
  | except kind g forbidden =>
      exact hR.around (hunder .except g (by simp [writtenParts])) _ _
  | all _ _ parts | any _ _ parts =>
      rcases parts with _ | ⟨⟨kind, q⟩, _ | ⟨part, parts⟩⟩
      · exact hR.separated .nil _
      · exact hparts q (by simp [writtenParts])
      · exact hR.separated (hunderAll _ _ fun part hpart => List.mem_map_of_mem hpart) _
  | reference name g | define name g | handle slot | fixed hold name rule => exact hplain.elim

/-- Of the two writers of a plain grammar only the parts have to be compared. -/
theorem related_writeWithin (hR : Writer.Congruence R S) {n m : Nat} {g : Grammar σ}
    (hplain : g.IsPlain)
    (hparts : ∀ q ∈ g.writtenParts, R [q] (q.writeWithin store n) (q.writeWithin store m))
    (hranks : ∀ q ∈ g.writtenParts, S (q.rankWithin store n) (q.rankWithin store m)) :
    R g.writtenParts (g.writeWithin store (n + 1)) (g.writeWithin store (m + 1)) := by
  have hplugged : R g.writtenParts ((g.plug [] .fail).writeWithin store (n + 1))
      ((g.plug [] .fail).writeWithin store (m + 1)) := by
    refine related_writeWithin_plug hR hplain ?_ ?_
    · simpa only [plug_nil] using hparts
    · simpa only [plug_nil] using hranks
  simpa only [plug_nil] using hplugged

end Grammar

/-- Writing a grammar comes to the rule of a slot before it comes to a name. -/
inductive Store.Exposes (store : Store σ) : Grammar σ → Slot → Prop
  | handle {slot : Slot} {body : Grammar σ} (hslot : store.handle? slot = some body) :
      store.Exposes (.handle slot) slot
  | behind {slot inner : Slot} {body : Grammar σ} (hslot : store.handle? slot = some body)
      (hbody : store.Exposes body inner) : store.Exposes (.handle slot) inner
  | part {g q : Grammar σ} {slot : Slot} (hq : q ∈ g.writtenParts)
      (hslot : store.Exposes q slot) : store.Exposes g slot

/-- Grammars are written one after another. -/
inductive Store.Writes (store : Store σ) (n : Nat) :
    List (Grammar σ) → Rendering → Rendering → Prop
  | nil {r : Rendering} : store.Writes n [] r r
  | cons {q : Grammar σ} {qs : List (Grammar σ)} {r r' s : Rendering} {text : String}
      (hq : q.writeWithin store n r = some (text, r')) (hqs : store.Writes n qs r' s) :
      store.Writes n (q :: qs) r s

namespace Store.Writes

variable {store : Store σ} {n : Nat} {qs : List (Grammar σ)} {r r' s : Rendering}

theorem append {qs' : List (Grammar σ)} (h : store.Writes n qs r r')
    (h' : store.Writes n qs' r' s) : store.Writes n (qs ++ qs') r s := by
  induction h with
  | nil => exact h'
  | cons hq _ ih => exact .cons hq (ih h')

theorem leadsTo (h : store.Writes n qs r s)
    (hparts : ∀ (q : Grammar σ) r text r', q.writeWithin store n r = some (text, r') →
      r.LeadsTo r') : r.LeadsTo s := by
  induction h with
  | nil => exact .refl _
  | cons hq _ ih => exact (hparts _ _ _ _ hq).trans ih

end Store.Writes

namespace Grammar

namespace Writer

/-- A writer that takes back the marks it makes and loses no names. -/
def Leads (w : Writer) : Prop :=
  ∀ r text r', w r = some (text, r') → r.LeadsTo r'

/-- Two ways of finding ranks that agree between two states of the marks, and keep both. -/
def AlikeRanks (active active' : List Slot) (rank rank' : Ranking) : Prop :=
  ∀ own after own' after', rank active = some (own, after) →
    rank' active' = some (own', after') → own = own' ∧ after = active ∧ after' = active'

/-- Two writers that write the same between two states of the marks, and keep both. -/
def Alike (active active' : List Slot) (w w' : Writer) : Prop :=
  ∀ r text s r' text' s', r.active = active → r'.active = active' → w r = some (text, s) →
    w' r' = some (text', s') → text = text' ∧ s.active = active ∧ s'.active = active'

section Inversion

variable {r s : Rendering} {text : String}

theorem eq_of_enclosed {context : Rank} {rank : Ranking} {part : Writer}
    (h : enclosed context rank part r = some (text, s)) :
    ∃ own active inner, rank r.active = some (own, active) ∧
      part { r with active } = some (inner, s) ∧ text = context.enclose own inner := by
  obtain ⟨⟨own, active⟩, hrank, h⟩ := Option.bind_eq_some_iff.1 h
  obtain ⟨⟨inner, r'⟩, hpart, h⟩ := Option.bind_eq_some_iff.1 h
  cases h
  exact ⟨own, active, inner, hrank, hpart, rfl⟩

theorem eq_of_each_cons {w : Writer} {ws : List Writer} {texts : List String}
    (h : each (w :: ws) r = some (texts, s)) :
    ∃ first r' rest, w r = some (first, r') ∧ each ws r' = some (rest, s) ∧
      texts = first :: rest := by
  obtain ⟨⟨first, r'⟩, hfirst, h⟩ := Option.bind_eq_some_iff.1 h
  obtain ⟨⟨rest, r''⟩, hrest, h⟩ := Option.bind_eq_some_iff.1 h
  cases h
  exact ⟨first, r', rest, hfirst, hrest, rfl⟩

theorem eq_of_separated {separator : String} {parts : List Writer}
    (h : separated separator parts r = some (text, s)) :
    ∃ texts, each parts r = some (texts, s) ∧ text = separator.intercalate texts := by
  obtain ⟨⟨texts, r'⟩, heach, h⟩ := Option.bind_eq_some_iff.1 h
  cases h
  exact ⟨texts, heach, rfl⟩

theorem eq_of_around {before after : String} {part : Writer}
    (h : around before after part r = some (text, s)) :
    ∃ inner, part r = some (inner, s) ∧ text = before ++ inner ++ after := by
  obtain ⟨⟨inner, r'⟩, hpart, h⟩ := Option.bind_eq_some_iff.1 h
  cases h
  exact ⟨inner, hpart, rfl⟩

/-- The name of a rule is written. If definitions are collected and the name is new, the body is
written as well. -/
theorem eq_of_reference {name : String} {body : Writer}
    (h : reference name body r = some (text, s)) :
    text = name ∧ (s = r ∧ (∀ d, r.definitions = some d → name ∈ d.names) ∨
      ∃ d inner r', r.definitions = some d ∧ name ∉ d.names ∧
        body { r with definitions := some (d.insert name name) } = some (inner, r') ∧
          s = { r' with definitions := r'.definitions.map (·.amend name inner) }) := by
  unfold reference at h
  split at h
  · rename_i hd
    cases h
    exact ⟨rfl, .inl ⟨rfl, by simp [hd]⟩⟩
  · rename_i d hd
    split at h
    · rename_i hcontains
      cases h
      exact ⟨rfl, .inl ⟨rfl, by simpa [hd] using hcontains⟩⟩
    · rename_i hcontains
      have hnew : name ∉ d.names := fun hmem => hcontains (Definitions.contains_iff.2 hmem)
      obtain ⟨⟨inner, r'⟩, hbody, h⟩ := Option.bind_eq_some_iff.1 h
      cases h
      exact ⟨rfl, .inr ⟨d, inner, r', hd, hnew, hbody, rfl⟩⟩

theorem eq_of_define {name : String} {body : Writer} (h : define name body r = some (text, s)) :
    text = name ∧ (s = r ∧ (∀ d, r.definitions = some d → name ∈ d.names) ∨
      ∃ d inner r', r.definitions = some d ∧ name ∉ d.names ∧ body r = some (inner, r') ∧
        s = { r' with definitions := r'.definitions.map (·.insert name inner) }) := by
  unfold define at h
  split at h
  · rename_i hd
    cases h
    exact ⟨rfl, .inl ⟨rfl, by simp [hd]⟩⟩
  · rename_i d hd
    split at h
    · rename_i hcontains
      cases h
      exact ⟨rfl, .inl ⟨rfl, by simpa [hd] using hcontains⟩⟩
    · rename_i hcontains
      have hnew : name ∉ d.names := fun hmem => hcontains (Definitions.contains_iff.2 hmem)
      obtain ⟨⟨inner, r'⟩, hbody, h⟩ := Option.bind_eq_some_iff.1 h
      cases h
      exact ⟨rfl, .inr ⟨d, inner, r', hd, hnew, hbody, rfl⟩⟩

theorem eq_of_handle {slot : Slot} {body : Writer} (h : handle slot body r = some (text, s)) :
    (slot ∈ r.active ∧ text = "..." ∧ s = r) ∨
      (slot ∉ r.active ∧ ∃ r', body { r with active := slot :: r.active } = some (text, r') ∧
        s = { r' with active := Rendering.leave r'.active slot }) := by
  unfold handle at h
  split at h
  · cases h
    have hmarked : Rendering.enter? r.active slot = none := ‹_›
    unfold Rendering.enter? at hmarked
    split at hmarked
    · exact .inl ⟨‹_›, rfl, rfl⟩
    · cases hmarked
  · obtain ⟨hnew, rfl⟩ := Rendering.enter?_eq_some_iff.1 ‹_›
    obtain ⟨⟨inner, r'⟩, hbody, h⟩ := Option.bind_eq_some_iff.1 h
    cases h
    exact .inr ⟨hnew, r', hbody, rfl⟩

end Inversion

theorem leads_text (s : String) : (text s).Leads := by
  intro r text r' h
  cases h
  exact .refl _

theorem leads_reference {name : String} {body : Writer} (hbody : body.Leads) :
    (reference name body).Leads := by
  intro r text s h
  obtain ⟨-, ⟨rfl, -⟩ | ⟨d, inner, r', hd, -, hinner, rfl⟩⟩ := eq_of_reference h
  · exact .refl _
  · have hentered : r.LeadsTo { r with definitions := some (d.insert name name) } :=
      .insert hd name name
    have hamended : r'.LeadsTo { r' with definitions := r'.definitions.map (·.amend name inner) } :=
      .of_map_definitions (fun d => (d.names_amend name inner).symm ▸ List.Subset.refl _) r'
    exact (hentered.trans (hbody _ inner r' hinner)).trans hamended

theorem leads_define {name : String} {body : Writer} (hbody : body.Leads) :
    (define name body).Leads := by
  intro r text s h
  obtain ⟨-, ⟨rfl, -⟩ | ⟨d, inner, r', -, -, hinner, rfl⟩⟩ := eq_of_define h
  · exact .refl _
  · exact (hbody r inner r' hinner).trans
      (.of_map_definitions (fun d => d.names_subset_insert name inner) r')

theorem leads_handle {slot : Slot} {body : Writer} (hbody : body.Leads) :
    (handle slot body).Leads := by
  intro r text s h
  obtain ⟨-, -, rfl⟩ | ⟨-, r', hinner, rfl⟩ := eq_of_handle h
  · exact .refl _
  · have hleads := hbody _ text r' hinner
    refine ⟨?_, hleads.collects, hleads.names⟩
    change r'.active.erase slot = r.active
    rw [hleads.active]
    exact List.erase_cons_head slot r.active

/-- Two ways of finding ranks that agree between renderings that are related, and keep the marks. -/
def RanksPreserving (P : Rendering → Rendering → Prop) (rank rank' : Ranking) : Prop :=
  ∀ r r', P r r' → AlikeRanks r.active r'.active rank rank'

/-- Two writers that write the same in renderings that are related, and leave related ones. -/
def Preserving (P : Rendering → Rendering → Prop) (w w' : Writer) : Prop :=
  ∀ r text s r' text' s', P r r' → w r = some (text, s) → w' r' = some (text', s') →
    text = text' ∧ P s s'

/-- Operators need no more than that their parts write the same and preserve the relation. -/
theorem congruence_preserving (σ : Type) (P : Rendering → Rendering → Prop) :
    Congruence (fun (_ : List (Grammar σ)) => Preserving P) (RanksPreserving P) where
  text s r text t r' text' t' hr h h' := by
    cases h
    cases h'
    exact ⟨rfl, hr⟩
  enclosed {_ rank rank' part part'} hrank hpart context := by
    intro r text t r' text' t' hr h h'
    obtain ⟨own, after, inner, hown, hinner, rfl⟩ := eq_of_enclosed h
    obtain ⟨own', after', inner', hown', hinner', rfl⟩ := eq_of_enclosed h'
    obtain ⟨rfl, rfl, rfl⟩ := hrank r r' hr _ _ _ _ hown hown'
    obtain ⟨rfl, ht⟩ := hpart _ _ _ _ _ _ hr hinner hinner'
    exact ⟨rfl, ht⟩
  separated {_ ws ws'} hws separator := by
    intro r text t r' text' t' hr h h'
    obtain ⟨texts, heach, rfl⟩ := eq_of_separated h
    obtain ⟨texts', heach', rfl⟩ := eq_of_separated h'
    suffices hsuffices : texts = texts' ∧ P t t' by
      obtain ⟨rfl, ht⟩ := hsuffices
      exact ⟨rfl, ht⟩
    clear h h'
    induction hws generalizing r r' texts texts' with
    | nil =>
        cases heach
        cases heach'
        exact ⟨rfl, hr⟩
    | cons hw _ ih =>
        obtain ⟨first, s, rest, hfirst, hrest, rfl⟩ := eq_of_each_cons heach
        obtain ⟨first', s', rest', hfirst', hrest', rfl⟩ := eq_of_each_cons heach'
        obtain ⟨rfl, hs⟩ := hw _ _ _ _ _ _ hr hfirst hfirst'
        obtain ⟨rfl, ht⟩ := ih s s' hs rest hrest rest' hrest'
        exact ⟨rfl, ht⟩
  around {_ part part'} hpart before after := by
    intro r text t r' text' t' hr h h'
    obtain ⟨inner, hinner, rfl⟩ := eq_of_around h
    obtain ⟨inner', hinner', rfl⟩ := eq_of_around h'
    obtain ⟨rfl, ht⟩ := hpart _ _ _ _ _ _ hr hinner hinner'
    exact ⟨rfl, ht⟩

/-- Two renderings with the given marks. -/
def Marked (active active' : List Slot) (r r' : Rendering) : Prop :=
  r.active = active ∧ r'.active = active'

theorem preserving_marked (active active' : List Slot) :
    Preserving (Marked active active') = Alike active active' := by
  funext w w'
  refine propext ⟨fun h r text s r' text' s' hr hr' => h r text s r' text' s' ⟨hr, hr'⟩, ?_⟩
  exact fun h r text s r' text' s' hr => h r text s r' text' s' hr.1 hr.2

theorem ranksPreserving_marked (active active' : List Slot) :
    RanksPreserving (Marked active active') = AlikeRanks active active' := by
  funext rank rank'
  refine propext ⟨fun h => h ⟨active, none⟩ ⟨active', none⟩ ⟨rfl, rfl⟩, ?_⟩
  rintro h r r' ⟨rfl, rfl⟩
  exact h

theorem congruence_alike (σ : Type) (active active' : List Slot) :
    Congruence (fun (_ : List (Grammar σ)) => Alike active active')
      (AlikeRanks active active') := by
  rw [← preserving_marked, ← ranksPreserving_marked]
  exact congruence_preserving σ (Marked active active')

theorem alike_of_name {active active' : List Slot} {w w' : Writer} (hw : w.Leads) (hw' : w'.Leads)
    {name : String} (hname : ∀ r text s, w r = some (text, s) → text = name)
    (hname' : ∀ r text s, w' r = some (text, s) → text = name) : Alike active active' w w' := by
  intro r text s r' text' s' hr hr' h h'
  have htext : text = text' := (hname _ _ _ h).trans (hname' _ _ _ h').symm
  exact ⟨htext, (hw _ _ _ h).active.trans hr, (hw' _ _ _ h').active.trans hr'⟩

theorem alike_handle {slot : Slot} {active active' : List Slot} {body body' : Writer}
    (hslot : slot ∈ active ↔ slot ∈ active')
    (hbody : Alike (slot :: active) (slot :: active') body body') :
    Alike active active' (handle slot body) (handle slot body') := by
  intro r text s r' text' s' hr hr' h h'
  subst hr hr'
  obtain ⟨hin, rfl, rfl⟩ | ⟨hnew, t, hinner, rfl⟩ := eq_of_handle h
  · obtain ⟨-, rfl, rfl⟩ | ⟨hnew', -⟩ := eq_of_handle h'
    · exact ⟨rfl, rfl, rfl⟩
    · exact absurd (hslot.1 hin) hnew'
  · obtain ⟨hin', -⟩ | ⟨hnew', t', hinner', rfl⟩ := eq_of_handle h'
    · exact absurd (hslot.2 hin') hnew
    · obtain ⟨rfl, ht, ht'⟩ := hbody _ _ _ _ _ _ rfl rfl hinner hinner'
      refine ⟨rfl, ?_, ?_⟩
      · exact (congrArg (Rendering.leave · slot) ht).trans (List.erase_cons_head slot r.active)
      · exact (congrArg (Rendering.leave · slot) ht').trans (List.erase_cons_head slot r'.active)

end Writer

section Store

variable {store : Store σ}

/-- Two states of the marks that agree on the slots exposed. -/
def AgreeOn (store : Store σ) (g : Grammar σ) (active active' : List Slot) : Prop :=
  ∀ slot, store.Exposes g slot → (slot ∈ active ↔ slot ∈ active')

theorem AgreeOn.part {g q : Grammar σ} {active active' : List Slot}
    (h : AgreeOn store g active active') (hq : q ∈ g.writtenParts) :
    AgreeOn store q active active' :=
  fun slot hslot => h slot (.part hq hslot)

theorem AgreeOn.body {slot : Slot} {body : Grammar σ} {active active' : List Slot}
    (h : AgreeOn store (.handle slot) active active') (hslot : store.handle? slot = some body) :
    AgreeOn store body (slot :: active) (slot :: active') := by
  intro inner hinner
  rw [List.mem_cons, List.mem_cons, h inner (.behind hslot hinner)]

theorem eq_of_rankWithin_handle {n : Nat} {slot : Slot} {body : Grammar σ} {active after : List Slot}
    {own : Rank} (hslot : store.handle? slot = some body)
    (h : (handle slot).rankWithin store (n + 1) active = some (own, after)) :
    (slot ∈ active ∧ own = .atom ∧ after = active) ∨
      (slot ∉ active ∧ ∃ inner, body.rankWithin store n (slot :: active) = some (own, inner) ∧
        after = Rendering.leave inner slot) := by
  rw [rankWithin, hslot] at h
  by_cases hmem : slot ∈ active
  · have hmarked : Rendering.enter? active slot = none := if_pos hmem
    rw [hmarked] at h
    cases h
    exact .inl ⟨hmem, rfl, rfl⟩
  · have hmarked : Rendering.enter? active slot = some (slot :: active) := if_neg hmem
    rw [hmarked] at h
    obtain ⟨⟨rank, inner⟩, hinner, h⟩ := Option.bind_eq_some_iff.1 h
    cases h
    exact .inr ⟨hmem, inner, hinner, rfl⟩

theorem alikeRanks_rankWithin (n m : Nat) (g : Grammar σ) {active active' : List Slot}
    (hagree : AgreeOn store g active active') :
    Writer.AlikeRanks active active' (g.rankWithin store n) (g.rankWithin store m) := by
  intro own after own' after' h h'
  -- The two bounds have nothing to do with each other. One of them carries the induction, the other
  -- one falls along with it.
  induction n generalizing m g active active' after after' with
  | zero => cases h
  | succ n ih =>
      cases m with
      | zero => cases h'
      | succ m =>
          cases g with
          | discard g | attempt g | attemptPure g | strict _ g | trace _ g | token g | shared g =>
              exact ih m g (hagree.part List.mem_cons_self) _ _ h h'
          | all _ _ parts | any _ _ parts =>
              rcases parts with _ | ⟨⟨kind, q⟩, _ | ⟨part, parts⟩⟩
              · cases h
                cases h'
                exact ⟨rfl, rfl, rfl⟩
              · exact ih m q (hagree.part List.mem_cons_self) _ _ h h'
              · cases h
                cases h'
                exact ⟨rfl, rfl, rfl⟩
          | handle slot =>
              cases hslot : store.handle? slot with
              | none =>
                  rw [rankWithin, hslot] at h h'
                  cases h
                  cases h'
                  exact ⟨rfl, rfl, rfl⟩
              | some body =>
                  have hmem := hagree slot (.handle hslot)
                  obtain ⟨hin, rfl, rfl⟩ | ⟨hnew, inner, hinner, rfl⟩ :=
                    eq_of_rankWithin_handle hslot h
                  · obtain ⟨-, rfl, rfl⟩ | ⟨hnew', -⟩ := eq_of_rankWithin_handle hslot h'
                    · exact ⟨rfl, rfl, rfl⟩
                    · exact absurd (hmem.1 hin) hnew'
                  · obtain ⟨hin', -⟩ | ⟨hnew', inner', hinner', rfl⟩ :=
                      eq_of_rankWithin_handle hslot h'
                    · exact absurd (hmem.2 hin') hnew
                    · obtain ⟨rfl, rfl, rfl⟩ := ih m body (hagree.body hslot) _ _ hinner hinner'
                      exact ⟨rfl, List.erase_cons_head _ _, List.erase_cons_head _ _⟩
          | _ =>
              cases h
              cases h'
              exact ⟨rfl, rfl, rfl⟩

theorem keeps_rankWithin (n : Nat) (g : Grammar σ) (active : List Slot) (own : Rank)
    (after : List Slot) (h : g.rankWithin store n active = some (own, after)) : after = active :=
  (alikeRanks_rankWithin n n g (fun _ _ => .rfl) _ _ _ _ h h).2.1

theorem congruence_writes (n : Nat) : Writer.Congruence
    (fun parts w _ => ∀ r text s, w r = some (text, s) → store.Writes n parts r s)
    (fun rank _ => ∀ active own after, rank active = some (own, after) → after = active) where
  text s := by
    intro r text r' h
    cases h
    exact .nil
  enclosed hrank hpart context := by
    intro r text s h
    obtain ⟨own, active, inner, hown, hinner, -⟩ := Writer.eq_of_enclosed h
    obtain rfl := hrank _ _ _ hown
    exact hpart r inner s hinner
  separated {_ ws _} hws separator := by
    intro r text s h
    obtain ⟨texts, heach, -⟩ := Writer.eq_of_separated h
    clear h
    induction hws generalizing r texts with
    | nil =>
        cases heach
        exact .nil
    | cons hw _ ih =>
        obtain ⟨first, r', rest, hfirst, hrest, -⟩ := Writer.eq_of_each_cons heach
        exact (hw r first r' hfirst).append (ih r' rest hrest)
  around hpart before after := by
    intro r text s h
    obtain ⟨inner, hinner, -⟩ := Writer.eq_of_around h
    exact hpart r inner s hinner

/-- To write a plain grammar is to write its parts, as far as marks and definitions go. -/
theorem writes_writeWithin {n : Nat} {g : Grammar σ} (hplain : g.IsPlain) {r s : Rendering}
    {text : String} (h : g.writeWithin store (n + 1) r = some (text, s)) :
    store.Writes n g.writtenParts r s :=
  related_writeWithin (m := n) (congruence_writes n) hplain
    (fun _ _ _ _ _ h => .cons h .nil) (fun q _ => keeps_rankWithin n q) r text s h

theorem leads_writeWithin (n : Nat) (g : Grammar σ) : (g.writeWithin store n).Leads := by
  induction n generalizing g with
  | zero =>
      intro r text s h
      cases h
  | succ n ih =>
      have hplain (hg : g.IsPlain) : (g.writeWithin store (n + 1)).Leads := by
        intro r text s h
        exact (writes_writeWithin hg h).leadsTo ih
      cases g with
      | reference name body => exact Writer.leads_reference (ih body)
      | define name body => exact Writer.leads_define (ih body)
      | handle slot =>
          rw [writeWithin]
          cases store.handle? slot with
          | none => exact Writer.leads_text "?"
          | some body => exact Writer.leads_handle (ih body)
      | fixed hold name rule =>
          rw [writeWithin]
          refine Writer.leads_reference ?_
          cases store.fixed? rule with
          | none => exact Writer.leads_text "?"
          | some body => exact ih body
      | _ => exact hplain trivial

theorem alike_writeWithin (n m : Nat) (g : Grammar σ) {active active' : List Slot}
    (hagree : AgreeOn store g active active') :
    Writer.Alike active active' (g.writeWithin store n) (g.writeWithin store m) := by
  induction n generalizing m g active active' with
  | zero =>
      intro r text s r' text' s' _ _ h
      cases h
  | succ n ih =>
      cases m with
      | zero =>
          intro r text s r' text' s' _ _ _ h'
          cases h'
      | succ m =>
          cases g with
          -- Behind a name the marks make no difference to the text, although they do to the entry.
          | reference name body =>
              exact Writer.alike_of_name (leads_writeWithin (n + 1) (.reference name body))
                (leads_writeWithin (m + 1) (.reference name body))
                (fun _ _ _ h => (Writer.eq_of_reference h).1)
                (fun _ _ _ h => (Writer.eq_of_reference h).1)
          | define name body =>
              exact Writer.alike_of_name (leads_writeWithin (n + 1) (.define name body))
                (leads_writeWithin (m + 1) (.define name body))
                (fun _ _ _ h => (Writer.eq_of_define h).1) (fun _ _ _ h => (Writer.eq_of_define h).1)
          | handle slot =>
              rw [writeWithin, writeWithin]
              cases hslot : store.handle? slot with
              | none => exact (Writer.congruence_alike σ active active').text "?"
              | some body =>
                  exact Writer.alike_handle (hagree slot (.handle hslot))
                    (ih m body (hagree.body hslot))
          | fixed hold name rule =>
              exact Writer.alike_of_name (leads_writeWithin (n + 1) (.fixed hold name rule))
                (leads_writeWithin (m + 1) (.fixed hold name rule))
                (fun _ _ _ h => (Writer.eq_of_reference h).1)
                (fun _ _ _ h => (Writer.eq_of_reference h).1)
          | _ =>
              refine related_writeWithin (Writer.congruence_alike σ active active') trivial ?_ ?_
              · exact fun q hq => ih m q (hagree.part hq)
              · exact fun q hq => alikeRanks_rankWithin n m q (hagree.part hq)

end Store

end Grammar

/-- Marks that a grammar does not come upon leave its text as it is on its own. -/
theorem Store.ebnf_eq_of_writeWithin {store : Store σ} {n : Nat} {g : Grammar σ} {r s : Rendering}
    {text : String} (hclear : ∀ slot ∈ r.active, ¬ store.Exposes g slot)
    (h : g.writeWithin store n r = some (text, s)) : store.ebnf g = some text := by
  obtain ⟨own, hown⟩ := store.exists_ebnf g
  obtain ⟨⟨text', s'⟩, hwritten, rfl⟩ := Option.map_eq_some_iff.1 hown
  have hagree : Grammar.AgreeOn store g r.active [] := by
    intro slot hslot
    have hmem : slot ∉ r.active := fun hmem => hclear slot hmem hslot
    simp [hmem]
  obtain ⟨rfl, -⟩ := Grammar.alike_writeWithin n _ g hagree _ _ _ _ _ _ rfl rfl h hwritten
  exact hown

end ParserAlgebra
