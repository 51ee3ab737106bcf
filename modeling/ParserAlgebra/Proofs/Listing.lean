import ParserAlgebra.Proofs.Writing

/-!
# Listings of definitions

The listing of a grammar has an entry for each name that its rendering comes upon. The body of an
entry is the rule of that name as it is written under the marks of the handles that are open when
the name is first come upon. A handle among them that the rule would write itself, before any name,
is written as three dots. Where that does not happen, the body is what the rule is written as on its
own.
-/

namespace ParserAlgebra

variable {σ : Type}

namespace Store

/-- The name under which a grammar is entered among the definitions, with its rule, if that has not
been given up. -/
def named? (store : Store σ) : Grammar σ → Option (String × Option (Grammar σ))
  | .reference name body | .define name body => some (name, some body)
  | .fixed _ name rule => some (name, store.fixed? rule)
  | _ => none

/-- The written form of a rule on its own. A rule that has been given up is a question mark. -/
def ebnf? (store : Store σ) : Option (Grammar σ) → Option String
  | some body => store.ebnf body
  | none => some "?"

/-- A grammar is written somewhere in the rendering of another one, or would be if nothing ended a
cycle. -/
inductive Reaches (store : Store σ) (root : Grammar σ) : Grammar σ → Prop
  | root : store.Reaches root root
  | part {g q : Grammar σ} (h : store.Reaches root g) (hq : q ∈ g.writtenParts) :
      store.Reaches root q
  | handle {slot : Slot} {body : Grammar σ} (h : store.Reaches root (.handle slot))
      (hslot : store.handle? slot = some body) : store.Reaches root body
  | named {g body : Grammar σ} {name : String} (h : store.Reaches root g)
      (hg : store.named? g = some (name, some body)) : store.Reaches root body

/-- The rendering of a grammar with its definitions comes to another grammar, in a state. A part is
come to after the parts in front of it, which have entered their names already. -/
inductive ComesTo (store : Store σ) (root : Grammar σ) : Grammar σ → Rendering → Prop
  | root : store.ComesTo root root (.fresh (some .empty))
  | part {n : Nat} {g q : Grammar σ} {before after : List (Grammar σ)} {r r' : Rendering}
      (h : store.ComesTo root g r) (hparts : g.writtenParts = before ++ q :: after)
      (hbefore : store.Writes n before r r') : store.ComesTo root q r'
  | handle {slot : Slot} {body : Grammar σ} {r : Rendering}
      (h : store.ComesTo root (.handle slot) r) (hnew : slot ∉ r.active)
      (hslot : store.handle? slot = some body) :
      store.ComesTo root body { r with active := slot :: r.active }
  | reference {name : String} {body : Grammar σ} {r : Rendering} {d : Definitions}
      (h : store.ComesTo root (.reference name body) r) (hd : r.definitions = some d)
      (hnew : name ∉ d.names) :
      store.ComesTo root body { r with definitions := some (d.insert name name) }
  | define {name : String} {body : Grammar σ} {r : Rendering} {d : Definitions}
      (h : store.ComesTo root (.define name body) r) (hd : r.definitions = some d)
      (hnew : name ∉ d.names) : store.ComesTo root body r
  | fixed {hold : Hold} {name : String} {rule : RuleId} {body : Grammar σ} {r : Rendering}
      {d : Definitions} (h : store.ComesTo root (.fixed hold name rule) r)
      (hd : r.definitions = some d) (hnew : name ∉ d.names) (hrule : store.fixed? rule = some body) :
      store.ComesTo root body { r with definitions := some (d.insert name name) }

/-- Whatever has the same name has the same rule. -/
def NamesConsistent (store : Store σ) (root : Grammar σ) : Prop :=
  ∀ g g' name rule rule', store.Reaches root g → store.Reaches root g' →
    store.named? g = some (name, rule) → store.named? g' = some (name, rule') → rule = rule'

/-- No name is first come upon while a handle is open that its rule exposes. -/
def NamesClear (store : Store σ) (root : Grammar σ) : Prop :=
  ∀ g r d name body, store.ComesTo root g r → store.named? g = some (name, some body) →
    r.definitions = some d → name ∉ d.names → ∀ slot ∈ r.active, ¬ store.Exposes body slot

variable {store : Store σ} {root g : Grammar σ} {r : Rendering}

theorem named?_fixed {hold : Hold} {name : String} {rule : RuleId} {body : Option (Grammar σ)}
    (h : store.fixed? rule = body) : store.named? (.fixed hold name rule) = some (name, body) :=
  congrArg (fun body => some (name, body)) h

theorem ComesTo.reaches (h : store.ComesTo root g r) : store.Reaches root g := by
  induction h with
  | root => exact .root
  | part _ hparts _ ih => exact ih.part (hparts ▸ List.mem_append_right _ List.mem_cons_self)
  | handle _ _ hslot ih => exact ih.handle hslot
  | reference _ _ _ ih => exact ih.named rfl
  | define _ _ _ ih => exact ih.named rfl
  | fixed _ _ _ hrule ih => exact ih.named (named?_fixed hrule)

/-- A text is the rule of a name as it is written while some handles are open. -/
def WrittenUnder (store : Store σ) (opened : List Slot) (text : String) :
    Option (Grammar σ) → Prop
  | some body => ∃ n r s, body.writeWithin store n r = some (text, s) ∧ r.active = opened
  | none => text = "?"

/-- An entry is the rule of its name, as it is written where the name is first come upon. -/
def Records (store : Store σ) (root : Grammar σ) (name text : String) : Prop :=
  ∃ g r d rule, store.ComesTo root g r ∧ store.named? g = some (name, rule) ∧
    r.definitions = some d ∧ name ∉ d.names ∧ store.WrittenUnder r.active text rule

end Store

/-- All entries satisfy `P`, but for those of the names whose bodies are being written. -/
def Rendering.Sound (P : String → String → Prop) (entered : List String) (r : Rendering) : Prop :=
  ∀ d ∈ r.definitions, ∀ entry ∈ d.entries, entry.1 ∈ entered ∨ P entry.1 entry.2

namespace Rendering.Sound

variable {P : String → String → Prop} {entered : List String} {r : Rendering} {name text : String}

theorem enter {d : Definitions} (h : r.Sound P entered) (hd : r.definitions = some d)
    (hnew : name ∉ d.names) :
    Sound P (name :: entered) { r with definitions := some (d.insert name name) } := by
  intro d' hd' entry hentry
  obtain rfl := Option.some.inj hd'
  -- The placeholder is excused, since its name is being written from now on.
  rw [Definitions.insert_of_not_mem hnew] at hentry
  rcases List.mem_append.1 hentry with hold | hadded
  · exact (h d hd entry hold).imp (List.mem_cons_of_mem name) id
  · obtain rfl := List.mem_singleton.1 hadded
    exact .inl List.mem_cons_self

theorem amend (h : r.Sound P (name :: entered)) (htext : P name text) :
    Sound P entered { r with definitions := r.definitions.map (·.amend name text) } := by
  intro d hd entry hentry
  obtain ⟨d', hd', rfl⟩ := Option.map_eq_some_iff.1 hd
  obtain ⟨old, hold, rfl⟩ := List.mem_map.1 hentry
  split
  · exact .inr htext
  · refine (h d' hd' old hold).imp (fun hmem => ?_) id
    exact (List.mem_cons.1 hmem).resolve_left ‹_›

theorem insert (h : r.Sound P entered) (htext : P name text) :
    Sound P entered { r with definitions := r.definitions.map (·.insert name text) } := by
  intro d hd entry hentry
  obtain ⟨d', hd', rfl⟩ := Option.map_eq_some_iff.1 hd
  rcases List.mem_append.1 hentry with hold | hadded
  · exact h d' hd' entry (List.mem_filter.1 hold).1
  · obtain rfl := List.mem_singleton.1 hadded
    exact .inr htext

end Rendering.Sound

namespace Store

variable {store : Store σ} {root g : Grammar σ} {r s : Rendering}

/-- Parts that are written one after another from where the rendering has come to. -/
theorem sound_of_writes {P : String → String → Prop} {n : Nat} {entered : List String}
    {before qs : List (Grammar σ)} {r' : Rendering}
    (hpart : ∀ q r text s, store.ComesTo root q r → r.Sound P entered →
      q.writeWithin store n r = some (text, s) → s.Sound P entered)
    (hcomes : store.ComesTo root g r) (hparts : g.writtenParts = before ++ qs)
    (hbefore : store.Writes n before r r') (hsound : r'.Sound P entered)
    (hqs : store.Writes n qs r' s) : s.Sound P entered := by
  induction hqs generalizing before with
  | nil => exact hsound
  | @cons q qs r₁ r₂ _ text hq _ ih =>
      have hnext : r₂.Sound P entered :=
        hpart q r₁ text r₂ (hcomes.part hparts hbefore) hsound hq
      refine ih ?_ (hbefore.append (.cons hq .nil)) hnext
      rw [hparts, List.append_assoc]
      rfl

/-- Writing a grammar enters what the store records. -/
theorem sound_writeWithin (n : Nat) {entered : List String} {text : String}
    (hcomes : store.ComesTo root g r) (hsound : r.Sound (store.Records root) entered)
    (h : g.writeWithin store n r = some (text, s)) : s.Sound (store.Records root) entered := by
  -- The induction is on the bound. That the rendering comes to the grammar in this state is what
  -- the invariant hangs on: it says which handles are marked and which names are entered.
  induction n generalizing g r s text entered with
  | zero => cases h
  | succ n ih =>
      have hplain (hg : g.IsPlain) : s.Sound (store.Records root) entered :=
        sound_of_writes (fun _ _ _ _ hcomes hsound h => ih hcomes hsound h) hcomes
          (List.nil_append _).symm .nil hsound (Grammar.writes_writeWithin hg h)
      cases g with
      | reference name body =>
          obtain ⟨-, ⟨rfl, -⟩ | ⟨d, inner, r', hd, hnew, hinner, rfl⟩⟩ :=
            Grammar.Writer.eq_of_reference h
          · exact hsound
          · have hend := ih (hcomes.reference hd hnew) (hsound.enter hd hnew) hinner
            exact hend.amend
              ⟨_, r, d, some body, hcomes, rfl, hd, hnew, n, _, r', hinner, rfl⟩
      | define name body =>
          obtain ⟨-, ⟨rfl, -⟩ | ⟨d, inner, r', hd, hnew, hinner, rfl⟩⟩ :=
            Grammar.Writer.eq_of_define h
          · exact hsound
          · have hend := ih (hcomes.define hd hnew) hsound hinner
            exact hend.insert
              ⟨_, r, d, some body, hcomes, rfl, hd, hnew, n, _, r', hinner, rfl⟩
      | handle slot =>
          rw [Grammar.writeWithin] at h
          cases hslot : store.handle? slot with
          | none =>
              rw [hslot] at h
              cases h
              exact hsound
          | some body =>
              rw [hslot] at h
              obtain ⟨-, -, rfl⟩ | ⟨hnew, r', hinner, rfl⟩ := Grammar.Writer.eq_of_handle h
              · exact hsound
              · have hend : r'.Sound (store.Records root) entered :=
                  ih (hcomes.handle hnew hslot) hsound hinner
                exact hend
      | fixed hold name rule =>
          rw [Grammar.writeWithin] at h
          obtain ⟨-, ⟨rfl, -⟩ | ⟨d, inner, r', hd, hnew, hinner, rfl⟩⟩ :=
            Grammar.Writer.eq_of_reference h
          · exact hsound
          · cases hrule : store.fixed? rule with
            | none =>
                rw [hrule] at hinner
                cases hinner
                exact (hsound.enter hd hnew).amend
                  ⟨_, r, d, none, hcomes, named?_fixed hrule, hd, hnew, rfl⟩
            | some body =>
                rw [hrule] at hinner
                have hend := ih (hcomes.fixed hd hnew hrule) (hsound.enter hd hnew) hinner
                exact hend.amend ⟨_, r, d, some body, hcomes, named?_fixed hrule, hd, hnew, n, _,
                  r', hinner, rfl⟩
      | _ => exact hplain trivial

/-- Every entry of the listing of a grammar is recorded by the store. -/
theorem records_of_describe {text : String} {definitions : Definitions}
    (h : store.describe root .empty = some (text, definitions)) {name body : String}
    (hentry : (name, body) ∈ definitions.entries) : store.Records root name body := by
  obtain ⟨⟨text', r⟩, hwritten, h⟩ := Option.bind_eq_some_iff.1 h
  obtain ⟨definitions', hdefinitions, h⟩ := Option.bind_eq_some_iff.1 h
  cases h
  have hstart : (Rendering.fresh (some .empty)).Sound (store.Records root) [] := by
    intro d hd entry hentry
    cases hd
    cases hentry
  have hend : r.Sound (store.Records root) [] := sound_writeWithin _ .root hstart hwritten
  exact (hend definitions hdefinitions (name, body) hentry).resolve_left List.not_mem_nil

theorem Records.ebnf?_eq (hclear : store.NamesClear root) {name body : String}
    (h : store.Records root name body) : ∃ g rule, store.Reaches root g ∧
      store.named? g = some (name, rule) ∧ store.ebnf? rule = some body := by
  obtain ⟨g, r, d, rule, hcomes, hg, hd, hnew, hwritten⟩ := h
  refine ⟨g, rule, hcomes.reaches, hg, ?_⟩
  cases rule with
  | none => exact congrArg some hwritten.symm
  | some p =>
      obtain ⟨n, r', s, hwritten, hactive⟩ := hwritten
      refine ebnf_eq_of_writeWithin (fun slot hslot => ?_) hwritten
      exact hclear g r d name p hcomes hg hd hnew slot (hactive ▸ hslot)

/-- A handle stands only as the rule of a name, and always of the same one. -/
structure HandlesNamed (store : Store σ) (root : Grammar σ) : Prop where
  start : ∀ slot, root ≠ .handle slot
  part : ∀ g slot, store.Reaches root g → .handle slot ∉ g.writtenParts
  handle : ∀ slot inner, store.Reaches root (.handle slot) →
    store.handle? slot ≠ some (.handle inner)
  define : ∀ name slot, ¬ store.Reaches root (.define name (.handle slot))
  unique : ∀ g g' name name' slot, store.Reaches root g → store.Reaches root g' →
    store.named? g = some (name, some (.handle slot)) →
      store.named? g' = some (name', some (.handle slot)) → name = name'

/-- The name of a handle has been entered. -/
def NameEntered (store : Store σ) (root : Grammar σ) (r : Rendering) (slot : Slot) : Prop :=
  ∃ name ∈ r.names, ∃ g, store.Reaches root g ∧ store.named? g = some (name, some (.handle slot))

theorem NameEntered.mono {r' : Rendering} {slot : Slot} (h : store.NameEntered root r slot)
    (hnames : r.names ⊆ r'.names) : store.NameEntered root r' slot := by
  obtain ⟨name, hname, hg⟩ := h
  exact ⟨name, hnames hname, hg⟩

namespace HandlesNamed

variable (hhandles : store.HandlesNamed root)

include hhandles

theorem eq_of_exposes {slot : Slot} (hg : store.Reaches root g) (h : store.Exposes g slot) :
    g = .handle slot := by
  -- A handle that is exposed from further down would be the rule of a handle, or a part.
  induction h with
  | handle _ => rfl
  | behind hslot _ ih =>
      obtain rfl := ih (hg.handle hslot)
      exact absurd hslot (hhandles.handle _ _ hg)
  | part hq _ ih =>
      obtain rfl := ih (hg.part hq)
      exact absurd hq (hhandles.part _ _ hg)

/-- Handles are come upon, and opened, behind their names only. -/
theorem nameEntered_of_comesTo (h : store.ComesTo root g r) :
    (∀ slot ∈ r.active, store.NameEntered root r slot) ∧
      ∀ slot, g = .handle slot → store.NameEntered root r slot := by
  induction h with
  | root =>
      refine ⟨fun slot hslot => ?_, fun slot hslot => absurd hslot (hhandles.start slot)⟩
      cases hslot
  | @part _ g q _ _ r r' h hparts hbefore ih =>
      have hleads : r.LeadsTo r' := hbefore.leadsTo fun q => Grammar.leads_writeWithin _ q
      refine ⟨fun slot hslot => ?_, fun slot hslot => ?_⟩
      · exact (ih.1 slot (hleads.active ▸ hslot)).mono hleads.names
      · subst hslot
        have hq : .handle slot ∈ g.writtenParts :=
          hparts ▸ List.mem_append_right _ List.mem_cons_self
        exact absurd hq (hhandles.part g slot h.reaches)
  | @handle slot body _ h _ hslot ih =>
      refine ⟨List.forall_mem_cons.2 ⟨ih.2 slot rfl, ih.1⟩, fun inner hinner => ?_⟩
      subst hinner
      exact absurd hslot (hhandles.handle slot inner h.reaches)
  | @reference name _ r d h hd _ ih =>
      have hentered := Rendering.LeadsTo.insert hd name name
      refine ⟨fun slot hslot => (ih.1 slot hslot).mono hentered.names, fun slot hslot => ?_⟩
      subst hslot
      exact ⟨name, d.mem_names_insert name name, _, h.reaches, rfl⟩
  | define h _ _ ih =>
      refine ⟨ih.1, fun slot hslot => ?_⟩
      subst hslot
      exact absurd h.reaches (hhandles.define _ slot)
  | @fixed _ name _ _ r d h hd _ hrule ih =>
      have hentered := Rendering.LeadsTo.insert hd name name
      refine ⟨fun slot hslot => (ih.1 slot hslot).mono hentered.names, fun slot hslot => ?_⟩
      subst hslot
      exact ⟨name, d.mem_names_insert name name, _, h.reaches, named?_fixed hrule⟩

theorem namesClear : store.NamesClear root := by
  intro g r d name body hcomes hg hd hnew slot hslot hexposes
  obtain rfl := hhandles.eq_of_exposes (hcomes.reaches.named hg) hexposes
  obtain ⟨name', hentered, g', hg', hnamed'⟩ := (hhandles.nameEntered_of_comesTo hcomes).1 slot hslot
  obtain rfl := hhandles.unique g g' name name' slot hcomes.reaches hg' hg hnamed'
  rw [Rendering.names, hd] at hentered
  exact hnew hentered

end HandlesNamed

/-- The listing of a grammar whose names are consistent and clear of open handles can always be
made, and each body in it is what the rule of the name is written as on its own. -/
theorem describe_entries_eq_ebnf (hconsistent : store.NamesConsistent root)
    (hclear : store.NamesClear root) :
    ∃ text definitions, store.describe root .empty = some (text, definitions) ∧
      ∀ name body, (name, body) ∈ definitions.entries →
        (∃ g rule, store.Reaches root g ∧ store.named? g = some (name, rule)) ∧
          ∀ g rule, store.Reaches root g → store.named? g = some (name, rule) →
            store.ebnf? rule = some body := by
  obtain ⟨text, definitions, hdescribe⟩ := store.exists_describe root .empty
  refine ⟨text, definitions, hdescribe, fun name body hentry => ?_⟩
  have hrecords := records_of_describe hdescribe hentry
  obtain ⟨g, rule, hg, hnamed, htext⟩ := hrecords.ebnf?_eq hclear
  refine ⟨⟨g, rule, hg, hnamed⟩, fun g' rule' hg' hnamed' => ?_⟩
  obtain rfl := hconsistent g g' name rule rule' hg hg' hnamed hnamed'
  exact htext

section Row

/-- Symbols in a row. The rule is kept in a slot and refers to itself by its name. -/
def namedRow : Grammar Nat :=
  .reference "row" (.handle ⟨0, 0⟩)

def rowRule : Grammar Nat :=
  .sequence (.literal "x") (.option namedRow)

def rowStore : Store Nat :=
  ⟨⟨[some [some (.rule rowRule)]]⟩, []⟩

variable {root g : Grammar Nat}

theorem mem_of_reaches_row (hroot : root = .handle ⟨0, 0⟩ ∨ root = namedRow)
    (h : rowStore.Reaches root g) :
    g ∈ [.handle ⟨0, 0⟩, namedRow, rowRule, .literal "x", .option namedRow] := by
  induction h with
  | root => rcases hroot with rfl | rfl <;> simp
  | @part g q _ hq ih =>
      simp only [List.mem_cons, List.not_mem_nil, or_false] at ih
      rcases ih with rfl | rfl | rfl | rfl | rfl
      · cases hq
      · cases hq
      · exact List.mem_of_mem_drop (i := 3) hq
      · cases hq
      · rw [List.mem_singleton.1 hq]
        simp
  | @handle slot body _ hslot ih =>
      simp only [List.mem_cons, List.not_mem_nil, or_false] at ih
      obtain rfl : slot = ⟨0, 0⟩ := by
        rcases ih with h | h | h | h | h <;> cases h
        rfl
      obtain rfl : rowRule = body := Option.some.inj hslot
      simp
  | @named g body name _ hg ih =>
      simp only [List.mem_cons, List.not_mem_nil, or_false] at ih
      rcases ih with rfl | rfl | rfl | rfl | rfl <;> cases hg
      simp

theorem eq_of_handle_row (hroot : root = .handle ⟨0, 0⟩ ∨ root = namedRow) {slot : Slot}
    (h : rowStore.Reaches root (.handle slot)) : slot = ⟨0, 0⟩ := by
  have hmem := mem_of_reaches_row hroot h
  simp only [List.mem_cons, List.not_mem_nil, or_false] at hmem
  rcases hmem with h | h | h | h | h <;> cases h
  rfl

theorem eq_of_named_row (hroot : root = .handle ⟨0, 0⟩ ∨ root = namedRow) {name : String}
    {rule : Option (Grammar Nat)} (hg : rowStore.Reaches root g)
    (hnamed : rowStore.named? g = some (name, rule)) : g = namedRow := by
  have hmem := mem_of_reaches_row hroot hg
  simp only [List.mem_cons, List.not_mem_nil, or_false] at hmem
  rcases hmem with rfl | rfl | rfl | rfl | rfl <;> cases hnamed
  rfl

theorem namesConsistent_row (hroot : root = .handle ⟨0, 0⟩ ∨ root = namedRow) :
    rowStore.NamesConsistent root := by
  intro g g' name rule rule' hg hg' hnamed hnamed'
  obtain rfl := eq_of_named_row hroot hg hnamed
  obtain rfl := eq_of_named_row hroot hg' hnamed'
  cases hnamed
  cases hnamed'
  rfl

theorem not_exposes_row (slot : Slot) : ¬ rowStore.Exposes rowRule slot := by
  have hsymbol : ¬ rowStore.Exposes (.literal "x") slot := by
    rintro (_ | _ | ⟨hq, -⟩)
    cases hq
  have hname : ¬ rowStore.Exposes namedRow slot := by
    rintro (_ | _ | ⟨hq, -⟩)
    cases hq
  have hrest : ¬ rowStore.Exposes (.option namedRow) slot := by
    rintro (_ | _ | ⟨hq, hslot⟩)
    obtain rfl := List.mem_singleton.1 hq
    exact hname hslot
  rintro (_ | _ | ⟨hq, hslot⟩)
  rcases List.mem_pair.1 hq with rfl | rfl
  · exact hsymbol hslot
  · exact hrest hslot

theorem handlesNamed_row : rowStore.HandlesNamed namedRow where
  start slot h := by cases h
  part g slot hg hslot := by
    have hmem := mem_of_reaches_row (.inr rfl) hg
    simp only [List.mem_cons, List.not_mem_nil, or_false] at hmem
    rcases hmem with rfl | rfl | rfl | rfl | rfl <;>
      simp [Grammar.writtenParts, rowRule, namedRow] at hslot
  handle slot inner hslot hrule := by
    obtain rfl := eq_of_handle_row (.inr rfl) hslot
    cases hrule
  define name slot h := by
    cases eq_of_named_row (.inr rfl) h rfl
  unique g g' name name' slot hg hg' hnamed hnamed' := by
    obtain rfl := eq_of_named_row (.inr rfl) hg hnamed
    obtain rfl := eq_of_named_row (.inr rfl) hg' hnamed'
    cases hnamed
    cases hnamed'
    rfl

/-- A listing that starts at the name has the whole rule. -/
theorem describe_entries_eq_ebnf_row :
    rowStore.NamesConsistent namedRow ∧ rowStore.NamesClear namedRow ∧
      rowStore.describe namedRow .empty = some ("row", ⟨[("row", "\"x\", [row]")]⟩) ∧
      rowStore.ebnf (.handle ⟨0, 0⟩) = some "\"x\", [row]" := by
  have hconsistent := namesConsistent_row (.inr rfl)
  have hclear := handlesNamed_row.namesClear
  have hlisting : rowStore.describe namedRow .empty =
      some ("row", ⟨[("row", "\"x\", [row]")]⟩) := by
    decide +kernel
  obtain ⟨text, definitions, hdescribe, hentries⟩ := describe_entries_eq_ebnf hconsistent hclear
  obtain ⟨rfl, rfl⟩ := Prod.mk.inj (Option.some.inj (hlisting.symm.trans hdescribe))
  obtain ⟨-, hbody⟩ := hentries "row" _ List.mem_cons_self
  exact ⟨hconsistent, hclear, hlisting, hbody namedRow _ .root rfl⟩

/-- A listing that starts at the handle has three dots in place of the rule, although the names are
consistent and the only cycle passes through the name. -/
theorem describe_entries_ne_ebnf_row :
    rowStore.NamesConsistent (.handle ⟨0, 0⟩) ∧
      (∀ slot body, rowStore.Reaches (.handle ⟨0, 0⟩) (.handle slot) →
        rowStore.handle? slot = some body → ¬ rowStore.Exposes body slot) ∧
      (∀ name body, ¬ rowStore.Reaches (.handle ⟨0, 0⟩) (.define name body)) ∧
      rowStore.Reaches (.handle ⟨0, 0⟩) namedRow ∧
      rowStore.named? namedRow = some ("row", some (.handle ⟨0, 0⟩)) ∧
      rowStore.describe (.handle ⟨0, 0⟩) .empty = some ("\"x\", [row]", ⟨[("row", "...")]⟩) ∧
      rowStore.ebnf (.handle ⟨0, 0⟩) = some "\"x\", [row]" := by
  have hrule : rowStore.Reaches (.handle ⟨0, 0⟩) rowRule := .handle .root rfl
  have hrest : rowStore.Reaches (.handle ⟨0, 0⟩) (.option namedRow) :=
    hrule.part (List.mem_pair.2 (.inr rfl))
  refine ⟨namesConsistent_row (.inl rfl), ?_, ?_, hrest.part (List.mem_singleton.2 rfl), rfl,
    by decide +kernel, by decide +kernel⟩
  · intro slot body hreaches hslot
    obtain rfl := eq_of_handle_row (.inl rfl) hreaches
    obtain rfl : rowRule = body := Option.some.inj hslot
    exact not_exposes_row ⟨0, 0⟩
  · intro name body h
    cases eq_of_named_row (.inl rfl) h rfl

end Row

end Store

end ParserAlgebra
