import ParserAlgebra.Proofs.Collecting
import ParserAlgebra.Proofs.LeftRecursion
import ParserAlgebra.Proofs.Walk

/-!
# The order of listings

Where all names are entered behind their rules, a listing can be read from its beginning: what a
rule mentions is defined before the rule is. Where all names are entered in front of their rules,
the names are listed in the order in which a depth-first walk first comes to them, each directly
before those that are first reached from its rule.
-/

namespace ParserAlgebra

variable {σ : Type}

/-- What is written where a grammar is written is among what it is put together from. -/
theorem Grammar.mem_directParts {g q : Grammar σ} (h : q ∈ g.writtenParts) : q ∈ g.directParts := by
  cases g with
  | sepBy item separator =>
      simp only [writtenParts, List.mem_cons, List.not_mem_nil, or_false] at h
      rcases h with rfl | rfl | rfl <;> simp [directParts]
  | reference _ _ | define _ _ | rename _ _ _ => cases h
  | _ => exact h

namespace Store

variable {store : Store σ} {root g : Grammar σ} {r s : Rendering} {name text : String}
  {rule : Option (Grammar σ)}

theorem Reaches.trans {q : Grammar σ} (h : store.Reaches root g) (h' : store.Reaches g q) :
    store.Reaches root q := by
  induction h' with
  | root => exact h
  | part _ hq ih => exact ih.part hq
  | handle _ hslot ih => exact ih.handle hslot
  | named _ hg ih => exact ih.named hg

/-- The rendering of a grammar may come upon a name. -/
def ReachesName (store : Store σ) (root : Grammar σ) (name : String) : Prop :=
  ∃ g rule, store.Reaches root g ∧ store.named? g = some (name, rule)

/-- Whatever name is entered while a grammar is written is one that the grammar reaches. -/
theorem reachesName_of_mem_names {n : Nat} (hg : store.Reaches root g)
    (h : g.writeWithin store n r = some (text, s)) (hname : name ∈ s.names) :
    name ∈ r.names ∨ store.ReachesName root name := by
  induction n generalizing g r s text with
  | zero => cases h
  | succ n ih =>
      have hplain (hg' : g.IsPlain) : name ∈ r.names ∨ store.ReachesName root name := by
        refine (Grammar.writes_writeWithin hg' h).of_parts
          (P := fun r s => name ∈ s.names → name ∈ r.names ∨ store.ReachesName root name)
          (fun _ => .inl) ?_ ?_ hname
        · exact fun _ _ _ hfirst hrest hname => (hrest hname).elim hfirst .inr
        · exact fun q hq _ _ _ hq' hname => ih (hg.part hq) hq' hname
      have hreference {own : String} {rule : Option (Grammar σ)} {w : Grammar.Writer}
          (hown : store.named? g = some (own, rule))
          (hbody : ∀ r text s, w r = some (text, s) → name ∈ s.names →
            name ∈ r.names ∨ store.ReachesName root name)
          (h : Grammar.Writer.reference own w r = some (text, s)) :
          name ∈ r.names ∨ store.ReachesName root name := by
        obtain ⟨-, ⟨rfl, -⟩ | ⟨d, inner, r', hd, -, hinner, rfl⟩⟩ :=
          Grammar.Writer.eq_of_reference h
        · exact .inl hname
        · rw [Rendering.names_map fun d => d.names_amend own inner] at hname
          rw [Rendering.names_of_definitions hd]
          rcases hbody _ inner r' hinner hname with hentered | hreached
          · rcases Definitions.eq_or_mem_of_mem_names_insert hentered with rfl | hold
            · exact .inr ⟨g, rule, hg, hown⟩
            · exact .inl hold
          · exact .inr hreached
      cases g with
      | reference own body =>
          exact hreference rfl (fun _ _ _ h hname => ih (hg.named rfl) h hname) h
      | define own body =>
          obtain ⟨-, ⟨rfl, -⟩ | ⟨d, inner, r', -, -, hinner, rfl⟩⟩ := Grammar.Writer.eq_of_define h
          · exact .inl hname
          · cases hd' : r'.definitions with
            | none => simp [Rendering.names, hd'] at hname
            | some d' =>
                rw [hd'] at hname
                rcases Definitions.eq_or_mem_of_mem_names_insert hname with rfl | hold
                · exact .inr ⟨_, _, hg, rfl⟩
                · exact ih (hg.named rfl) hinner (Rendering.names_of_definitions hd' ▸ hold)
      | handle slot =>
          obtain ⟨rfl, -⟩ | ⟨body, r', hslot, -, hinner, rfl⟩ := written_handle h
          · exact .inl hname
          · have hentered := ih (hg.handle hslot) hinner hname
            exact hentered
      | fixed hold own rule =>
          rw [Grammar.writeWithin] at h
          refine hreference (named?_fixed rfl) (fun r text s h hname => ?_) h
          cases hrule : store.fixed? rule with
          | none =>
              rw [hrule] at h
              cases h
              exact .inl hname
          | some body =>
              rw [hrule] at h
              exact ih (hg.named (named?_fixed hrule)) h hname
      | _ => exact hplain trivial

theorem Exposes.exists_handle {slot : Slot} (h : store.Exposes g slot)
    (hg : store.Reaches root g) : ∃ slot, store.Reaches root (.handle slot) := by
  induction h with
  | handle _ | behind _ _ _ => exact ⟨_, hg⟩
  | part hq _ ih => exact ih (hg.part hq)

/-- The names that are reached are entered behind their rules, and no others are. -/
structure DefinesOnly (store : Store σ) (root : Grammar σ) : Prop where
  reference : ∀ name body, ¬ store.Reaches root (.reference name body)
  fixed : ∀ hold name rule, ¬ store.Reaches root (.fixed hold name rule)
  handle : ∀ slot, ¬ store.Reaches root (.handle slot)

namespace DefinesOnly

theorem of_reaches (hdefines : store.DefinesOnly root) (hg : store.Reaches root g) :
    store.DefinesOnly g :=
  ⟨fun name body h => hdefines.reference name body (hg.trans h),
    fun hold name rule h => hdefines.fixed hold name rule (hg.trans h),
    fun slot h => hdefines.handle slot (hg.trans h)⟩

theorem eq_define (hdefines : store.DefinesOnly root) (hg : store.Reaches root g)
    (hnamed : store.named? g = some (name, rule)) :
    ∃ body, g = .define name body ∧ rule = some body := by
  cases g with
  | reference own body => exact absurd hg (hdefines.reference own body)
  | fixed hold own rule => exact absurd hg (hdefines.fixed hold own rule)
  | define own body =>
      cases hnamed
      exact ⟨body, rfl, rfl⟩
  | _ => cases hnamed

/-- What is reached without going through a store is part of the grammar. -/
theorem size_le (hdefines : store.DefinesOnly root) (hg : store.Reaches root g) :
    g.size ≤ root.size := by
  induction hg with
  | root => exact Nat.le_refl _
  | @part g q hg hq ih =>
      exact (Grammar.size_lt_of_mem_directParts (Grammar.mem_directParts hq)).le.trans ih
  | handle hg _ _ => exact absurd hg (hdefines.handle _)
  | named hg hnamed ih =>
      obtain ⟨body, rfl, hbody⟩ := hdefines.eq_define hg hnamed
      cases hbody
      exact (Nat.le_succ _).trans ih

theorem namesClear (hdefines : store.DefinesOnly root) : store.NamesClear root := by
  intro g r d name body hcomes hnamed _ _ slot _ hexposes
  obtain ⟨slot', hslot'⟩ := hexposes.exists_handle (hcomes.reaches.named hnamed)
  exact hdefines.handle slot' hslot'

/-- A name is not entered while its own rule is written. -/
theorem not_mem_names {n : Nat} {body : Grammar σ} (hdefines : store.DefinesOnly root)
    (hconsistent : store.NamesConsistent root) (hg : store.Reaches root (.define name body))
    (h : body.writeWithin store n r = some (text, s)) (hnew : name ∉ r.names) :
    name ∉ s.names := by
  intro hentered
  have hbody : store.Reaches root body := hg.named rfl
  obtain ⟨q, rule, hq, hnamed⟩ :=
    (reachesName_of_mem_names .root h hentered).resolve_left hnew
  obtain ⟨body', rfl, rfl⟩ := hdefines.eq_define (hbody.trans hq) hnamed
  obtain rfl := Option.some.inj (hconsistent _ _ name _ _ hg (hbody.trans hq) rfl hnamed)
  have hle := (hdefines.of_reaches hbody).size_le hq
  rw [Grammar.size] at hle
  omega

end DefinesOnly

/-- What the rule of a name mentions stands before the name. -/
def BottomUp (store : Store σ) (root : Grammar σ) (names : List String) : Prop :=
  ∀ before name after, names = before ++ name :: after → ∀ g rule, store.Reaches root g →
    store.named? g = some (name, some rule) → ∀ other, store.Shows rule other → other ∈ before

theorem BottomUp.concat {names : List String} (h : store.BottomUp root names)
    (hname : ∀ g rule, store.Reaches root g → store.named? g = some (name, some rule) →
      ∀ other, store.Shows rule other → other ∈ names) :
    store.BottomUp root (names ++ [name]) := by
  intro before own after hsplit
  obtain rfl | ⟨rest, last, rfl⟩ := List.eq_nil_or_concat after
  · obtain ⟨rfl, hown⟩ := List.append_inj' hsplit rfl
    cases hown
    exact hname
  · rw [List.concat_eq_append, ← List.cons_append, ← List.append_assoc] at hsplit
    obtain ⟨rfl, -⟩ := List.append_inj' hsplit rfl
    exact h before own rest rfl

theorem Shows.exists_mem_parts {other : String} (hplain : g.IsPlain) (h : store.Shows g other) :
    ∃ q ∈ g.writtenParts, store.Shows q other := by
  cases h with
  | part hq hother => exact ⟨_, hq, hother⟩
  | handle _ _ => exact hplain.elim
  | name hnamed =>
      cases g with
      | reference _ _ | define _ _ | fixed _ _ _ => exact hplain.elim
      | _ => cases hnamed

/-- A rendering that has entered all that its grammars mention, everything in its order. -/
theorem Writes.bottomUp {n : Nat} (h : store.Writes n gs r s)
    (hr : r.definitions.isSome ∧ store.BottomUp root r.names)
    (hparts : ∀ q ∈ gs, ∀ r text s, r.definitions.isSome → store.BottomUp root r.names →
      q.writeWithin store n r = some (text, s) →
        store.BottomUp root s.names ∧ ∀ other, store.Shows q other → other ∈ s.names) :
    store.BottomUp root s.names ∧ ∀ q ∈ gs, ∀ other, store.Shows q other → other ∈ s.names := by
  induction h with
  | nil => exact ⟨hr.2, by simp⟩
  | @cons q qs r r' s text hq hqs ih =>
      obtain ⟨hfirst, hrest⟩ := List.forall_mem_cons.1 hparts
      obtain ⟨hr', hshown⟩ := hfirst _ _ _ hr.1 hr.2 hq
      have hleads := Grammar.leads_writeWithin n q _ _ _ hq
      obtain ⟨hs, hshown'⟩ := ih ⟨hleads.collects.trans hr.1, hr'⟩ hrest
      have hmore := hqs.leadsTo fun q => Grammar.leads_writeWithin n q
      exact ⟨hs, List.forall_mem_cons.2
        ⟨fun other hother => hmore.names (hshown other hother), hshown'⟩⟩

theorem DefinesOnly.bottomUp_writeWithin {n : Nat} (hdefines : store.DefinesOnly root)
    (hconsistent : store.NamesConsistent root) (hg : store.Reaches root g)
    (hcollects : r.definitions.isSome) (hr : store.BottomUp root r.names)
    (h : g.writeWithin store n r = some (text, s)) :
    store.BottomUp root s.names ∧ ∀ other, store.Shows g other → other ∈ s.names := by
  induction n generalizing g r s text with
  | zero => cases h
  | succ n ih =>
      have hplain (hg' : g.IsPlain) :
          store.BottomUp root s.names ∧ ∀ other, store.Shows g other → other ∈ s.names := by
        obtain ⟨hs, hshown⟩ := (Grammar.writes_writeWithin hg' h).bottomUp ⟨hcollects, hr⟩
          fun q hq _ _ _ hcollects hr hq' => ih (hg.part hq) hcollects hr hq'
        refine ⟨hs, fun other hother => ?_⟩
        obtain ⟨q, hq, hother⟩ := hother.exists_mem_parts hg'
        exact hshown q hq other hother
      cases g with
      | reference name body => exact absurd hg (hdefines.reference name body)
      | fixed hold name rule => exact absurd hg (hdefines.fixed hold name rule)
      | handle slot => exact absurd hg (hdefines.handle slot)
      | define name body =>
          have hshown (other : String) (hother : store.Shows (.define name body) other) :
              other = name := by
            cases hother with
            | name hnamed =>
                cases hnamed
                rfl
            | part hq _ => cases hq
          have hname : name ∈ s.names :=
            Grammar.Writer.mem_names_of_define (Grammar.leads_writeWithin n body) hcollects h
          refine ⟨?_, fun other hother => hshown other hother ▸ hname⟩
          obtain ⟨-, ⟨rfl, -⟩ | ⟨d, inner, r', hd, hnew, hinner, rfl⟩⟩ :=
            Grammar.Writer.eq_of_define h
          · exact hr
          · obtain ⟨hr', hmentioned⟩ := ih (hg.named rfl) hcollects hr hinner
            rw [← Rendering.names_of_definitions hd] at hnew
            have hstill := hdefines.not_mem_names hconsistent hg hinner hnew
            obtain ⟨d', hd'⟩ := Option.isSome_iff_exists.1
              ((Grammar.leads_writeWithin n body _ _ _ hinner).collects.trans hcollects)
            have hnames : r'.names = d'.names := Rendering.names_of_definitions hd'
            rw [hd']
            change store.BottomUp root (d'.insert name inner).names
            rw [Definitions.names_insert_of_not_mem (hnames ▸ hstill), ← hnames]
            refine hr'.concat fun g' rule hg' hnamed other hother => ?_
            have hrule := hconsistent _ _ name _ _ hg hg' rfl hnamed
            cases hrule
            exact hmentioned other hother
      | _ => exact hplain trivial

/-- Names are consistent if no two of the grammars that are reached have the same one. -/
theorem namesConsistent_of_nodup {grammars : List (Grammar σ)}
    (hreached : ∀ g, store.Reaches root g → g ∈ grammars)
    (hnodup : ((grammars.filterMap store.named?).map (·.1)).Nodup) :
    store.NamesConsistent root := by
  intro g g' name rule rule' hg hg' hnamed hnamed'
  have hrule := List.mem_filterMap.2 ⟨g, hreached g hg, hnamed⟩
  have hrule' := List.mem_filterMap.2 ⟨g', hreached g' hg', hnamed'⟩
  exact congrArg Prod.snd (List.inj_on_of_nodup_map hnodup hrule hrule' rfl)

theorem write_of_describe {definitions : Definitions}
    (h : store.describe root .empty = some (text, definitions)) :
    store.write root (.fresh (some .empty)) = some (text, ⟨[], some definitions⟩) := by
  obtain ⟨⟨text', s⟩, hwritten, h⟩ := Option.bind_eq_some_iff.1 h
  obtain ⟨definitions', hdefinitions, h⟩ := Option.bind_eq_some_iff.1 h
  cases h
  obtain ⟨active, collected⟩ := s
  obtain rfl : active = [] := (Grammar.leads_writeWithin _ root _ _ _ hwritten).active
  rw [hwritten, show collected = some definitions from hdefinitions]

/-- A listing is ordered by dependency. If all names are entered behind their rules, each entry
stands behind the entries of all names that its body mentions. If all names are entered in front of
their rules, the names stand in the order in which the walk comes to them, and directly behind each
of them those to which it first comes from the rule of that name. -/
theorem listing_ordered (store : Store σ) (root : Grammar σ) :
    ∃ text definitions, store.describe root .empty = some (text, definitions) ∧
      (store.NamesConsistent root → store.DefinesOnly root →
        ∀ before name body after, definitions.entries = before ++ (name, body) :: after →
          ∃ g rule, store.Reaches root g ∧ store.named? g = some (name, some rule) ∧
            store.ebnf rule = some body ∧
              ∀ other, store.Shows rule other → other ∈ before.map (·.1)) ∧
      ((∀ name body, ¬ store.Reaches root (.define name body)) →
        (∀ names, (∃ slots, store.Walks [root] .start ⟨slots, names⟩) ↔
          names = definitions.names) ∧
        ∀ before name after, definitions.names = before ++ name :: after →
          ∃ g rule slots slots' inside outside, store.Reaches root g ∧
            store.named? g = some (name, rule) ∧ after = inside ++ outside ∧
              store.Walks rule.toList ⟨slots, before ++ [name]⟩
                ⟨slots', before ++ name :: inside⟩) := by
  obtain ⟨text, definitions, hdescribe⟩ := store.exists_describe root .empty
  have hwritten := write_of_describe hdescribe
  refine ⟨text, definitions, hdescribe, ?_, ?_⟩
  · intro hconsistent hdefines before name body after hentries
    have hentry : (name, body) ∈ definitions.entries :=
      hentries ▸ List.mem_append_right _ List.mem_cons_self
    obtain ⟨g, rule, hg, hnamed, hbody⟩ :=
      (records_of_describe hdescribe hentry).ebnf?_eq hdefines.namesClear
    obtain ⟨rule, rfl, rfl⟩ := hdefines.eq_define hg hnamed
    have hempty : store.BottomUp root (Rendering.fresh (some .empty)).names := by
      intro before name after hsplit
      exact absurd hsplit.symm (List.append_ne_nil_of_right_ne_nil _ (List.cons_ne_nil _ _))
    obtain ⟨hlisted, -⟩ := hdefines.bottomUp_writeWithin hconsistent .root rfl hempty hwritten
    refine ⟨_, rule, hg, hnamed, hbody, hlisted (before.map (·.1)) name (after.map (·.1)) ?_ _ rule
      hg hnamed⟩
    change definitions.entries.map (·.1) = _
    rw [hentries, List.map_append, List.map_cons]
  · intro hahead
    obtain ⟨⟨slots, names⟩, hwalk, hend, -⟩ :=
      tracks_writeWithin hahead .root (Follows.start store) hwritten
    obtain rfl : definitions.names = names := hend.names
    refine ⟨fun names => ⟨?_, ?_⟩, fun before name after hsplit => ?_⟩
    · rintro ⟨slots', hwalk'⟩
      exact congrArg Trail.names (hwalk'.unique hwalk)
    · rintro rfl
      exact ⟨slots, hwalk⟩
    · refine hwalk.exists_block (fun g hg => ?_) hsplit List.nil_prefix
      obtain rfl := List.mem_singleton.1 hg
      exact .root

section Listings

/-- A sum whose operands and figures have names of their own, all of them entered behind. -/
def sumRule : Grammar Nat :=
  let figure : Grammar Nat := .define "figure" (.accept (.ofClass .digit))
  let number : Grammar Nat := .define "number" (.sequence figure (.many figure))
  .define "sum" (.sepBy number (.choice (.literal "+") (.rename "minus" .atom figure)))

def sumListing : Definitions :=
  ⟨[("figure", "digit"), ("number", "figure, \x7bfigure\x7d"),
    ("sum", "number, \x7b(\"+\" | minus), number\x7d")]⟩

/-- The grammars that are reached from the sum. -/
def sumGrammars : List (Grammar Nat) :=
  let figure : Grammar Nat := .define "figure" (.accept (.ofClass .digit))
  let number : Grammar Nat := .define "number" (.sequence figure (.many figure))
  let minus : Grammar Nat := .rename "minus" .atom figure
  [sumRule, .sepBy number (.choice (.literal "+") minus), number, .sequence figure (.many figure),
    figure, .accept (.ofClass .digit), .many figure, .choice (.literal "+") minus, .literal "+",
    minus]

theorem mem_sumGrammars {g : Grammar Nat} (h : Store.empty.Reaches sumRule g) :
    g ∈ sumGrammars := by
  have hset : g ∈ {g | g ∈ sumGrammars} := by
    refine h.mem_of_closed List.mem_cons_self ?_
    simp [sumGrammars, successors, Grammar.writtenParts, sumRule]
  exact hset

/-- A list in brackets in a slot and its end as a fixed point, which lead back to each other. -/
def listRule : Grammar Nat :=
  .choice (.literal "x") (.reference "list" (.sequence (.literal "[") (.fixed .owner "tail" 0)))

def listTail : Grammar Nat :=
  .choice (.literal "]")
    (.sequence (.handle ⟨0, 0⟩)
      (.sequence (.reference "comma" (.literal ",")) (.fixed .borrower "tail" 0)))

def listStore : Store Nat :=
  ⟨⟨[some [some (.rule listRule)]]⟩, [some listTail]⟩

/-- The handle of the list twice. When it comes up again it is closed. -/
def listTwice : Grammar Nat :=
  .sequence (.handle ⟨0, 0⟩) (.sequence (.reference "end" (.literal ";")) (.handle ⟨0, 0⟩))

def listListing : Definitions :=
  ⟨[("list", "\"[\", tail"), ("tail", "\"]\" | ..., comma, tail"), ("comma", "\",\""),
    ("end", "\";\"")]⟩

/-- The grammars that are reached from the handle of the list. -/
def listGrammars : List (Grammar Nat) :=
  let list : Grammar Nat := .sequence (.literal "[") (.fixed .owner "tail" 0)
  let comma : Grammar Nat := .reference "comma" (.literal ",")
  let again : Grammar Nat := .sequence comma (.fixed .borrower "tail" 0)
  let rest : Grammar Nat := .sequence (.reference "end" (.literal ";")) (.handle ⟨0, 0⟩)
  [listTwice, .handle ⟨0, 0⟩, rest, .reference "end" (.literal ";"), .literal ";", listRule,
    .literal "x", .reference "list" list, list, .literal "[", .fixed .owner "tail" 0, listTail,
    .literal "]", .sequence (.handle ⟨0, 0⟩) again, again, comma, .literal ",",
    .fixed .borrower "tail" 0]

theorem mem_listGrammars {g : Grammar Nat} (h : listStore.Reaches listTwice g) :
    g ∈ listGrammars := by
  have hslot : listStore.handle? ⟨0, 0⟩ = some listRule := rfl
  have hrule : listStore.fixed? 0 = some listTail := rfl
  have hset : g ∈ {g | g ∈ listGrammars} := by
    refine h.mem_of_closed List.mem_cons_self ?_
    simp [listGrammars, successors, Grammar.writtenParts, hslot, hrule, listTwice, listRule,
      listTail]
  exact hset

/-- What a number mentions is defined before it. In the cyclic grammar the end comes last, since all
other names are first reached from the rule of the list. -/
theorem listing_ordered_sum_list :
    Store.empty.NamesConsistent sumRule ∧ Store.empty.DefinesOnly sumRule ∧
      Store.empty.describe sumRule .empty = some ("sum", sumListing) ∧
      (∃ g rule, Store.empty.Reaches sumRule g ∧
        Store.empty.named? g = some ("number", some rule) ∧
          Store.empty.ebnf rule = some "figure, \x7bfigure\x7d" ∧
            ∀ other, Store.empty.Shows rule other → other ∈ ["figure"]) ∧
      (∀ name body, ¬ listStore.Reaches listTwice (.define name body)) ∧
      listStore.describe listTwice .empty =
        some ("(\"x\" | list), end, (\"x\" | list)", listListing) ∧
      (∃ slots, listStore.Walks [listTwice] .start ⟨slots, ["list", "tail", "comma", "end"]⟩) ∧
      ∃ g rule slots slots' inside outside, listStore.Reaches listTwice g ∧
        listStore.named? g = some ("list", rule) ∧ ["tail", "comma", "end"] = inside ++ outside ∧
          listStore.Walks rule.toList ⟨slots, ["list"]⟩ ⟨slots', "list" :: inside⟩ := by
  have hdefines : (Store.empty : Store Nat).DefinesOnly sumRule := by
    constructor <;> intros <;> intro h <;> simpa [sumGrammars, sumRule] using mem_sumGrammars h
  have hconsistent : (Store.empty : Store Nat).NamesConsistent sumRule :=
    namesConsistent_of_nodup (fun _ => mem_sumGrammars) (by decide)
  have hahead (name : String) (body : Grammar Nat) :
      ¬ listStore.Reaches listTwice (.define name body) := by
    intro h
    simpa [listGrammars, listTwice, listRule, listTail] using mem_listGrammars h
  have hsum : Store.empty.describe sumRule .empty = some ("sum", sumListing) := by decide +kernel
  have hlist : listStore.describe listTwice .empty =
      some ("(\"x\" | list), end, (\"x\" | list)", listListing) := by
    decide +kernel
  obtain ⟨_, _, hdescribe, hbehind, -⟩ := listing_ordered Store.empty sumRule
  obtain ⟨rfl, rfl⟩ := Prod.mk.inj (Option.some.inj (hsum.symm.trans hdescribe))
  obtain ⟨_, _, hdescribe', -, hfront⟩ := listing_ordered listStore listTwice
  obtain ⟨rfl, rfl⟩ := Prod.mk.inj (Option.some.inj (hlist.symm.trans hdescribe'))
  obtain ⟨hwalk, hblocks⟩ := hfront hahead
  refine ⟨hconsistent, hdefines, hsum, ?_, hahead, hlist, (hwalk _).2 rfl, ?_⟩
  · exact hbehind hconsistent hdefines [("figure", "digit")] "number" _ _ rfl
  · exact hblocks [] "list" ["tail", "comma", "end"] rfl

end Listings

end Store

end ParserAlgebra
